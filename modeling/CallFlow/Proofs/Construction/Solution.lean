/-
**The least solution of the rules.**

What a construction computes can be said without its queues: reachable methods, edges and facts that
are closed under a few rules. A construction only ever adds what the rules ask for, and when nothing
is left it has added all of it.

* `Construction.Solution`, `Construction.Closed`: reachable methods, edges and facts, and the rules.
* `Construction.Reaches.within`: every state is inside every closed solution.
* `Construction.closed_of_idle`: a state in which nothing is left is closed.
* `buildGraph_isLeast`: a graph that is built is the least closed solution.
-/

import Mathlib.Order.Bounds.Basic
import CallFlow.Proofs.Construction.Settled
import CallFlow.Proofs.Program.InRange

namespace CallFlow

namespace Construction

/-- Reachable methods, edges and facts. -/
@[ext]
structure Solution where
  reachable : Set MethodId
  edges : Set Edge
  facts : Set (Scope × ClassId)

/-- Solutions are ordered by inclusion of all three parts. -/
instance : PartialOrder Solution where
  le first second := first.reachable ⊆ second.reachable ∧ first.edges ⊆ second.edges ∧
    first.facts ⊆ second.facts
  le_refl _ := ⟨subset_rfl, subset_rfl, subset_rfl⟩
  le_trans _ _ _ left right := ⟨left.1.trans right.1, left.2.1.trans right.2.1,
    left.2.2.trans right.2.2⟩
  le_antisymm _ _ left right := Solution.ext (left.1.antisymm right.1)
    (left.2.1.antisymm right.2.1) (left.2.2.antisymm right.2.2)

/-- The reachable methods, edges and facts of a state. -/
def State.solution (state : State) : Solution where
  reachable := { method | method ∈ state.graph.reachable }
  edges := { edge | edge ∈ state.graph.edges }
  facts := { fact | fact ∈ state.facts }

/-- **The rules.** Facts are asked for only if instantiation is tracked. -/
structure Closed (setting : Setting) (entry : MethodId) (solution : Solution) : Prop where
  entry : entry ∈ solution.reachable
  callee : ∀ edge ∈ solution.edges, edge.callee ∈ solution.reachable
  /-- A static or special call reaches the declaration that it names, unless that is abstract. -/
  declared : ∀ site call callee, site.method ∈ solution.reachable →
    setting.program.call? site = some call → call.kind = .static ∨ call.kind = .special →
    setting.hierarchy.resolve call.target = .ok (some callee) →
    setting.program.isAbstract callee = false → ⟨site, call.kind, callee⟩ ∈ solution.edges
  /-- If instantiation is not tracked, a virtual call reaches the methods of all receivers. -/
  dispatched : setting.granularity.tracksInstantiation = false → ∀ site call id callee,
    site.method ∈ solution.reachable → setting.program.call? site = some call →
    call.kind.isVirtual = true → setting.Receives call.target id callee →
    ⟨site, call.kind, callee⟩ ∈ solution.edges
  /-- If it is tracked, only those of the receivers in the scope of the caller, which flow into the
  called method. -/
  received : setting.granularity.tracksInstantiation = true → ∀ site call id callee,
    site.method ∈ solution.reachable → setting.program.call? site = some call →
    call.kind.isVirtual = true → setting.Receives call.target id callee →
    (setting.scopeOf site.method, id) ∈ solution.facts →
    ⟨site, call.kind, callee⟩ ∈ solution.edges ∧ (setting.scopeOf callee, id) ∈ solution.facts
  allocated : setting.granularity.tracksInstantiation = true → ∀ method id,
    method ∈ solution.reachable → setting.program.HasStatement method (.new id) →
    setting.program.isConcrete id = true → (setting.scopeOf method, id) ∈ solution.facts
  allocatedArray : setting.granularity.tracksInstantiation = true →
    setting.granularity.countsArrays = true → ∀ method element id, method ∈ solution.reachable →
    setting.program.HasStatement method (.newArray element) → element.baseClass = some id →
    setting.program.isConcrete id = true → (setting.scopeOf method, id) ∈ solution.facts
  /-- The classes of the caller that fit a parameter flow along an edge. -/
  passed : setting.granularity.tracksInstantiation = true → ∀ edge ∈ solution.edges, ∀ id,
    (setting.scopeOf edge.caller, id) ∈ solution.facts →
    setting.acceptsArgument edge.callee id = true → (setting.scopeOf edge.callee, id) ∈ solution.facts
  /-- The classes of the callee that fit its result flow back along an edge. -/
  returned : setting.granularity.tracksInstantiation = true → ∀ edge ∈ solution.edges, ∀ id,
    (setting.scopeOf edge.callee, id) ∈ solution.facts → setting.returns edge.callee id = true →
    (setting.scopeOf edge.caller, id) ∈ solution.facts
  /-- The classes of a storing method that fit the field flow into it. -/
  stored : setting.granularity.tracksInstantiation = true → ∀ method field id,
    method ∈ solution.reachable → setting.program.HasStatement method (.store field) →
    (setting.scopeOf method, id) ∈ solution.facts → setting.fieldAccepts field id = true →
    (setting.fieldScope field, id) ∈ solution.facts
  /-- The classes of a field of objects flow into a loading method. -/
  loaded : setting.granularity.tracksInstantiation = true → ∀ method field id,
    method ∈ solution.reachable → setting.program.HasStatement method (.load field) →
    setting.holdsObjects field = true → (setting.fieldScope field, id) ∈ solution.facts →
    (setting.scopeOf method, id) ∈ solution.facts

/-! ### Every state is inside every closed solution -/

/-- All that a state has, and all that its queues will bring about, is inside a solution. -/
structure Within (setting : Setting) (solution : Solution) (state : State) : Prop where
  reachable : ∀ method, Arrives state method → method ∈ solution.reachable
  edges : ∀ edge ∈ state.graph.edges, edge ∈ solution.edges
  facts : ∀ fact ∈ state.facts, fact ∈ solution.facts
  stores : ∀ scope field, (scope, field) ∈ state.stores → ∃ method ∈ solution.reachable,
    setting.program.HasStatement method (.store field) ∧ scope = setting.scopeOf method
  loads : ∀ source loader, (source, loader) ∈ state.loads → ∃ method ∈ solution.reachable, ∃ field,
    setting.program.HasStatement method (.load field) ∧ setting.holdsObjects field = true ∧
      source = setting.fieldScope field ∧ loader = setting.scopeOf method

variable {setting : Setting} {entry : MethodId} {solution : Solution}

theorem Within.initial (closed : Closed setting entry solution) :
    Within setting solution (.initial entry) where
  reachable method arrives := by
    rcases arrives with reachable | queued
    · exact absurd reachable List.not_mem_nil
    · rw [List.mem_singleton.mp queued]
      exact closed.entry
  edges edge member := absurd member (SortedSet.not_mem_empty edge)
  facts fact member := absurd member (SortedSet.not_mem_empty fact)
  stores scope field member := absurd member (SortedSet.not_mem_empty (scope, field))
  loads source loader member := absurd member (SortedSet.not_mem_empty (source, loader))

section Sound

variable {before after : State} (closed : Closed setting entry solution)
  (within : Within setting solution before)
include closed within

/-- A closed solution has the edge of a call that may be linked, and its receiver. -/
theorem Within.linkable {site : Site} {call : Call} {receiver : Option ClassId} {callee : MethodId}
    (linkable : Linkable setting before site call receiver callee) :
    ⟨site, call.kind, callee⟩ ∈ solution.edges ∧
      ∀ id, receiver = some id → (setting.scopeOf callee, id) ∈ solution.facts := by
  have reachable := within.reachable site.method (.inl linkable.reachable)
  cases linkable.selected with
  | declared direct resolved concrete =>
    exact ⟨closed.declared site call callee reachable linkable.isCall direct resolved concrete, nofun⟩
  | @dispatched id _ virtual untracked receives =>
    exact ⟨closed.dispatched untracked site call id callee reachable linkable.isCall virtual receives,
      nofun⟩
  | @received id _ virtual tracked present receives =>
    obtain ⟨linked, arrived⟩ := closed.received tracked site call id callee reachable
      linkable.isCall virtual receives (within.facts _ present)
    refine ⟨linked, fun other same => ?_⟩
    cases same
    exact arrived

/-- A closed solution has what follows from its facts. -/
theorem Within.follows (tracked : setting.granularity.tracksInstantiation = true)
    {source target : Scope × ClassId} (present : source ∈ before.facts)
    (follows : Follows setting before source target) : target ∈ solution.facts := by
  have known := within.facts source present
  cases follows with
  | passed linked accepts => exact closed.passed tracked _ (within.edges _ linked) _ known accepts
  | returned linked returns => exact closed.returned tracked _ (within.edges _ linked) _ known returns
  | stored stored accepts =>
    obtain ⟨method, reachable, stands, rfl⟩ := within.stores _ _ stored
    exact closed.stored tracked method _ _ reachable stands known accepts
  | loaded loaded =>
    obtain ⟨method, reachable, field, stands, holds, rfl, rfl⟩ := within.loads _ _ loaded
    exact closed.loaded tracked method field _ reachable stands holds known

/-- A closed solution has every fact that there is a cause for. -/
theorem Within.cause (tracked : setting.granularity.tracksInstantiation = true) {scope : Scope}
    {id : ClassId} (cause : Cause setting before scope id) : (scope, id) ∈ solution.facts := by
  cases cause with
  | @allocated method statement _ reachable stands allocates =>
    have inSolution := within.reachable method (.inl reachable)
    cases allocates with
    | new concrete => exact closed.allocated tracked method id inSolution stands concrete
    | newArray counts base concrete =>
      exact closed.allocatedArray tracked counts method _ id inSolution stands base concrete
  | received linkable => exact (within.linkable closed linkable).2 id rfl
  | followed present follows => exact within.follows closed tracked present follows

/-- **A change stays inside a closed solution.** -/
theorem Within.change (change : Change setting before after) : Within setting solution after := by
  cases change with
  | @fact scope id tracked fresh cause =>
    rw [before.addFact_of_fresh fresh]
    refine { within with reachable := within.reachable, facts := fun fact member => ?_ }
    rcases Facts.mem_add.mp member with rfl | old
    · exact within.cause closed tracked cause
    · exact within.facts fact old
  | @edge site call receiver callee linkable fresh recorded =>
    have linked := (within.linkable closed linkable).1
    refine { within with reachable := fun method arrives => ?_, edges := fun edge member => ?_ }
    · rcases arrives with reachable | queued
      · exact within.reachable method (.inl reachable)
      · rcases List.mem_append.mp queued with old | new
        · exact within.reachable method (.inr old)
        · split at new
          · exact absurd new List.not_mem_nil
          · rw [List.mem_singleton.mp new]
            exact closed.callee _ linked
    · rcases SortedSet.mem_insert.mp member with rfl | old
      · exact linked
      · exact within.edges edge old
  | linked linkable virtual => exact { within with reachable := within.reachable }
  | asked answer => exact { within with reachable := within.reachable }
  | parked tracked waits absent fresh => exact { within with reachable := within.reachable }
  | @stored method field reachable stands holds =>
    refine { within with reachable := within.reachable, stores := fun scope other member => ?_ }
    rcases SortedSet.mem_insert.mp member with same | old
    · cases same
      exact ⟨method, within.reachable method (.inl reachable), stands, rfl⟩
    · exact within.stores scope other old
  | @loaded method field reachable stands holds =>
    refine { within with reachable := within.reachable, loads := fun source loader member => ?_ }
    rcases SortedSet.mem_insert.mp member with same | old
    · cases same
      exact ⟨method, within.reachable method (.inl reachable), field, stands, holds, rfl, rfl⟩
    · exact within.loads source loader old
  | remarked diagnostic remark => exact { within with reachable := within.reachable }

omit closed in
theorem Within.take (takes : Takes setting before after) : Within setting solution after := by
  cases takes with
  | event next => exact { within with reachable := within.reachable }
  | site drained next => exact { within with reachable := within.reachable }
  | known drained idle next known =>
    refine { within with reachable := fun method arrives => ?_ }
    refine within.reachable method (arrives.imp_right fun queued => ?_)
    rw [next]
    exact List.mem_cons_of_mem _ queued
  | @discovered found methods drained idle next fresh inRange =>
    refine { within with reachable := fun method arrives => ?_, edges := fun edge member => ?_ }
    · refine within.reachable method ?_
      unfold Arrives
      rw [next, List.mem_cons]
      rcases arrives with reachable | queued
      · exact ((mem_reachable_discover fresh).mp reachable).imp_right .inl
      · exact .inr (.inr queued)
    · exact within.edges edge (Takes.edges (.discovered drained idle next fresh inRange) ▸ member)

end Sound

/-- **Every state is inside every closed solution.** -/
theorem Reaches.within {past : List State} {state : State} (reaches : Reaches setting entry past state)
    (closed : Closed setting entry solution) : Within setting solution state :=
  reaches.preserve (Within setting solution) (.initial closed) (fun _ within => within.take)
    fun within => within.change closed

/-! ### Nothing is missing in the end -/

/-- A field that accepts a class holds objects. -/
theorem holdsObjects_of_accepts {field : FieldId} {id : ClassId}
    (accepts : setting.fieldAccepts field id = true) : setting.holdsObjects field = true := by
  obtain ⟨info, found, flows⟩ := (Option.any_eq_true _ _).mp accepts
  obtain ⟨declared, isClass, _⟩ := (Option.any_eq_true _ _).mp flows
  refine (Option.any_eq_true _ _).mpr ⟨info, found, ?_⟩
  rw [isClass]
  rfl

/-- In a state in which nothing is left every call site of a reachable method is handled. -/
theorem handled_of_idle {past : List State} {state : State} (reaches : Reaches setting entry past state)
    (idle : step setting state = none) {site : Site} {call : Call}
    (reachable : site.method ∈ state.graph.reachable)
    (isCall : setting.program.call? site = some call) : Handled setting state site call := by
  obtain ⟨_, resolved, _⟩ := step_eq_none_iff.mp idle
  refine reaches.settled.handled site
    ⟨⟨_, reachable, setting.program.mem_callSites.mpr ⟨rfl, call, isCall⟩⟩, ?_⟩ call isCall
  rw [resolved]
  exact List.not_mem_nil

/-- **A state in which nothing is left is closed.** -/
theorem closed_of_idle {past : List State} {state : State} (reaches : Reaches setting entry past state)
    (idle : step setting state = none) : Closed setting entry state.solution := by
  obtain ⟨drained, _, processed⟩ := step_eq_none_iff.mp idle
  have settled := reaches.settled
  have coherent := reaches.coherent
  obtain ⟨entryArrives, calleesArrive⟩ := reaches.arrives
  have arrived {method : MethodId} (arrives : Arrives state method) :
      method ∈ state.graph.reachable := by
    unfold Arrives at arrives
    rw [processed] at arrives
    exact arrives.resolve_right List.not_mem_nil
  have drawn {source target : Scope × ClassId} (present : source ∈ state.facts)
      (follows : Follows setting state source target) : target ∈ state.facts := by
    refine settled.drawn source present ?_ target follows
    rw [drained]
    exact List.not_mem_nil
  refine ⟨arrived entryArrives, fun edge linked => arrived (calleesArrive edge linked), ?_, ?_, ?_,
    ?_, ?_, ?_, ?_, ?_, ?_⟩
  · exact fun site call callee reachable isCall direct found concrete =>
      (handled_of_idle reaches idle reachable isCall).linked callee (.declared direct found concrete)
  · exact fun untracked site call id callee reachable isCall virtual receives =>
      (handled_of_idle reaches idle reachable isCall).linked callee (.dispatched virtual untracked receives)
  · intro tracked site call id callee reachable isCall virtual receives present
    rcases (handled_of_idle reaches idle reachable isCall).received virtual tracked id callee receives with
      parked | ⟨_, linked⟩
    · have queued := coherent.absent _ parked present
      rw [drained] at queued
      exact absurd queued List.not_mem_nil
    · exact ⟨linked.edge, linked.arrived id rfl⟩
  · exact fun tracked method id reachable stands concrete =>
      (settled.absorbed tracked method reachable _ stands).allocated id (.new concrete)
  · exact fun tracked counts method element id reachable stands base concrete =>
      (settled.absorbed tracked method reachable _ stands).allocated id (.newArray counts base concrete)
  · exact fun _ edge linked id present accepts => drawn present (.passed linked accepts)
  · exact fun _ edge linked id present returns => drawn present (.returned linked returns)
  · exact fun tracked method field id reachable stands present accepts => drawn present
      (.stored ((settled.absorbed tracked method reachable _ stands).stored field rfl
        (holdsObjects_of_accepts accepts)) accepts)
  · exact fun tracked method field id reachable stands holds present => drawn present
      (.loaded ((settled.absorbed tracked method reachable _ stands).loaded field rfl holds))

/-- **A finished construction is the least closed solution.** -/
theorem isLeast_of_idle {past : List State} {state : State} (reaches : Reaches setting entry past state)
    (idle : step setting state = none) :
    IsLeast { solution | Closed setting entry solution } state.solution := by
  refine ⟨closed_of_idle reaches idle, fun solution closed => ?_⟩
  have within := reaches.within closed
  exact ⟨fun method reachable => within.reachable method (.inl reachable), within.edges, within.facts⟩

/-- Without tracking there are no facts. -/
theorem facts_eq_empty {past : List State} {state : State} (reaches : Reaches setting entry past state)
    (untracked : setting.granularity.tracksInstantiation = false) : state.facts = ∅ :=
  SortedSet.ext_mem fun fact =>
    ⟨fun member => absurd member ((reaches.coherent.untracked untracked).1 fact),
      fun member => absurd member (SortedSet.not_mem_empty fact)⟩

end Construction

/-- **A graph that is built is the least closed solution**: its reachable methods, its edges and the
facts that its construction ends with. -/
theorem buildGraph_isLeast {program : Program} {granularity : Granularity} {entry : MethodId}
    {output : BuildOutput} (built : buildGraph program granularity entry = .ok output) :
    ∃ hierarchy run, Hierarchy.of? program = some hierarchy ∧
      constructGraph program granularity entry = .ok run ∧ run.state.graph = output.graph ∧
      IsLeast { solution | Construction.Closed ⟨hierarchy, granularity⟩ entry solution }
        run.state.solution ∧
      (granularity.tracksInstantiation = false → run.state.facts = ∅) := by
  obtain ⟨run, constructed, finished, rfl⟩ := buildGraph_eq_ok.mp built
  obtain ⟨hierarchy, found, rfl⟩ := constructGraph_eq_ok.mp constructed
  obtain ⟨past, reaches, idle⟩ := reaches_of_finished finished
  exact ⟨hierarchy, _, found, constructed, rfl, Construction.isLeast_of_idle reaches idle,
    Construction.facts_eq_empty reaches⟩

/-- Among the shapes only the squares are reached. -/
theorem buildGraph_isLeast_shapes :
    ∃ output, buildGraph .shapes (Variant.xta.granularity .shapes) ⟨0⟩ = .ok output ∧
      output.graph.reachable = [⟨0⟩, ⟨2⟩] ∧
      ∃ hierarchy run, Hierarchy.of? .shapes = some hierarchy ∧
        constructGraph .shapes (Variant.xta.granularity .shapes) ⟨0⟩ = .ok run ∧
        run.state.graph = output.graph ∧
        IsLeast { solution |
          Construction.Closed ⟨hierarchy, Variant.xta.granularity .shapes⟩ ⟨0⟩ solution }
            run.state.solution := by
  obtain ⟨output, built, reachable⟩ :
      ∃ output, buildGraph .shapes (Variant.xta.granularity .shapes) ⟨0⟩ = .ok output ∧
        output.graph.reachable = [⟨0⟩, ⟨2⟩] := ⟨_, rfl, rfl⟩
  obtain ⟨hierarchy, run, found, constructed, same, least, _⟩ := buildGraph_isLeast built
  exact ⟨output, built, reachable, hierarchy, run, found, constructed, same, least⟩

end CallFlow
