/-
**How a graph grows.**

A method is queued with an edge to it, and an edge starts at a call site of a reachable method. So a
method that becomes reachable, unless it is the entry, has been called by one that became reachable
before, no matter whether the edge was added right away or for a call that had been parked.

* `Construction.Called`, `Construction.Ordered`: the order of discovery.
* `Hierarchy.MayCall`: the methods that a call statement may run.
* `Construction.Reaches.ordered`, `Construction.Reaches.justified`, `Construction.Reaches.laidOut`:
  the invariants, for the methods, the edges and the call sites.
* `Construction.Reaches.layout_eq`: call sites are resolved in the order of discovery.
* `buildGraph_shape`: the shape of every graph that is built.
-/

import CallFlow.Proofs.Construction.Bound
import CallFlow.Proofs.Hierarchy.Defaults

namespace CallFlow

/-! ### What a call statement may run -/

/-- A call statement may run a method: the declaration that it names, or the method that runs on an
object of some concrete subtype of the class that it names. -/
inductive Hierarchy.MayCall (hierarchy : Hierarchy) (call : Call) (callee : MethodId) : Prop
  | declared (direct : call.kind = .static ∨ call.kind = .special)
      (resolved : hierarchy.resolve call.target = .ok (some callee))
  | dispatched {receiver : ClassId} (virtual : call.kind = .virtual ∨ call.kind = .interface)
      (concrete : hierarchy.program.isConcrete receiver = true)
      (below : Program.Below hierarchy.program receiver call.target.owner)
      (dispatched : hierarchy.dispatch receiver call.target.member = .ok (some callee))

theorem CallKind.isVirtual_iff {kind : CallKind} :
    kind.isVirtual = true ↔ kind = .virtual ∨ kind = .interface := by
  cases kind <;> simp [isVirtual]

/-- The shape of a graph that has been built from an entry. -/
structure CallGraph.Shape (hierarchy : Hierarchy) (entry : MethodId) (graph : CallGraph) : Prop where
  entryFirst : graph.reachable.head? = some entry
  distinct : graph.reachable.Nodup
  /-- Every later method is called by one that stands before it. -/
  calledBefore : ∀ earlier method later, graph.reachable = earlier ++ method :: later →
    earlier ≠ [] → ∃ edge ∈ graph.edges, edge.callee = method ∧ edge.caller ∈ earlier
  callers : ∀ edge ∈ graph.edges, edge.caller ∈ graph.reachable
  callees : ∀ edge ∈ graph.edges, edge.callee ∈ graph.reachable ∧
    hierarchy.program.isAbstract edge.callee = false
  /-- An edge starts at a call statement, has its kind, and leads to a method that it may run. -/
  statements : ∀ edge ∈ graph.edges, ∃ call,
    hierarchy.program.statement? edge.site = some (.invoke call) ∧ edge.kind = call.kind ∧
      hierarchy.MayCall call edge.callee
  kinds : ∀ edge ∈ graph.edges, edge.kind ≠ .dynamic ∧ edge.kind ≠ .other
  /-- The call sites of a reachable method are its call statements, in the order of the body. -/
  ascending : ∀ method, (graph.callSitesIn method).Pairwise fun first second =>
    first.index < second.index
  callSites : ∀ method ∈ graph.reachable, ∀ site, site ∈ graph.callSitesIn method ↔
    site.method = method ∧ ∃ call, hierarchy.program.statement? site = some (.invoke call)
  noCallSites : ∀ method, method ∉ graph.reachable → graph.callSitesIn method = []

namespace Construction

variable {setting : Setting} {entry : MethodId} {past : List State} {state : State}

/-! ### Edges -/

/-- A selected method may be run by the call, and is not abstract. -/
theorem Selects.mayCall {facts : Facts} {site : Site} {call : Call} {receiver : Option ClassId}
    {callee : MethodId} (selected : Selects setting facts site call receiver callee) :
    setting.hierarchy.MayCall call callee ∧ setting.program.isAbstract callee = false := by
  have received {id : ClassId} (virtual : call.kind.isVirtual = true)
      (receives : setting.Receives call.target id callee) :
      setting.hierarchy.MayCall call callee ∧ setting.program.isAbstract callee = false := by
    obtain ⟨subtype, dispatched⟩ := receives
    obtain ⟨concrete, below⟩ := Hierarchy.mem_concreteSubtypes.mp subtype
    exact ⟨.dispatched (CallKind.isVirtual_iff.mp virtual) concrete below dispatched,
      (Hierarchy.exists_declared_of_dispatch dispatched).1⟩
  cases selected with
  | declared direct resolved concrete => exact ⟨.declared direct resolved, concrete⟩
  | dispatched virtual untracked receives => exact received virtual receives
  | received virtual tracked present receives => exact received virtual receives

/-- Why an edge is there: its call statement stands in a reachable method and may run its callee. -/
structure Justified (setting : Setting) (state : State) (edge : Edge) : Prop where
  reachable : edge.caller ∈ state.graph.reachable
  concrete : setting.program.isAbstract edge.callee = false
  statement : ∃ call, setting.program.call? edge.site = some call ∧ edge.kind = call.kind ∧
    setting.hierarchy.MayCall call edge.callee

/-- Taking something off a queue makes no method unreachable. -/
theorem Takes.reachable {before after : State} (takes : Takes setting before after)
    {method : MethodId} (reachable : method ∈ before.graph.reachable) :
    method ∈ after.graph.reachable := by
  cases takes with
  | event next => exact reachable
  | site drained next => exact reachable
  | known drained idle next known => exact reachable
  | discovered drained idle next fresh inRange =>
    exact (mem_reachable_discover fresh).mpr (.inl reachable)

/-- **Every edge is justified.** -/
theorem Reaches.justified (reaches : Reaches setting entry past state) :
    ∀ edge ∈ state.graph.edges, Justified setting state edge := by
  refine reaches.preserve (fun state => ∀ edge ∈ state.graph.edges, Justified setting state edge)
    (fun edge member => absurd member (SortedSet.not_mem_empty edge)) ?_ ?_
  · intro before after _ justified takes edge member
    obtain ⟨reachable, concrete, statement⟩ := justified edge (takes.edges ▸ member)
    exact ⟨takes.reachable reachable, concrete, statement⟩
  · intro before after justified change edge member
    have grown := change.extends
    rcases change.mem_edges member with old | ⟨⟨call, receiver, kind, linkable⟩, _⟩
    · obtain ⟨reachable, concrete, statement⟩ := justified edge old
      exact ⟨grown.reachable reachable, concrete, statement⟩
    · obtain ⟨mayCall, concrete⟩ := linkable.selected.mayCall
      exact ⟨grown.reachable linkable.reachable, concrete, call, linkable.isCall, kind, mayCall⟩

/-! ### The order of discovery -/

/-- A method is called by one of a list of methods. -/
def Called (graph : CallGraph) (callers : List MethodId) (method : MethodId) : Prop :=
  ∃ edge ∈ graph.edges, edge.callee = method ∧ edge.caller ∈ callers

/-- The first reachable method is the entry, and the others and those that are queued are called by
methods that were reachable before them. -/
structure Ordered (entry : MethodId) (state : State) : Prop where
  queued : ∀ method ∈ state.methods, method = entry ∨ Called state.graph state.graph.reachable method
  found : ∀ earlier method later, state.graph.reachable = earlier ++ method :: later →
    method = entry ∧ earlier = [] ∨ Called state.graph earlier method

/-- As soon as a method is reachable the entry is. -/
theorem Ordered.entry_mem (ordered : Ordered entry state) {method : MethodId}
    (reachable : method ∈ state.graph.reachable) : state.graph.reachable.head? = some entry := by
  cases list : state.graph.reachable with
  | nil => rw [list] at reachable; cases reachable
  | cons first rest =>
    rcases ordered.found [] first rest list with ⟨rfl, _⟩ | ⟨edge, _, _, caller⟩
    · rfl
    · cases caller

theorem Change.called {before after : State} (change : Change setting before after)
    {callers : List MethodId} {method : MethodId} (called : Called before.graph callers method) :
    Called after.graph callers method := by
  obtain ⟨edge, linked, callee, caller⟩ := called
  exact ⟨edge, change.extends.edges edge linked, callee, caller⟩

/-- A change queues a method with an edge to it only. -/
theorem Change.mem_methods {before after : State} (change : Change setting before after)
    {method : MethodId} (queued : method ∈ after.methods) :
    method ∈ before.methods ∨ Called after.graph after.graph.reachable method := by
  cases change with
  | @fact scope id tracked fresh cause =>
    rw [before.addFact_of_fresh fresh] at queued
    exact .inl queued
  | @edge site call receiver callee linkable fresh recorded =>
    rcases List.mem_append.mp queued with old | new
    · exact .inl old
    · split at new
      · cases new
      · rw [List.mem_singleton.mp new]
        exact .inr ⟨_, SortedSet.mem_insert.mpr (.inl rfl), rfl, linkable.reachable⟩
  | linked linkable virtual => exact .inl queued
  | asked answer => exact .inl queued
  | parked tracked waits absent fresh => exact .inl queued
  | stored reachable stands holds => exact .inl queued
  | loaded reachable stands holds => exact .inl queued
  | remarked diagnostic remark => exact .inl queued

/-- A change does not disturb the order. -/
theorem Change.ordered {before after : State} (ordered : Ordered entry before)
    (change : Change setting before after) : Ordered entry after := by
  refine ⟨fun method queued => ?_, fun earlier method later split => ?_⟩
  · rcases change.mem_methods queued with old | called
    · refine (ordered.queued method old).imp_right fun called => ?_
      rw [change.extends.reachable_eq]
      exact change.called called
    · exact .inr called
  · rw [change.extends.reachable_eq] at split
    exact (ordered.found earlier method later split).imp_right change.called

/-- Where a list with one more element is split, that element comes last or stands alone. -/
theorem split_concat {α : Type} {list earlier later : List α} {last value : α}
    (split : list ++ [last] = earlier ++ value :: later) :
    list = earlier ∧ last = value ∨ ∃ rest, list = earlier ++ value :: rest := by
  rcases List.eq_nil_or_concat later with rfl | ⟨rest, final, rfl⟩
  · obtain ⟨same, single⟩ := List.append_inj' split rfl
    exact .inl ⟨same, List.singleton_inj.mp single⟩
  · have regrouped : list ++ [last] = (earlier ++ value :: rest) ++ [final] := by simpa using split
    exact .inr ⟨rest, (List.append_inj' regrouped rfl).1⟩

/-- A method that is taken off its queue may become the last reachable one. -/
theorem Takes.ordered {before after : State} (ordered : Ordered entry before)
    (takes : Takes setting before after) : Ordered entry after := by
  cases takes with
  | event next => exact ⟨ordered.queued, ordered.found⟩
  | site drained next => exact ⟨ordered.queued, ordered.found⟩
  | known drained idle next known =>
    exact ⟨fun method queued => ordered.queued method (next ▸ List.mem_cons_of_mem _ queued),
      ordered.found⟩
  | @discovered last methods drained idle next fresh inRange =>
    have edges : (State.discover setting last { before with methods }).graph.edges =
        before.graph.edges := Takes.edges (.discovered drained idle next fresh inRange)
    have reachable : (State.discover setting last { before with methods }).graph.reachable =
        before.graph.reachable ++ [last] := by
      show (before.graph.discover _ _).reachable = _
      rw [before.graph.discover_of_fresh _ fresh]
      simp [CallGraph.reachable]
    have kept {callers : List MethodId} {method : MethodId}
        (called : Called before.graph callers method) :
        Called (State.discover setting last { before with methods }).graph callers method := by
      obtain ⟨edge, linked, callee, caller⟩ := called
      exact ⟨edge, edges ▸ linked, callee, caller⟩
    refine ⟨fun method queued => ?_, fun earlier method later split => ?_⟩
    · rw [reachable]
      refine (ordered.queued method (next ▸ List.mem_cons_of_mem _ queued)).imp_right fun called => ?_
      obtain ⟨edge, linked, callee, caller⟩ := kept called
      exact ⟨edge, linked, callee, List.mem_append_left [last] caller⟩
    · rw [reachable] at split
      rcases split_concat split with ⟨rfl, rfl⟩ | ⟨rest, before⟩
      · rcases ordered.queued last (next ▸ List.mem_cons_self) with rfl | called
        · -- The entry is first, so it is fresh only if nothing was reachable.
          refine .inl ⟨rfl, List.eq_nil_iff_forall_not_mem.mpr fun other member => fresh ?_⟩
          exact List.mem_of_head? (ordered.entry_mem member)
        · exact .inr (kept called)
      · exact (ordered.found earlier method rest before).imp_right kept

/-- **Methods become reachable after one that calls them.** -/
theorem Reaches.ordered (reaches : Reaches setting entry past state) : Ordered entry state := by
  refine reaches.preserve (Ordered entry) ⟨fun method queued => ?_, fun earlier method later split => ?_⟩
    (fun _ ordered takes => takes.ordered ordered) fun ordered change => change.ordered ordered
  · exact .inl (List.mem_singleton.mp queued)
  · have empty : earlier ++ method :: later = [] := split.symm
    simp at empty

/-! ### Call sites -/

/-- **The call sites of reachable methods are those of the program.** -/
theorem Reaches.laidOut (reaches : Reaches setting entry past state) :
    ∀ found ∈ state.graph.discovered, found.2 = setting.program.callSites found.1 := by
  refine reaches.preserve (fun state => ∀ found ∈ state.graph.discovered,
    found.2 = setting.program.callSites found.1) nofun ?_ ?_
  · intro before after _ laidOut takes
    cases takes with
    | event next => exact laidOut
    | site drained next => exact laidOut
    | known drained idle next known => exact laidOut
    | @discovered method methods drained idle next fresh inRange =>
      show ∀ found ∈ (before.graph.discover _ _).discovered, _
      rw [before.graph.discover_of_fresh _ fresh]
      intro found member
      rcases List.mem_append.mp member with old | new
      · exact laidOut found old
      · rw [List.mem_singleton.mp new]
  · intro before after laidOut change
    rw [change.extends.discovered]
    exact laidOut

/-- The call site that the next step resolves. -/
def State.resolved? (state : State) : Option Site :=
  match state.events, state.sites with
  | [], site :: _ => some site
  | _, _ => none

theorem State.resolved?_eq_some {site : Site} : state.resolved? = some site ↔
    ∃ sites, state.events = [] ∧ state.sites = site :: sites := by
  unfold State.resolved?
  split
  · next first sites drained waiting => simp [drained, waiting]
  · next other => 
    refine ⟨nofun, ?_⟩
    rintro ⟨sites, drained, waiting⟩
    exact (other _ _ drained waiting).elim

/-- The call sites resolved. -/
def resolved (past : List State) : List Site := past.filterMap State.resolved?

/-- A step lays out call sites at the end, and the one that it resolves, if any, is the next one. -/
theorem step_layout {next : State} (coherent : Coherent setting state)
    (stepped : step setting state = some (.ok next)) :
    ∃ found, next.layout setting = state.layout setting ++ found ∧
      state.sites ++ found = state.resolved?.toList ++ next.sites := by
  obtain ⟨taken, takes, changes⟩ := step_changes coherent stepped
  have grown : Extends taken next := Changes.extends changes
  rw [grown.layout, grown.sites]
  unfold State.resolved?
  cases takes with
  | event waiting =>
    refine ⟨[], (List.append_nil _).symm, ?_⟩
    rw [waiting]
    exact List.append_nil _
  | site drained waiting =>
    refine ⟨[], (List.append_nil _).symm, ?_⟩
    rw [drained, waiting]
    exact List.append_nil _
  | known drained idle waiting known =>
    refine ⟨[], (List.append_nil _).symm, ?_⟩
    rw [drained, idle]
    rfl
  | @discovered method methods drained idle waiting fresh inRange =>
    have layout : (State.discover setting method { state with methods }).layout setting =
        state.layout setting ++ setting.program.callSites method := layout_discover fresh
    refine ⟨setting.program.callSites method, layout, ?_⟩
    rw [drained, idle]
    rfl

/-- **The call sites of the reachable methods are resolved in the order of their discovery.** -/
theorem Reaches.layout_eq (reaches : Reaches setting entry past state) :
    state.layout setting = resolved past ++ state.sites := by
  induction reaches with
  | initial => rfl
  | step reaches stepped hyp =>
    obtain ⟨found, layout, moved⟩ := step_layout reaches.coherent stepped
    unfold resolved at hyp ⊢
    rw [layout, hyp, List.append_assoc, moved, filterMap_concat, List.append_assoc]

/-- Looking up a key where every key stands with its value. -/
theorem lookup_of_forall {α β : Type} [DecidableEq α] {pairs : List (α × β)} {value : α → β}
    (each : ∀ pair ∈ pairs, pair.2 = value pair.1) (key : α) :
    pairs.lookup key = if key ∈ pairs.map Prod.fst then some (value key) else none := by
  induction pairs with
  | nil => rfl
  | cons first rest hyp =>
    obtain ⟨other, stored⟩ := first
    have own : stored = value other := each (other, stored) List.mem_cons_self
    have others := hyp fun pair member => each pair (List.mem_cons_of_mem _ member)
    by_cases same : key = other
    · subst same
      simp [own]
    · rw [lookup_cons_of_ne same, others]
      simp only [List.map_cons, List.mem_cons, same, false_or]

/-- The call sites of a reachable method; other methods have none. -/
theorem Reaches.callSitesIn_eq (reaches : Reaches setting entry past state) (method : MethodId) :
    state.graph.callSitesIn method =
      if method ∈ state.graph.reachable then setting.program.callSites method else [] := by
  unfold CallGraph.callSitesIn
  rw [lookup_of_forall reaches.laidOut]
  show Option.getD (if method ∈ state.graph.reachable then _ else _) [] = _
  split <;> rfl

end Construction

/-- **The shape of a graph that is built**: the entry is first and every other reachable method has a
caller before it; an edge starts at a call statement of a reachable method, has its kind and leads to
a reachable method that is not abstract and that the call may run; and the call sites of the
reachable methods, and of no others, are listed in the order of their bodies. -/
theorem buildGraph_shape {program : Program} {granularity : Granularity} {entry : MethodId}
    {output : BuildOutput} (built : buildGraph program granularity entry = .ok output) :
    ∃ hierarchy, Hierarchy.of? program = some hierarchy ∧ output.graph.Shape hierarchy entry := by
  obtain ⟨run, constructed, finished, rfl⟩ := buildGraph_eq_ok.mp built
  obtain ⟨hierarchy, found, rfl⟩ := constructGraph_eq_ok.mp constructed
  obtain ⟨past, reaches, idle⟩ := reaches_of_finished finished
  have closed := Construction.closed_of_idle reaches idle
  have ordered := reaches.ordered
  have justified := reaches.justified
  refine ⟨hierarchy, found, ordered.entry_mem closed.entry, reaches.nodup_reachable, ?_, ?_, ?_, ?_,
    ?_, ?_, ?_, ?_⟩
  · intro earlier method later split some
    rcases ordered.found earlier method later split with ⟨_, none⟩ | called
    · exact absurd none some
    · exact called
  · exact fun edge linked => (justified edge linked).reachable
  · exact fun edge linked => ⟨closed.callee edge linked, (justified edge linked).concrete⟩
  · intro edge linked
    obtain ⟨call, isCall, kind, mayCall⟩ := (justified edge linked).statement
    exact ⟨call, Program.call?_eq_some.mp isCall, kind, mayCall⟩
  · intro edge linked
    obtain ⟨call, _, kind, mayCall⟩ := (justified edge linked).statement
    rw [kind]
    cases mayCall with
    | declared direct _ => rcases direct with same | same <;> rw [same] <;> decide
    | dispatched virtual _ _ _ => rcases virtual with same | same <;> rw [same] <;> decide
  · intro method
    rw [reaches.callSitesIn_eq]
    split
    · exact hierarchy.program.pairwise_callSites method
    · exact .nil
  · intro method reachable site
    rw [reaches.callSitesIn_eq, if_pos reachable]
    simp only [← Program.call?_eq_some]
    exact hierarchy.program.mem_callSites
  · intro method unreachable
    rw [reaches.callSitesIn_eq, if_neg unreachable]

/-- The area of the squares is called from the main method. -/
theorem buildGraph_shape_shapes :
    ∃ output, buildGraph .shapes (Variant.xta.granularity .shapes) ⟨0⟩ = .ok output ∧
      output.graph.reachable = [⟨0⟩, ⟨2⟩] ∧
      ∃ edge ∈ output.graph.edges, edge.callee = ⟨2⟩ ∧ edge.caller ∈ [(⟨0⟩ : MethodId)] := by
  obtain ⟨output, built, reachable⟩ :
      ∃ output, buildGraph .shapes (Variant.xta.granularity .shapes) ⟨0⟩ = .ok output ∧
        output.graph.reachable = [⟨0⟩, ⟨2⟩] := ⟨_, rfl, rfl⟩
  obtain ⟨hierarchy, _, shape⟩ := buildGraph_shape built
  exact ⟨output, built, reachable, shape.calledBefore [⟨0⟩] ⟨2⟩ [] reachable (by decide)⟩

end CallFlow
