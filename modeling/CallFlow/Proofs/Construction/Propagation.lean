/-
**The facts between two draws.**

Facts are propagated in a loop that draws the consequences of the oldest queued fact until none is queued.
While it runs, calls are linked that had been parked, and before it runs, stores and loads are noted, so a
fact that was drawn long ago gets new ways to flow. What flows along a new way is added together with it.
So at the head of the loop only queued facts lack consequences, and whenever the loop ends there are none
that do.

* `Construction.Propagated`: all consequences of a fact are there, and no call waits for it.
* `Construction.Propagating`, `Construction.Reaches.propagating`: what holds at the head of the loop.
* `Construction.Drains`, `Construction.Reaches.exists_drains`: the loop, and that it ends.
* `Construction.FlowClosed`, `Construction.reseed`: the rules, as a property and as an attempt to apply
  them all again.
* `propagation_invariant`: both, for every state of every construction.
-/

import CallFlow.Proofs.Construction.Termination

namespace CallFlow

namespace Construction

variable {setting : Setting} {entry : MethodId} {past : List State} {state : State}

/-! ### The head of the loop -/

/-- All consequences of a class in a scope are there: in the callees and the callers of the methods that
report to the scope, in the fields stored to from it and in the methods that load from it. No call waits
for the class there. -/
structure Propagated (setting : Setting) (state : State) (scope : Scope) (id : ClassId) : Prop where
  passed : ∀ method ∈ state.enrolledIn setting.granularity scope,
    ∀ callee ∈ state.graph.calleesOf method, setting.acceptsArgument callee id = true →
      (setting.scopeOf callee, id) ∈ state.facts
  returned : ∀ method ∈ state.enrolledIn setting.granularity scope,
    setting.returns method id = true → ∀ site ∈ state.graph.callersOf method,
      (setting.scopeOf site.method, id) ∈ state.facts
  stored : ∀ field ∈ state.storedFrom scope, setting.fieldAccepts field id = true →
    (setting.fieldScope field, id) ∈ state.facts
  loaded : ∀ loader ∈ state.loadersOf scope, (loader, id) ∈ state.facts
  unparked : state.parked.waiting id scope = []

/-- **What holds between two draws.** -/
structure Propagating (setting : Setting) (state : State) : Prop where
  propagated : ∀ scope id, (scope, id) ∈ state.facts → (scope, id) ∉ state.events →
    Propagated setting state scope id
  queued : ∀ fact ∈ state.events, fact ∈ state.facts
  once : state.events.Nodup
  enrolled : ∀ edge ∈ state.graph.edges,
    edge.caller ∈ state.enrolledIn setting.granularity (setting.scopeOf edge.caller) ∧
      edge.callee ∈ state.enrolledIn setting.granularity (setting.scopeOf edge.callee)

/-- A fact that is drawn and for which no call waits is propagated. -/
theorem Drawn.propagated {scope : Scope} {id : ClassId} (drawn : Drawn setting state (scope, id))
    (unparked : ∀ parked ∈ state.parked, ¬ (parked.receiver = id ∧ parked.scope = scope)) :
    Propagated setting state scope id where
  passed method enrolled callee called accepts := by
    obtain ⟨_, rfl⟩ := state.mem_enrolledIn.mp enrolled
    obtain ⟨edge, linked, rfl, rfl⟩ := state.graph.mem_calleesOf.mp called
    exact drawn _ (.passed linked accepts)
  returned method enrolled returns site calling := by
    obtain ⟨_, rfl⟩ := state.mem_enrolledIn.mp enrolled
    obtain ⟨edge, linked, rfl, rfl⟩ := state.graph.mem_callersOf.mp calling
    exact drawn _ (.returned linked returns)
  stored field stored accepts := drawn _ (.stored (state.mem_storedFrom.mp stored) accepts)
  loaded loader loaded := drawn _ (.loaded (state.mem_loadersOf.mp loaded))
  unparked := by
    refine List.eq_nil_iff_forall_not_mem.mpr fun waiting member => ?_
    exact unparked _ (Parked.mem_waiting.mp member) ⟨rfl, rfl⟩

/-- **Every state is one between two draws.** -/
theorem Reaches.propagating (reaches : Reaches setting entry past state) :
    Propagating setting state := by
  have coherent := reaches.coherent
  refine ⟨fun scope id present drained => ?_, coherent.queued, coherent.distinct,
    fun edge linked => ?_⟩
  · refine (reaches.settled.drawn (scope, id) present drained).propagated fun parked member waits => ?_
    obtain ⟨rfl, rfl⟩ := waits
    exact drained (coherent.absent parked member present)
  · obtain ⟨caller, callee⟩ := coherent.enrolled edge linked
    exact ⟨state.mem_enrolledIn.mpr ⟨caller, rfl⟩, state.mem_enrolledIn.mpr ⟨callee, rfl⟩⟩

/-! ### The end of the loop -/

/-- The loop: the consequences of the oldest queued fact are drawn, until none is queued. -/
inductive Drains (setting : Setting) : State → State → Prop
  | drained {state : State} (drained : state.events = []) : Drains setting state state
  | draw {state final : State} {scope : Scope} {id : ClassId} {events : List (Scope × ClassId)}
      (next : state.events = (scope, id) :: events)
      (rest : Drains setting (draw setting scope id { state with events }) final) :
      Drains setting state final

/-- A draw is a step. -/
theorem step_of_queued {scope : Scope} {id : ClassId} {events : List (Scope × ClassId)}
    (next : state.events = (scope, id) :: events) :
    step setting state = some (.ok (draw setting scope id { state with events })) := by
  unfold step
  rw [next]

/-- **The loop ends**, as no more steps can be taken than the program bounds. -/
theorem Reaches.exists_drains (reaches : Reaches setting entry past state) :
    ∃ final, Drains setting state final := by
  -- The induction is on the steps that are left.
  generalize left : stepBound setting.program - past.length = steps
  induction steps generalizing past state with
  | zero =>
    cases next : state.events with
    | nil => exact ⟨state, .drained next⟩
    | cons fact events =>
      have further := (reaches.step (step_of_queued next)).bounded.steps
      rw [List.length_append, List.length_singleton] at further
      omega
  | succ steps hyp =>
    cases next : state.events with
    | nil => exact ⟨state, .drained next⟩
    | cons fact events =>
      obtain ⟨final, rest⟩ := hyp (reaches.step (step_of_queued next)) (by
        rw [List.length_append, List.length_singleton]
        omega)
      exact ⟨final, .draw next rest⟩

/-- Where the loop ends no fact is queued, and the construction comes there. -/
theorem Drains.reaches {final : State} (drains : Drains setting state final)
    (reaches : Reaches setting entry past state) :
    final.events = [] ∧ ∃ later, Reaches setting entry (past ++ later) final := by
  induction drains generalizing past with
  | drained drained => exact ⟨drained, [], by rwa [List.append_nil]⟩
  | @draw state final scope id events next rest hyp =>
    obtain ⟨drained, later, reached⟩ := hyp (reaches.step (step_of_queued next))
    refine ⟨drained, state :: later, ?_⟩
    rwa [List.append_assoc] at reached

/-! ### The rules -/

/-- The facts are closed under the flow rules, for the edges, the stores and the loads of a state. -/
structure FlowClosed (setting : Setting) (state : State) : Prop where
  passed : ∀ edge ∈ state.graph.edges, ∀ id, (setting.scopeOf edge.caller, id) ∈ state.facts →
    setting.acceptsArgument edge.callee id = true → (setting.scopeOf edge.callee, id) ∈ state.facts
  returned : ∀ edge ∈ state.graph.edges, ∀ id, (setting.scopeOf edge.callee, id) ∈ state.facts →
    setting.returns edge.callee id = true → (setting.scopeOf edge.caller, id) ∈ state.facts
  stored : ∀ scope field, (scope, field) ∈ state.stores → ∀ id, (scope, id) ∈ state.facts →
    setting.fieldAccepts field id = true → (setting.fieldScope field, id) ∈ state.facts
  loaded : ∀ source loader, (source, loader) ∈ state.loads → ∀ id, (source, id) ∈ state.facts →
    (loader, id) ∈ state.facts

/-- **When no fact is queued the facts are closed under the flow rules.** -/
theorem Propagating.flowClosed (propagating : Propagating setting state)
    (drained : state.events = []) : FlowClosed setting state := by
  have propagated (scope : Scope) (id : ClassId) (present : (scope, id) ∈ state.facts) :
      Propagated setting state scope id := by
    refine propagating.propagated scope id present ?_
    rw [drained]
    exact List.not_mem_nil
  refine ⟨?_, ?_, ?_, ?_⟩
  · intro edge linked id present accepts
    exact (propagated _ id present).passed edge.caller (propagating.enrolled edge linked).1 edge.callee
      (state.graph.mem_calleesOf.mpr ⟨edge, linked, rfl, rfl⟩) accepts
  · intro edge linked id present returns
    exact (propagated _ id present).returned edge.callee (propagating.enrolled edge linked).2 returns
      edge.site (state.graph.mem_callersOf.mpr ⟨edge, linked, rfl, rfl⟩)
  · intro scope field stored id present accepts
    exact (propagated scope id present).stored field (state.mem_storedFrom.mpr stored) accepts
  · intro source loader loaded id present
    exact (propagated source id present).loaded loader (state.mem_loadersOf.mpr loaded)

/-- What flows along the edges, through the stores and through the loads is added once more. -/
def reseed (setting : Setting) (state : State) : State :=
  let state := state.graph.edges.toList.foldl
    (fun state edge => seed setting edge.caller edge.callee state) state
  let state := state.stores.toList.foldl (fun state (scope, field) =>
    state.addFacts (setting.fieldScope field)
      ((state.facts.classesIn scope).filter (setting.fieldAccepts field))) state
  state.loads.toList.foldl (fun state (source, loader) =>
    state.addFacts loader (state.facts.classesIn source)) state

/-- Adding known facts changes nothing. -/
theorem State.addFacts_of_mem {scope : Scope} {ids : List ClassId}
    (known : ∀ id ∈ ids, (scope, id) ∈ state.facts) : state.addFacts scope ids = state := by
  unfold State.addFacts
  induction ids with
  | nil => rfl
  | cons id rest hyp =>
    rw [List.foldl_cons, state.addFact_of_mem (known id List.mem_cons_self)]
    exact hyp fun other member => known other (List.mem_cons_of_mem _ member)

/-- What no element changes, a list does not change. -/
theorem foldl_eq_self {σ β : Type} {operation : σ → β → σ} {start : σ} {list : List β}
    (same : ∀ element ∈ list, operation start element = start) :
    list.foldl operation start = start := by
  induction list with
  | nil => rfl
  | cons first rest hyp =>
    rw [List.foldl_cons, same first List.mem_cons_self]
    exact hyp fun element member => same element (List.mem_cons_of_mem _ member)

/-- **Facts that are closed under the flow rules stay the same** when all rules are applied again. -/
theorem FlowClosed.reseed (closed : FlowClosed setting state) : reseed setting state = state := by
  have edges : state.graph.edges.toList.foldl
      (fun state edge => seed setting edge.caller edge.callee state) state = state := by
    refine foldl_eq_self fun edge linked => ?_
    have passed : state.addFacts (setting.scopeOf edge.callee)
        ((state.facts.classesIn (setting.scopeOf edge.caller)).filter
          (setting.acceptsArgument edge.callee)) = state := State.addFacts_of_mem fun id member => by
      obtain ⟨present, accepts⟩ := List.mem_filter.mp member
      exact closed.passed edge linked id (Facts.mem_classesIn.mp present) accepts
    simp only [seed, passed]
    refine State.addFacts_of_mem fun id member => ?_
    obtain ⟨present, returns⟩ := List.mem_filter.mp member
    exact closed.returned edge linked id (Facts.mem_classesIn.mp present) returns
  unfold Construction.reseed
  rw [edges]
  have stores : state.stores.toList.foldl (fun state (scope, field) =>
      state.addFacts (setting.fieldScope field)
        ((state.facts.classesIn scope).filter (setting.fieldAccepts field))) state = state := by
    refine foldl_eq_self fun store stored => State.addFacts_of_mem fun id member => ?_
    obtain ⟨present, accepts⟩ := List.mem_filter.mp member
    exact closed.stored store.1 store.2 stored id (Facts.mem_classesIn.mp present) accepts
  simp only [stores]
  refine foldl_eq_self fun load loaded => State.addFacts_of_mem fun id member => ?_
  exact closed.loaded load.1 load.2 loaded id (Facts.mem_classesIn.mp member)

end Construction

/-- **The invariant of propagation.** In every state that a construction comes to, every queued fact is
there and is queued once, both ends of every edge are enrolled in their scopes, and each fact that is not
queued has all its consequences and no call that waits for it. From every such state the loop of draws
ends, and where it ends the facts are closed under the flow rules for the edges, stores and loads there
are then: applying all rules again changes nothing. -/
theorem propagation_invariant {setting : Construction.Setting} {entry : MethodId}
    {past : List Construction.State} {state : Construction.State}
    (reaches : Construction.Reaches setting entry past state) :
    Construction.Propagating setting state ∧
    (∃ final, Construction.Drains setting state final) ∧
    ∀ final, Construction.Drains setting state final →
      final.events = [] ∧ (∃ later, Construction.Reaches setting entry (past ++ later) final) ∧
      Construction.FlowClosed setting final ∧ Construction.reseed setting final = final := by
  refine ⟨reaches.propagating, reaches.exists_drains, fun final drains => ?_⟩
  obtain ⟨drained, later, reached⟩ := drains.reaches reaches
  have closed := reached.propagating.flowClosed drained
  exact ⟨drained, ⟨later, reached⟩, closed, closed.reseed⟩

/-- When the call of the shapes is linked, the squares wait to be drawn where they are received, and have
been drawn where they are made. -/
theorem propagation_invariant_shapes :
    ∃ (setting : Construction.Setting) (past : List Construction.State) (state : Construction.State),
      setting.program = .shapes ∧ Construction.Reaches setting ⟨0⟩ past state ∧
      state.events = [(.method ⟨2⟩, ⟨2⟩)] ∧
      Construction.Propagated setting state (.method ⟨0⟩) ⟨2⟩ ∧
      ∃ final, Construction.Drains setting state final ∧
        Construction.reseed setting final = final := by
  obtain ⟨setting, isShapes, queued, present⟩ : ∃ setting : Construction.Setting,
      setting.program = .shapes ∧
        (Construction.run setting 3 (.initial ⟨0⟩)).state.events = [(.method ⟨2⟩, ⟨2⟩)] ∧
        (.method ⟨0⟩, ⟨2⟩) ∈ (Construction.run setting 3 (.initial ⟨0⟩)).state.facts :=
    ⟨⟨⟨.shapes, by decide, _, rfl⟩, Variant.xta.granularity .shapes⟩, rfl, by decide +kernel,
      by decide +kernel⟩
  have start : Construction.Reaches setting ⟨0⟩ [] (.initial ⟨0⟩) := .initial
  obtain ⟨past, reaches, _⟩ := Construction.run_reaches 3 start
  obtain ⟨propagating, ⟨final, drains⟩, closed⟩ := propagation_invariant reaches
  obtain ⟨_, _, _, again⟩ := closed final drains
  refine ⟨setting, _, _, isShapes, reaches, queued, ?_, final, drains, again⟩
  exact propagating.propagated _ _ present (by rw [queued]; decide)

end CallFlow
