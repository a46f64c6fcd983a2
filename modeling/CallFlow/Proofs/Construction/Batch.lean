/-
**Facts added together.**

Where a step adds facts only, it adds a list of facts that can be read off the state beforehand: the
additions change neither the graph nor the stores and loads that the list comes from.

* `State.mem_addAll`: adding a list of facts adds exactly these.
* `Construction.draw_eq`: drawing the consequences of a fact is replaying the calls that waited for
  it and then adding one list of facts, `Setting.consequences`.
* `Construction.mem_consequences_of_follows`: that list has all that follows from the fact.
-/

import CallFlow.Proofs.Construction.Change

namespace CallFlow.Construction

namespace State

/-- Adds the facts of a list. -/
def addAll (state : State) (facts : List (Scope × ClassId)) : State :=
  facts.foldl (fun state fact => state.addFact fact.1 fact.2) state

variable (state : State) (facts : List (Scope × ClassId))

/-- Adding a fact for each element of a list is adding the list of these facts. -/
theorem foldl_addFact_eq {β : Type} (fact : β → Scope × ClassId) (list : List β) :
    list.foldl (fun state element => state.addFact (fact element).1 (fact element).2) state =
      state.addAll (list.map fact) := by
  rw [addAll, List.foldl_map]

theorem addFacts_eq (scope : Scope) (ids : List ClassId) :
    state.addFacts scope ids = state.addAll (ids.map fun id => (scope, id)) :=
  state.foldl_addFact_eq (fun id => (scope, id)) ids

theorem addAll_append (more : List (Scope × ClassId)) :
    state.addAll (facts ++ more) = (state.addAll facts).addAll more := by
  unfold addAll
  exact List.foldl_append

/-- Adding facts leaves everything but the facts, their queue and their count. -/
theorem addAll_frame : ∃ known events count, state.addAll facts =
    { state with facts := known, events, counters := { state.counters with events := count } } := by
  induction facts generalizing state with
  | nil => exact ⟨_, _, _, rfl⟩
  | cons fact rest hyp =>
    obtain ⟨known, events, count, same⟩ := hyp (state.addFact fact.1 fact.2)
    refine ⟨known, events, count, ?_⟩
    show (state.addFact fact.1 fact.2).addAll rest = _
    rw [same]
    unfold addFact
    split <;> rfl

@[simp] theorem addAll_graph : (state.addAll facts).graph = state.graph := by
  obtain ⟨_, _, _, same⟩ := state.addAll_frame facts
  rw [same]

@[simp] theorem addAll_stores : (state.addAll facts).stores = state.stores := by
  obtain ⟨_, _, _, same⟩ := state.addAll_frame facts
  rw [same]

@[simp] theorem addAll_loads : (state.addAll facts).loads = state.loads := by
  obtain ⟨_, _, _, same⟩ := state.addAll_frame facts
  rw [same]

@[simp] theorem addAll_replayedCalls :
    (state.addAll facts).counters.replayedCalls = state.counters.replayedCalls := by
  obtain ⟨_, _, _, same⟩ := state.addAll_frame facts
  rw [same]

variable {state facts}

theorem mem_addFact {scope : Scope} {id : ClassId} {fact : Scope × ClassId} :
    fact ∈ (state.addFact scope id).facts ↔ fact = (scope, id) ∨ fact ∈ state.facts := by
  by_cases present : (scope, id) ∈ state.facts
  · rw [state.addFact_of_mem present]
    constructor
    · exact Or.inr
    · rintro (rfl | old)
      · exact present
      · exact old
  · rw [state.addFact_of_fresh present]
    exact Facts.mem_add

/-- **Adding a list of facts adds exactly these.** -/
theorem mem_addAll {fact : Scope × ClassId} :
    fact ∈ (state.addAll facts).facts ↔ fact ∈ state.facts ∨ fact ∈ facts := by
  induction facts generalizing state with
  | nil => simp [addAll]
  | cons first rest hyp =>
    show fact ∈ ((state.addFact first.1 first.2).addAll rest).facts ↔ _
    rw [hyp, mem_addFact, List.mem_cons, or_assoc, or_left_comm]

end State

variable (setting : Setting)

/-! ### What flows along edges -/

/-- The facts that follow from a class at the edges of a method. -/
def Setting.flowsAt (graph : CallGraph) (id : ClassId) (method : MethodId) :
    List (Scope × ClassId) :=
  ((graph.calleesOf method).filter fun callee => setting.acceptsArgument callee id).map
      (fun callee => (setting.scopeOf callee, id)) ++
    if setting.returns method id then
      (graph.callersOf method).map fun site => (setting.scopeOf site.method, id)
    else []

theorem mem_flowsAt {graph : CallGraph} {id : ClassId} {method : MethodId}
    {fact : Scope × ClassId} : fact ∈ setting.flowsAt graph id method ↔
      (∃ edge ∈ graph.edges, edge.caller = method ∧ setting.acceptsArgument edge.callee id = true ∧
        fact = (setting.scopeOf edge.callee, id)) ∨
      (∃ edge ∈ graph.edges, edge.callee = method ∧ setting.returns edge.callee id = true ∧
        fact = (setting.scopeOf edge.caller, id)) := by
  unfold Setting.flowsAt
  rw [List.mem_append, List.mem_map]
  refine or_congr ?_ ?_
  · constructor
    · rintro ⟨callee, member, rfl⟩
      obtain ⟨called, accepts⟩ := List.mem_filter.mp member
      obtain ⟨edge, linked, rfl, rfl⟩ := graph.mem_calleesOf.mp called
      exact ⟨edge, linked, rfl, accepts, rfl⟩
    · rintro ⟨edge, linked, rfl, accepts, rfl⟩
      exact ⟨edge.callee,
        List.mem_filter.mpr ⟨graph.mem_calleesOf.mpr ⟨edge, linked, rfl, rfl⟩, accepts⟩, rfl⟩
  · constructor
    · intro member
      split at member
      · next returns =>
        obtain ⟨site, calling, rfl⟩ := List.mem_map.mp member
        obtain ⟨edge, linked, rfl, rfl⟩ := graph.mem_callersOf.mp calling
        exact ⟨edge, linked, rfl, returns, rfl⟩
      · exact absurd member List.not_mem_nil
    · rintro ⟨edge, linked, rfl, returns, rfl⟩
      rw [if_pos returns]
      exact List.mem_map.mpr ⟨edge.site, graph.mem_callersOf.mpr ⟨edge, linked, rfl, rfl⟩, rfl⟩

theorem passOn_eq (id : ClassId) (state : State) (method : MethodId) :
    passOn setting id state method = state.addAll (setting.flowsAt state.graph id method) := by
  unfold passOn Setting.flowsAt
  rw [State.addAll_append]
  simp only [state.foldl_addFact_eq fun callee => (setting.scopeOf callee, id)]
  split
  · rw [State.addAll_graph]
    exact State.foldl_addFact_eq _ (fun site : Site => (setting.scopeOf site.method, id)) _
  · rfl

/-- Passing a class on at several methods is adding what flows at all of them. -/
theorem foldl_passOn_eq (id : ClassId) (state : State) (methods : List MethodId) :
    methods.foldl (passOn setting id) state =
      state.addAll (methods.flatMap (setting.flowsAt state.graph id)) := by
  induction methods generalizing state with
  | nil => rfl
  | cons method rest hyp =>
    rw [List.foldl_cons, List.flatMap_cons, hyp, State.addAll_append, passOn_eq,
      State.addAll_graph]

/-- What flows along a new edge is added in two lists: arguments, then results. -/
theorem seed_eq (caller callee : MethodId) (state : State) :
    seed setting caller callee state =
      let passed := state.addAll (((state.facts.classesIn (setting.scopeOf caller)).filter
        (setting.acceptsArgument callee)).map fun id => (setting.scopeOf callee, id))
      passed.addAll (((passed.facts.classesIn (setting.scopeOf callee)).filter
        (setting.returns callee)).map fun id => (setting.scopeOf caller, id)) := by
  unfold seed
  simp only [State.addFacts_eq]

/-! ### Stores and loads -/

theorem addStore_eq (scope : Scope) (field : FieldId) (state : State) :
    addStore setting scope field state =
      if !setting.holdsObjects field || (scope, field) ∈ state.stores then state
      else (state.noteStore scope field).addAll
        (((state.facts.classesIn scope).filter (setting.fieldAccepts field)).map fun id =>
          (setting.fieldScope field, id)) := by
  unfold addStore
  simp only [State.addFacts_eq]
  rfl

theorem addLoad_eq (scope : Scope) (field : FieldId) (state : State) :
    addLoad setting scope field state =
      if !setting.holdsObjects field || (setting.fieldScope field, scope) ∈ state.loads then state
      else (state.noteLoad (setting.fieldScope field) scope).addAll
        ((state.facts.classesIn (setting.fieldScope field)).map fun id => (scope, id)) := by
  unfold addLoad
  simp only [State.addFacts_eq]
  rfl

/-! ### The consequences of a fact -/

/-- The facts that follow from a class in a scope by the edges, stores and loads of a state. -/
def Setting.consequences (state : State) (scope : Scope) (id : ClassId) : List (Scope × ClassId) :=
  (state.enrolledIn setting.granularity scope).flatMap (setting.flowsAt state.graph id) ++
    (((state.storedFrom scope).filter fun field => setting.fieldAccepts field id).map fun field =>
        (setting.fieldScope field, id)) ++
    (state.loadersOf scope).map fun loader => (loader, id)

section Consequences

variable {setting} {state : State} {scope : Scope} {id : ClassId} {fact : Scope × ClassId}

theorem follows_of_mem_consequences (member : fact ∈ setting.consequences state scope id) :
    Follows setting state (scope, id) fact := by
  simp only [Setting.consequences, List.mem_append, List.mem_flatMap, mem_flowsAt,
    state.mem_enrolledIn, List.mem_map, List.mem_filter, state.mem_storedFrom,
    state.mem_loadersOf] at member
  rcases member with (⟨method, ⟨_, rfl⟩, flows⟩ | ⟨field, ⟨stored, accepts⟩, rfl⟩) |
    ⟨loader, loaded, rfl⟩
  · rcases flows with ⟨edge, linked, rfl, accepts, rfl⟩ | ⟨edge, linked, rfl, returns, rfl⟩
    · exact .passed linked accepts
    · exact .returned linked returns
  · exact .stored stored accepts
  · exact .loaded loaded

/-- Every fact that follows is among the consequences if both ends of every edge are enrolled. -/
theorem mem_consequences_of_follows
    (enrolled : ∀ edge ∈ state.graph.edges,
      edge.caller ∈ state.enrolled ∧ edge.callee ∈ state.enrolled)
    (follows : Follows setting state (scope, id) fact) :
    fact ∈ setting.consequences state scope id := by
  simp only [Setting.consequences, List.mem_append, List.mem_flatMap, mem_flowsAt,
    state.mem_enrolledIn, List.mem_map, List.mem_filter, state.mem_storedFrom,
    state.mem_loadersOf]
  cases follows with
  | @passed edge _ linked accepts =>
    exact .inl (.inl ⟨edge.caller, ⟨(enrolled edge linked).1, rfl⟩,
      .inl ⟨edge, linked, rfl, accepts, rfl⟩⟩)
  | @returned edge _ linked returns =>
    exact .inl (.inl ⟨edge.callee, ⟨(enrolled edge linked).2, rfl⟩,
      .inr ⟨edge, linked, rfl, returns, rfl⟩⟩)
  | stored stored accepts => exact .inl (.inr ⟨_, ⟨stored, accepts⟩, rfl⟩)
  | loaded loaded => exact .inr ⟨_, loaded, rfl⟩

end Consequences

/-- The calls that waited for a fact are replayed. -/
def replayAll (scope : Scope) (id : ClassId) (state : State) : State :=
  (state.parked.waiting id scope).foldl (replay setting id)
    { state with parked := state.parked.remaining id scope }

/-- **Drawing the consequences of a fact** is replaying the calls that waited for it and adding one
list of facts. -/
theorem draw_eq (scope : Scope) (id : ClassId) (state : State) :
    draw setting scope id state = (replayAll setting scope id state).addAll
      (setting.consequences (replayAll setting scope id state) scope id) := by
  have stores (replayed : State) (facts : List (Scope × ClassId)) :
      (replayed.addAll facts).storedFrom scope = replayed.storedFrom scope := by
    rw [State.storedFrom, State.addAll_stores, State.storedFrom]
  have loads (replayed : State) (facts : List (Scope × ClassId)) :
      (replayed.addAll facts).loadersOf scope = replayed.loadersOf scope := by
    rw [State.loadersOf, State.addAll_loads, State.loadersOf]
  have storing (replayed : State) := replayed.foldl_addFact_eq fun field =>
    (setting.fieldScope field, id)
  have loading (replayed : State) := replayed.foldl_addFact_eq fun loader => (loader, id)
  unfold draw Setting.consequences
  simp only [State.addAll_append, foldl_passOn_eq, storing, loading, stores, loads]
  rfl

end CallFlow.Construction
