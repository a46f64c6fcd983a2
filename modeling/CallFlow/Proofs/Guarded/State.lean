/-
**States whose identifiers are in range.**

A construction writes down identifiers in many places: in the graph and the facts, in its queues, with
what is parked and with what is remembered. All of them are taken from the program or from another of
these places, so the places of a state hold identifiers of the program only, at every moment of a step.

* `Construction.State.InRange`: every identifier in a state is inside its table.
* `Construction.State.InRange.addFact` and the lemmas after it: each way to write into a state keeps it
  in range.
-/

import CallFlow.Construction.Step
import CallFlow.Proofs.Hierarchy.Receivers
import CallFlow.Proofs.Hierarchy.Walks

namespace CallFlow.Construction.State

/-- Every identifier in a state is inside its table. -/
structure InRange (program : Program) (state : State) : Prop where
  entry : (program.method? state.graph.entry).isSome = true
  reachable : ∀ method ∈ state.graph.reachable, (program.method? method).isSome = true
  edges : ∀ edge ∈ state.graph.edges,
    (program.method? edge.caller).isSome = true ∧ (program.method? edge.callee).isSome = true
  facts : ∀ fact ∈ state.facts, (program.class? fact.2).isSome = true
  known : ∀ target receivers, state.cache.known.lookup target = some receivers →
    ∀ pair ∈ receivers,
      (program.class? pair.1).isSome = true ∧ (program.method? pair.2).isSome = true
  linked : ∀ pair ∈ state.cache.linked, (program.class? pair.1.owner).isSome = true ∧
    (program.member? pair.1.member).isSome = true ∧ (program.method? pair.2).isSome = true
  parked : ∀ parked ∈ state.parked, (program.class? parked.receiver).isSome = true ∧
    (program.method? parked.site.method).isSome = true ∧
    (program.method? parked.callee).isSome = true
  methods : ∀ method ∈ state.methods, (program.method? method).isSome = true
  sites : ∀ site ∈ state.sites, (program.method? site.method).isSome = true
  events : ∀ fact ∈ state.events, (program.class? fact.2).isSome = true
  enrolled : ∀ method ∈ state.enrolled, (program.method? method).isSome = true
  stores : ∀ store ∈ state.stores, (program.field? store.2).isSome = true

namespace InRange

variable {program : Program} {state : State}

/-- At the start only the entry method is mentioned. -/
theorem initial {entry : MethodId} (isMethod : (program.method? entry).isSome = true) :
    (State.initial entry).InRange program where
  entry := isMethod
  reachable _ member := absurd member List.not_mem_nil
  edges edge member := absurd member (SortedSet.not_mem_empty edge)
  facts fact member := absurd member (SortedSet.not_mem_empty fact)
  known _ _ found := by cases found
  linked pair member := absurd member (SortedSet.not_mem_empty pair)
  parked parked member := absurd member (SortedSet.not_mem_empty parked)
  methods method member := List.mem_singleton.mp member ▸ isMethod
  sites _ member := absurd member List.not_mem_nil
  events _ member := absurd member List.not_mem_nil
  enrolled method member := absurd member (SortedSet.not_mem_empty method)
  stores store member := absurd member (SortedSet.not_mem_empty store)

variable (inRange : state.InRange program)
include inRange

theorem note (diagnostic : Diagnostic) : (state.note diagnostic).InRange program :=
  { inRange with }

theorem count (change : Counters → Counters) : (state.count change).InRange program :=
  { inRange with }

/-! ### Facts -/

theorem addFact (scope : Scope) {id : ClassId} (isClass : (program.class? id).isSome = true) :
    (state.addFact scope id).InRange program := by
  by_cases present : (scope, id) ∈ state.facts
  · rw [state.addFact_of_mem present]
    exact inRange
  · rw [state.addFact_of_fresh present]
    refine { inRange with facts := ?_, events := ?_ }
    · intro fact member
      rcases Facts.mem_add.mp member with rfl | old
      · exact isClass
      · exact inRange.facts fact old
    · intro fact member
      rcases List.mem_append.mp member with old | new
      · exact inRange.events fact old
      · rw [List.mem_singleton.mp new]
        exact isClass

theorem addFacts (scope : Scope) {ids : List ClassId}
    (classes : ∀ id ∈ ids, (program.class? id).isSome = true) :
    (state.addFacts scope ids).InRange program :=
  List.foldlRecOn ids _ inRange fun _ inRange id member => inRange.addFact scope (classes id member)

/-- A receiver flows into the method that it reaches. -/
theorem receive (tracks : Bool) (scope : Scope) {receiver : Option ClassId} :
    (∀ id ∈ receiver, (program.class? id).isSome = true) → InRange program
      (match tracks, receiver with
        | true, some id => state.addFact scope id
        | _, _ => state) := by
  intro isReceiver
  split
  · exact inRange.addFact scope (isReceiver _ rfl)
  · exact inRange

theorem classesIn {scope : Scope} {id : ClassId} (member : id ∈ state.facts.classesIn scope) :
    (program.class? id).isSome = true :=
  inRange.facts _ (Facts.mem_classesIn.mp member)

/-! ### Edges -/

theorem enroll {method : MethodId} (isMethod : (program.method? method).isSome = true) :
    (state.enroll method).InRange program := by
  refine { inRange with enrolled := fun other member => ?_ }
  rcases SortedSet.mem_insert.mp member with rfl | old
  · exact isMethod
  · exact inRange.enrolled other old

theorem connect {edge : Edge} (isCaller : (program.method? edge.caller).isSome = true)
    (isCallee : (program.method? edge.callee).isSome = true) :
    InRange program { state with graph := state.graph.connect edge } := by
  refine { inRange with edges := fun other member => ?_ }
  rcases SortedSet.mem_insert.mp member with rfl | old
  · exact ⟨isCaller, isCallee⟩
  · exact inRange.edges other old

theorem enqueue {method : MethodId} (isMethod : (program.method? method).isSome = true) :
    InRange program (if state.graph.contains method then state
      else { state with methods := state.methods ++ [method] }) := by
  split
  · exact inRange
  · refine { inRange with methods := fun other member => ?_ }
    rcases List.mem_append.mp member with old | new
    · exact inRange.methods other old
    · rw [List.mem_singleton.mp new]
      exact isMethod

theorem callee {caller callee : MethodId} (member : callee ∈ state.graph.calleesOf caller) :
    (program.method? callee).isSome = true := by
  obtain ⟨edge, present, _, rfl⟩ := state.graph.mem_calleesOf.mp member
  exact (inRange.edges edge present).2

theorem caller {callee : MethodId} {site : Site} (member : site ∈ state.graph.callersOf callee) :
    (program.method? site.method).isSome = true := by
  obtain ⟨edge, present, _, rfl⟩ := state.graph.mem_callersOf.mp member
  exact (inRange.edges edge present).1

/-! ### Remembered targets and parked calls -/

theorem record {target : Target} {callee : MethodId}
    (isClass : (program.class? target.owner).isSome = true)
    (isMember : (program.member? target.member).isSome = true)
    (isMethod : (program.method? callee).isSome = true) :
    InRange program { state with cache := state.cache.record target callee } := by
  refine { inRange with known := ?_, linked := ?_ }
  · intro other receivers found
    unfold TargetCache.record at found
    split at found
    · exact inRange.known other receivers found
    · by_cases same : other = target
      · subst same
        rw [List.lookup_cons_self] at found
        cases found
        exact fun pair member => absurd member List.not_mem_nil
      · rw [lookup_cons_of_ne same] at found
        exact inRange.known other receivers found
  · intro pair member
    rcases SortedSet.mem_insert.mp member with rfl | old
    · exact ⟨isClass, isMember, isMethod⟩
    · exact inRange.linked pair old

/-- The receivers of a target are classes of the program, and the methods that they reach are methods
of the program. -/
theorem ask {hierarchy : Hierarchy} (same : hierarchy.program = program) {target : Target}
    {receivers : List (ClassId × MethodId)} {cache : TargetCache}
    (answer : state.cache.ask hierarchy target = .ok (receivers, cache)) :
    (∀ pair ∈ receivers,
      (program.class? pair.1).isSome = true ∧ (program.method? pair.2).isSome = true) ∧
      InRange program { state with cache } := by
  subst same
  rcases state.cache.ask_cases answer with ⟨found, rfl⟩ | ⟨_, looked, rfl⟩
  · exact ⟨inRange.known target receivers found, { inRange with }⟩
  · have fine : ∀ pair ∈ receivers, (hierarchy.program.class? pair.1).isSome = true ∧
        (hierarchy.program.method? pair.2).isSome = true := by
      rintro ⟨id, callee⟩ member
      obtain ⟨subtype, dispatched⟩ := (Hierarchy.mem_receivers looked).mp member
      have isClass := (List.mem_filter.mp (List.mem_filter.mp subtype).1).1
      exact ⟨hierarchy.program.mem_classIds.mp isClass, Hierarchy.isMethod_of_dispatch dispatched⟩
    refine ⟨fine, { inRange with known := fun other list found => ?_ }⟩
    by_cases same : other = target
    · subst same
      rw [List.lookup_cons_self] at found
      cases found
      exact fine
    · rw [lookup_cons_of_ne same] at found
      exact inRange.known other list found

theorem park {setting : Setting} {site : Site} {pair : ClassId × MethodId}
    (isCaller : (program.method? site.method).isSome = true)
    (isClass : (program.class? pair.1).isSome = true)
    (isMethod : (program.method? pair.2).isSome = true) :
    (Construction.park setting site state pair).InRange program := by
  unfold Construction.park
  show InRange program (if _ then _ else _)
  split
  · exact inRange
  · refine { inRange with parked := fun other member => ?_ }
    rcases Parked.mem_park.mp member with rfl | old
    · exact ⟨isClass, isCaller, isMethod⟩
    · exact inRange.parked other old

theorem unpark (scope : Scope) (id : ClassId) :
    InRange program { state with parked := state.parked.remaining id scope } :=
  { inRange with parked := fun other member =>
      inRange.parked other (Parked.mem_remaining.mp member).1 }

/-! ### Stores, loads and methods -/

theorem store (scope : Scope) {field : FieldId} (isField : (program.field? field).isSome = true) :
    InRange program { state with stores := state.stores.insert (scope, field) } := by
  refine { inRange with stores := fun other member => ?_ }
  rcases SortedSet.mem_insert.mp member with rfl | old
  · exact isField
  · exact inRange.stores other old

theorem storedFrom {scope : Scope} {field : FieldId} (member : field ∈ state.storedFrom scope) :
    (program.field? field).isSome = true :=
  inRange.stores _ (state.mem_storedFrom.mp member)

theorem discover {method : MethodId} (isMethod : (program.method? method).isSome = true)
    (fresh : method ∉ state.graph.reachable) :
    InRange program { state with
      graph := state.graph.discover method (program.callSites method)
      sites := program.callSites method } := by
  rw [state.graph.discover_of_fresh _ fresh]
  refine { inRange with reachable := ?_, sites := ?_ }
  · intro other member
    have member : other ∈ (state.graph.discovered ++ [(method, program.callSites method)]).map
        Prod.fst := member
    rw [List.map_append] at member
    rcases List.mem_append.mp member with old | new
    · exact inRange.reachable other old
    · rw [List.mem_singleton.mp new]
      exact isMethod
  · intro site member
    rw [(program.mem_callSites.mp member).1]
    exact isMethod

end InRange

end CallFlow.Construction.State
