/-
**Every construction ends.**

A queue gives out only what it was given, and it is given only what is new: a method for the entry
or for a new edge, an event for a new fact. So no method is processed twice and the consequences of
no fact are drawn twice, and the program bounds both.

* `Construction.State.popped?`, `Construction.State.processed?`, `Construction.State.drawn?`: what
  the next step takes off its queue.
* `Construction.Ledger`, `Construction.Reaches.ledger`: what has been taken off the queues so far,
  in every state.
* `Construction.Reaches.possible`: the facts are among those that the program makes possible.
* `constructGraph_terminates`: a construction ends, and how often each queue is used until then.
-/

import Mathlib.Data.List.Dedup
import CallFlow.Proofs.Construction.Failure

namespace CallFlow

namespace Construction

variable {setting : Setting} {entry : MethodId} {past : List State} {state : State}

/-! ### What a step takes off its queue -/

/-- The method that the next step takes off its queue. -/
def State.popped? (state : State) : Option MethodId :=
  match state.events, state.sites, state.methods with
  | [], [], method :: _ => some method
  | _, _, _ => none

/-- The method that the next step processes: one that is not reachable so far. -/
def State.processed? (state : State) : Option MethodId :=
  state.popped?.filter fun method => !state.graph.contains method

/-- The fact whose consequences the next step draws. -/
def State.drawn? (state : State) : Option (Scope × ClassId) := state.events.head?

/-- The methods taken off their queue. -/
def popped (past : List State) : List MethodId := past.filterMap State.popped?

/-- The methods processed. -/
def processed (past : List State) : List MethodId := past.filterMap State.processed?

/-- The facts whose consequences have been drawn. -/
def drawn (past : List State) : List (Scope × ClassId) := past.filterMap State.drawn?

theorem Takes.popped {before after : State} (takes : Takes setting before after) :
    before.popped?.toList.length + after.methods.length = before.methods.length := by
  unfold State.popped?
  cases takes with
  | event next =>
    simp only [next]
    exact Nat.zero_add _
  | site drained next =>
    simp only [drained, next]
    exact Nat.zero_add _
  | known drained idle next known =>
    simp only [drained, idle, next]
    exact Nat.add_comm _ _
  | discovered drained idle next fresh inRange =>
    simp only [drained, idle, next]
    exact Nat.add_comm _ _

/-- A method that is processed becomes reachable, and no other one does. -/
theorem Takes.processed {before after : State} (takes : Takes setting before after) :
    after.graph.reachable = before.graph.reachable ++ before.processed?.toList ∧
      after.counters.methodsProcessed =
        before.counters.methodsProcessed + before.processed?.toList.length := by
  unfold State.processed? State.popped?
  cases takes with
  | event next => simp [next]
  | site drained next => simp [drained, next]
  | known drained idle next known => simp [drained, idle, next, known]
  | @discovered method methods drained idle next fresh inRange =>
    simp only [drained, idle, next]
    have unknown : before.graph.contains method = false := by
      rw [← Bool.not_eq_true, CallGraph.contains_iff]
      exact fresh
    rw [Option.filter_some, unknown]
    refine ⟨?_, rfl⟩
    show (before.graph.discover _ _).reachable = _
    rw [before.graph.discover_of_fresh _ fresh]
    simp [CallGraph.reachable]

theorem Takes.drawn {before after : State} (takes : Takes setting before after) :
    before.drawn?.toList ++ after.events = before.events ∧ after.facts = before.facts ∧
      after.counters.events = before.counters.events := by
  unfold State.drawn?
  cases takes with
  | event next => exact ⟨by rw [next]; rfl, rfl, rfl⟩
  | site drained next => exact ⟨by rw [drained]; rfl, rfl, rfl⟩
  | known drained idle next known => exact ⟨by rw [drained]; rfl, rfl, rfl⟩
  | discovered drained idle next fresh inRange => exact ⟨by rw [drained]; rfl, rfl, rfl⟩

/-! ### What a change queues -/

theorem Change.methodsProcessed {before after : State} (change : Change setting before after) :
    after.counters.methodsProcessed = before.counters.methodsProcessed := by
  cases change with
  | fact tracked fresh cause => rw [before.addFact_of_fresh fresh]
  | remarked diagnostic remark => cases diagnostic <;> rfl
  | _ => rfl

theorem Changes.methodsProcessed {before after : State} (changes : Changes setting before after) :
    after.counters.methodsProcessed = before.counters.methodsProcessed := by
  induction changes with
  | refl => rfl
  | tail _ change hyp => exact change.methodsProcessed.trans hyp

/-- The events queued so far, after those of which the consequences have been drawn, are the facts,
each once, and they are counted. -/
structure EventsAre (before : List (Scope × ClassId)) (state : State) : Prop where
  members : ∀ fact, fact ∈ before ++ state.events ↔ fact ∈ state.facts
  distinct : (before ++ state.events).Nodup
  count : state.counters.events = (before ++ state.events).length

/-- An event is queued for a new fact only. -/
theorem Change.eventsAre {first second : State} {earlier : List (Scope × ClassId)}
    (events : EventsAre earlier first) (change : Change setting first second) :
    EventsAre earlier second := by
  cases change with
  | @fact scope id tracked fresh cause =>
    have unqueued : (scope, id) ∉ earlier ++ first.events := fun member =>
      fresh ((events.members _).mp member)
    rw [first.addFact_of_fresh fresh]
    refine ⟨fun fact => ?_, ?_, ?_⟩
    · show fact ∈ earlier ++ (first.events ++ [(scope, id)]) ↔ fact ∈ first.facts.add scope id
      rw [← List.append_assoc, List.mem_append, List.mem_singleton, events.members fact,
        Facts.mem_add, or_comm]
    · show (earlier ++ (first.events ++ [(scope, id)])).Nodup
      rw [← List.append_assoc, ← List.concat_eq_append]
      exact events.distinct.concat unqueued
    · show first.counters.events + 1 = (earlier ++ (first.events ++ [(scope, id)])).length
      rw [← List.append_assoc, List.length_append, ← events.count]
      rfl
  | remarked diagnostic remark =>
    refine ⟨events.members, events.distinct, ?_⟩
    show _ = (earlier ++ first.events).length
    rw [← events.count]
    cases diagnostic <;> rfl
  | _ => exact ⟨events.members, events.distinct, events.count⟩

/-- There are as many events as facts. -/
theorem EventsAre.count_eq_size {before : List (Scope × ClassId)} (events : EventsAre before state) :
    state.counters.events = state.facts.size := by
  have perm : (before ++ state.events).Perm state.facts.toList := by
    rw [List.perm_ext_iff_of_nodup events.distinct state.facts.nodup_toList]
    exact events.members
  rw [events.count, perm.length_eq]
  rfl

/-! ### Every state -/

/-- What the steps so far have taken off the queues. -/
structure Ledger (past : List State) (state : State) : Prop where
  /-- The methods taken off their queue and those on it are paid for by the entry and the edges. -/
  methods : (popped past).length + state.methods.length ≤ 1 + state.graph.edges.size
  /-- The methods processed are the reachable ones, in order of discovery. -/
  processed : processed past = state.graph.reachable
  methodsProcessed : state.counters.methodsProcessed = state.graph.reachable.length
  /-- The facts are those drawn and those queued. -/
  events : EventsAre (drawn past) state

/-- **What has been taken off the queues, in every state.** -/
theorem Reaches.ledger (reaches : Reaches setting entry past state) : Ledger past state := by
  induction reaches with
  | initial =>
    exact ⟨Nat.le_refl 1, rfl, rfl, fun fact => ⟨nofun, fun member =>
      absurd member (SortedSet.not_mem_empty fact)⟩, List.nodup_nil, rfl⟩
  | @step past state next reaches stepped hyp =>
    obtain ⟨taken, takes, changes⟩ := step_changes reaches.coherent stepped
    have grown := Changes.extends changes
    obtain ⟨reached, counted⟩ := takes.processed
    obtain ⟨eventsLeft, sameFacts, sameCount⟩ := takes.drawn
    have events : EventsAre (drawn past ++ state.drawn?.toList) taken := by
      refine ⟨?_, ?_, ?_⟩
      · rw [List.append_assoc, eventsLeft, sameFacts]
        exact hyp.events.members
      · rw [List.append_assoc, eventsLeft]
        exact hyp.events.distinct
      · rw [List.append_assoc, eventsLeft, sameCount]
        exact hyp.events.count
    refine ⟨?_, ?_, ?_, ?_⟩
    · have queued := Changes.queuedMethods changes
      have taking := takes.popped
      have before := hyp.methods
      rw [takes.edges] at queued
      unfold popped at before ⊢
      rw [filterMap_concat, List.length_append]
      omega
    · have before := hyp.processed
      unfold processed at before ⊢
      rw [filterMap_concat, before, grown.reachable_eq, reached]
    · have same := Changes.methodsProcessed changes
      rw [same, counted, hyp.methodsProcessed, grown.reachable_eq, reached, List.length_append]
    · unfold drawn at events ⊢
      rw [filterMap_concat]
      exact reflTransGen_preserves (fun events change => change.eventsAre events) changes events

/-- A fact is about a class that objects can have. -/
theorem Reaches.concrete (reaches : Reaches setting entry past state) :
    ∀ fact ∈ state.facts, setting.program.isConcrete fact.2 = true := by
  refine reaches.preserve
    (fun state => ∀ fact ∈ state.facts, setting.program.isConcrete fact.2 = true)
    (fun fact member => absurd member (SortedSet.not_mem_empty fact)) ?_ ?_
  · intro before after _ concrete takes
    rw [takes.drawn.2.1]
    exact concrete
  · intro before after concrete change
    cases change with
    | @fact scope id tracked fresh cause =>
      rw [before.addFact_of_fresh fresh]
      intro fact member
      rcases Facts.mem_add.mp member with rfl | old
      · cases cause with
        | allocated reachable stands allocates =>
          cases allocates with
          | new concrete => exact concrete
          | newArray counts base concrete => exact concrete
        | received linkable =>
          cases linkable.selected with
          | received virtual tracked present receives => exact (List.mem_filter.mp receives.1).2
        | followed present follows =>
          have flowing := concrete _ present
          cases follows <;> exact flowing
      · exact concrete fact old
    | _ => exact concrete

/-- The scopes that methods and fields of the program report to, each once. -/
def Setting.scopes (setting : Setting) : List Scope :=
  (setting.program.methodIds.map setting.scopeOf ++
    setting.program.fieldIds.map setting.fieldScope).dedup

/-- The classes that objects can have. -/
def Setting.concreteClasses (setting : Setting) : List ClassId :=
  setting.program.classIds.filter setting.program.isConcrete

/-- Every fact is about a scope and a concrete class of the program. -/
theorem Reaches.possible (isMethod : (setting.program.method? entry).isSome = true)
    (reaches : Reaches setting entry past state) :
    ∀ fact ∈ state.facts, fact ∈ setting.scopes ×ˢ setting.concreteClasses := by
  intro fact present
  have possible : fact ∈ allFacts setting :=
    (reaches.within (closed_everything isMethod)).facts fact present
  obtain ⟨inScope, isClass⟩ := List.mem_product.mp possible
  exact List.mem_product.mpr ⟨List.mem_dedup.mpr inScope,
    List.mem_filter.mpr ⟨isClass, reaches.concrete fact present⟩⟩

/-- From an entry that is no method no step is taken. -/
theorem Reaches.of_missing (missing : setting.program.method? entry = none)
    (reaches : Reaches setting entry past state) : past = [] ∧ state = .initial entry := by
  induction reaches with
  | initial => exact ⟨rfl, rfl⟩
  | step reaches stepped hyp =>
    obtain ⟨rfl, rfl⟩ := hyp
    have failed : Construction.step setting (.initial entry) = some (.error (.fault .outOfRange)) := by
      show some (processMethod setting entry _) = _
      unfold processMethod
      rw [missing]
      rfl
    rw [failed] at stepped
    cases stepped

/-- How often each queue is used at most. -/
structure Bounded (setting : Setting) (past : List State) (state : State) : Prop where
  steps : past.length ≤ stepBound setting.program
  popped : (popped past).length ≤ 1 + state.graph.edges.size
  processedOnce : (processed past).Nodup
  processed : (processed past).length ≤ setting.program.methods.size
  drawnOnce : (drawn past).Nodup
  events : state.counters.events ≤ setting.scopes.length * setting.concreteClasses.length

/-- **How often each queue is used, in every state.** -/
theorem Reaches.bounded (reaches : Reaches setting entry past state) :
    Bounded setting past state := by
  have ledger := reaches.ledger
  have distinct := reaches.nodup_reachable
  cases missing : setting.program.method? entry with
  | none =>
    obtain ⟨rfl, rfl⟩ := reaches.of_missing missing
    exact ⟨Nat.zero_le _, Nat.zero_le _, List.nodup_nil, Nat.zero_le _, List.nodup_nil,
      Nat.zero_le _⟩
  | some info =>
    have isMethod : (setting.program.method? entry).isSome = true := by rw [missing]; rfl
    refine ⟨reaches.length_le isMethod, ?_, ?_, ?_, ledger.events.distinct.of_append_left, ?_⟩
    · have paid := ledger.methods
      omega
    · rw [ledger.processed]
      exact distinct
    · have subset : state.graph.reachable ⊆ setting.program.methodIds := fun method reachable =>
        (reaches.within (closed_everything isMethod)).reachable method (.inl reachable)
      have fewer := distinct.length_le_of_subset subset
      rw [ledger.processed]
      rw [Program.methodIds, List.length_map, List.length_range] at fewer
      exact fewer
    · have subset : drawn past ++ state.events ⊆ setting.scopes ×ˢ setting.concreteClasses :=
        fun fact member => reaches.possible isMethod fact ((ledger.events.members fact).mp member)
      have fewer := ledger.events.distinct.length_le_of_subset subset
      rw [List.length_product] at fewer
      rw [ledger.events.count]
      exact fewer

end Construction

/-- **Every construction ends.** In a program whose identifiers are in range and whose walks end, a
construction comes, after no more steps than the program bounds, to a state in which nothing is left
or to a call site with an unknown instruction; from an entry that is no method it does not start.
Until then, in every state, the queue of methods has given out at most one method more than there are
edges, no method has been processed twice, the consequences of no fact have been drawn twice, and
there are no more events than pairs of a scope and a concrete class of the program. -/
theorem constructGraph_terminates {program : Program} (inRange : program.InRange)
    (walksEnd : program.WalksEnd) (granularity : Granularity) (entry : MethodId) :
    ∃ hierarchy run past, Hierarchy.of? program = some hierarchy ∧
      constructGraph program granularity entry = .ok run ∧
      Construction.Reaches ⟨hierarchy, granularity⟩ entry past run.state ∧
      (run.ending = .finished ∧ Construction.step ⟨hierarchy, granularity⟩ run.state = none ∨
        (∃ site, run.ending = .failed (.malformedCallKind site) ∧
          Construction.step ⟨hierarchy, granularity⟩ run.state =
            some (.error (.malformedCallKind site))) ∨
        run.ending = .failed (.unknownEntry entry) ∧ program.method? entry = none) ∧
      ∀ past state, Construction.Reaches ⟨hierarchy, granularity⟩ entry past state →
        Construction.Ledger past state ∧
          Construction.Bounded ⟨hierarchy, granularity⟩ past state := by
  obtain ⟨hierarchy, found⟩ := Hierarchy.exists_of? inRange.edgesInRange
  obtain rfl := Hierarchy.program_of? found
  let setting : Construction.Setting := ⟨hierarchy, granularity⟩
  have constructed : constructGraph hierarchy.program granularity entry =
      .ok (Construction.construct setting entry) := constructGraph_eq_ok.mpr ⟨hierarchy, found, rfl⟩
  have everywhere (past : List Construction.State) (state : Construction.State)
      (reaches : Construction.Reaches setting entry past state) :
      Construction.Ledger past state ∧ Construction.Bounded setting past state :=
    ⟨reaches.ledger, reaches.bounded⟩
  cases missing : hierarchy.program.method? entry with
  | none =>
    have rejected : Construction.construct setting entry =
        ⟨.initial entry, .failed (.unknownEntry entry)⟩ := Construction.construct_of_missing missing
    rw [rejected] at constructed
    exact ⟨hierarchy, _, [], found, constructed, .initial, .inr (.inr ⟨rfl, rfl⟩), everywhere⟩
  | some info =>
    have isMethod : (setting.program.method? entry).isSome = true := by
      show (hierarchy.program.method? entry).isSome = true
      rw [missing]
      rfl
    obtain ⟨past, reaches, outcome⟩ :=
      Construction.construct_outcome setting inRange isMethod walksEnd
    refine ⟨hierarchy, _, past, found, constructed, reaches, ?_, everywhere⟩
    rcases outcome with finished | ⟨site, malformed, failed⟩
    · exact .inl finished
    · exact .inr (.inl ⟨site, failed, malformed.stuck⟩)

/-- The class of the ring is its own superclass, but the search for its only member ends. Its main method
calls itself, so the queue of methods gives it out twice, and it is processed once. -/
theorem constructGraph_terminates_ring :
    ∃ hierarchy run past, Hierarchy.of? .ring = some hierarchy ∧
      constructGraph .ring (Variant.xta.granularity .ring) ⟨0⟩ = .ok run ∧
      run.ending = .finished ∧ run.state.graph.reachable = [⟨0⟩] ∧
      Construction.Reaches ⟨hierarchy, Variant.xta.granularity .ring⟩ ⟨0⟩ past run.state ∧
      (Construction.popped past).length ≤ 2 ∧ (Construction.drawn past).Nodup := by
  have inRange : Program.ring.InRange := by decide
  have walksEnd : Program.ring.WalksEnd := Program.walksEnd_of_members inRange (by decide)
  obtain ⟨known, constructed, finished, reachable, edges⟩ :
      ∃ run, constructGraph .ring (Variant.xta.granularity .ring) ⟨0⟩ = .ok run ∧
        run.ending = .finished ∧ run.state.graph.reachable = [⟨0⟩] ∧ run.state.graph.edges.size = 1 :=
    ⟨_, rfl, rfl, rfl, rfl⟩
  obtain ⟨hierarchy, run, past, found, same, reaches, _, everywhere⟩ :=
    constructGraph_terminates inRange walksEnd (Variant.xta.granularity .ring) ⟨0⟩
  rw [constructed] at same
  cases same
  have bounded := (everywhere past _ reaches).2
  have popped := bounded.popped
  rw [edges] at popped
  exact ⟨hierarchy, known, past, found, constructed, finished, reachable, reaches, popped,
    bounded.drawnOnce⟩

end CallFlow
