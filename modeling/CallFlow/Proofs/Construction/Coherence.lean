/-
**Coherent states.**

What the queues, the parked calls, the remembered targets and the enrolled methods have to do with
each other, in every state that a construction comes to, and also in the middle of a step.

* `Construction.Coherent`: every queued event is a fact and is queued once, a parked call waits for
  a class that is absent or still queued, what is remembered about a target is right, and both ends
  of every edge are enrolled.
* `Construction.Change.coherent`, `Construction.Takes.coherent`: changes keep states coherent, and
  so does taking the next thing off its queue.
-/

import Mathlib.Data.List.Nodup
import CallFlow.Proofs.Construction.Batch
import CallFlow.Proofs.Hierarchy.Receivers

namespace CallFlow.Construction

/-- How the parts of a state fit together. -/
structure Coherent (setting : Setting) (state : State) : Prop where
  queued : ∀ fact ∈ state.events, fact ∈ state.facts
  distinct : state.events.Nodup
  waits : ∀ parked ∈ state.parked, Waits setting state parked
  absent : ∀ parked ∈ state.parked, (parked.scope, parked.receiver) ∈ state.facts →
    (parked.scope, parked.receiver) ∈ state.events
  answers : ∀ target receivers, state.cache.known.lookup target = some receivers →
    setting.hierarchy.receivers target = .ok receivers
  enrolled : ∀ edge ∈ state.graph.edges,
    edge.caller ∈ state.enrolled ∧ edge.callee ∈ state.enrolled
  sites : ∀ site ∈ state.sites, site.method ∈ state.graph.reachable
  untracked : setting.granularity.tracksInstantiation = false →
    (∀ fact, fact ∉ state.facts) ∧ ∀ parked, parked ∉ state.parked

theorem Coherent.initial (setting : Setting) (entry : MethodId) :
    Coherent setting (.initial entry) where
  queued _ member := absurd member List.not_mem_nil
  distinct := List.nodup_nil
  waits parked member := absurd member (SortedSet.not_mem_empty parked)
  absent parked member := absurd member (SortedSet.not_mem_empty parked)
  answers _ _ found := by cases found
  enrolled edge member := absurd member (SortedSet.not_mem_empty edge)
  sites _ member := absurd member List.not_mem_nil
  untracked _ := ⟨fun fact => SortedSet.not_mem_empty fact,
    fun parked => SortedSet.not_mem_empty parked⟩

/-- Whether a parked call waits depends on the graph and on what is remembered. -/
theorem Waits.congr {setting : Setting} {first second : State} {parked : ParkedCall}
    (waits : Waits setting first parked) (graph : second.graph = first.graph)
    (cache : second.cache = first.cache) : Waits setting second parked := by
  obtain ⟨reachable, scope_eq, isCall⟩ := waits
  rw [← graph] at reachable
  rw [← cache] at isCall
  exact ⟨reachable, scope_eq, isCall⟩

/-- What is remembered about a target stays right when another target is asked for. -/
theorem answers_ask {hierarchy : Hierarchy} {cache asked : TargetCache} {target : Target}
    {receivers : List (ClassId × MethodId)}
    (answers : ∀ target receivers, cache.known.lookup target = some receivers →
      hierarchy.receivers target = .ok receivers)
    (answer : cache.ask hierarchy target = .ok (receivers, asked)) :
    hierarchy.receivers target = .ok receivers ∧
      ∀ other list, asked.known.lookup other = some list → hierarchy.receivers other = .ok list := by
  rcases cache.ask_cases answer with ⟨found, rfl⟩ | ⟨_, looked, rfl⟩
  · exact ⟨answers target _ found, answers⟩
  · refine ⟨looked, fun other list known => ?_⟩
    by_cases same : other = target
    · subst same
      rw [List.lookup_cons_self] at known
      cases known
      exact looked
    · rw [lookup_cons_of_ne same] at known
      exact answers other list known

/-- **A change keeps a state coherent.** -/
theorem Change.coherent {setting : Setting} {before after : State}
    (coherent : Coherent setting before) (change : Change setting before after) :
    Coherent setting after := by
  have grown := change.extends
  cases change with
  | @fact scope id tracked fresh cause =>
    have notQueued : (scope, id) ∉ before.events := fun member =>
      fresh (coherent.queued _ member)
    rw [before.addFact_of_fresh fresh] at grown ⊢
    refine { coherent with queued := ?_, distinct := ?_, waits := ?_, absent := ?_, untracked := ?_ }
    · intro fact member
      refine Facts.mem_add.mpr ?_
      rcases List.mem_append.mp member with old | new
      · exact .inr (coherent.queued fact old)
      · exact .inl (List.mem_singleton.mp new)
    · rw [List.nodup_append]
      refine ⟨coherent.distinct, List.nodup_singleton _, fun old member new single same => ?_⟩
      rw [List.mem_singleton] at single
      exact notQueued (single ▸ same ▸ member)
    · exact fun parked member => grown.waits (coherent.waits parked member)
    · intro parked member present
      refine List.mem_append.mpr ?_
      rcases Facts.mem_add.mp present with same | old
      · exact .inr (List.mem_singleton.mpr same)
      · exact .inl (coherent.absent parked member old)
    · intro untracked
      rw [tracked] at untracked
      cases untracked
  | edge linkable fresh recorded =>
    refine { coherent with waits := ?_, enrolled := ?_ }
    · exact fun parked member => grown.waits (coherent.waits parked member)
    · intro edge member
      show edge.caller ∈ SortedSet.insert _ _ ∧ edge.callee ∈ SortedSet.insert _ _
      simp only [SortedSet.mem_insert]
      rcases SortedSet.mem_insert.mp member with rfl | old
      · exact ⟨.inr (.inl rfl), .inl rfl⟩
      · obtain ⟨caller, callee⟩ := coherent.enrolled edge old
        exact ⟨.inr (.inr caller), .inr (.inr callee)⟩
  | linked linkable virtual =>
    refine { coherent with waits := ?_, answers := ?_ }
    · exact fun parked member => grown.waits (coherent.waits parked member)
    · show ∀ target receivers, (before.cache.record _ _).known.lookup target = some receivers → _
      rw [TargetCache.record, if_pos (linkable.known virtual)]
      exact coherent.answers
  | asked answer =>
    refine { coherent with waits := ?_, answers := ?_ }
    · exact fun parked member => grown.waits (coherent.waits parked member)
    · exact (answers_ask coherent.answers answer).2
  | parked tracked waits absent fresh =>
    refine { coherent with waits := ?_, absent := ?_, untracked := ?_ }
    · intro parked member
      rcases Parked.mem_park.mp member with rfl | old
      · exact grown.waits waits
      · exact grown.waits (coherent.waits parked old)
    · intro parked member present
      rcases Parked.mem_park.mp member with rfl | old
      · exact absurd present absent
      · exact coherent.absent parked old present
    · intro untracked
      rw [tracked] at untracked
      cases untracked
  | stored reachable stands holds =>
    exact { coherent with waits := fun parked member => grown.waits (coherent.waits parked member) }
  | loaded reachable stands holds =>
    exact { coherent with waits := fun parked member => grown.waits (coherent.waits parked member) }
  | remarked diagnostic remark =>
    exact { coherent with waits := fun parked member => grown.waits (coherent.waits parked member) }

theorem Changes.coherent {setting : Setting} {before after : State}
    (coherent : Coherent setting before) (changes : Changes setting before after) :
    Coherent setting after :=
  reflTransGen_preserves (fun coherent change => change.coherent coherent) changes coherent

/-- **Taking the next thing off its queue keeps a state coherent**: with a fact all calls that wait
for it are taken. -/
theorem Takes.coherent {setting : Setting} {before after : State}
    (coherent : Coherent setting before) (takes : Takes setting before after) :
    Coherent setting after := by
  cases takes with
  | @event scope id events next =>
    have queued := coherent.queued
    have distinct := coherent.distinct
    have absent := coherent.absent
    rw [next] at queued distinct absent
    refine { coherent with queued := ?_, distinct := ?_, waits := ?_, absent := ?_, untracked := ?_ }
    · exact fun fact member => queued fact (List.mem_cons_of_mem _ member)
    · exact (List.nodup_cons.mp distinct).2
    · intro parked member
      exact (coherent.waits parked (Parked.mem_remaining.mp member).1).congr rfl rfl
    · intro parked member present
      obtain ⟨old, other⟩ := Parked.mem_remaining.mp member
      rcases List.mem_cons.mp (absent parked old present) with same | rest
      · cases same
        exact absurd ⟨rfl, rfl⟩ other
      · exact rest
    · intro untracked
      obtain ⟨noFacts, noParked⟩ := coherent.untracked untracked
      exact ⟨noFacts, fun parked member => noParked parked (Parked.mem_remaining.mp member).1⟩
  | site drained next =>
    refine { coherent with waits := ?_, sites := ?_ }
    · exact fun parked member => (coherent.waits parked member).congr rfl rfl
    · intro site member
      exact coherent.sites site (next ▸ List.mem_cons_of_mem _ member)
  | known drained idle next known =>
    exact { coherent with
      waits := fun parked member => (coherent.waits parked member).congr rfl rfl }
  | @discovered method methods drained idle next fresh inRange =>
    have graph := before.graph.discover_of_fresh (setting.program.callSites method) fresh
    refine { coherent with waits := ?_, enrolled := ?_, sites := ?_ }
    · intro parked member
      obtain ⟨reachable, scope_eq, isCall⟩ := coherent.waits parked member
      refine ⟨?_, scope_eq, isCall⟩
      show parked.site.method ∈ (before.graph.discover _ _).reachable
      rw [graph]
      exact List.mem_map.mpr ((List.mem_map.mp reachable).imp fun entry found =>
        ⟨List.mem_append_left _ found.1, found.2⟩)
    · show ∀ edge ∈ (before.graph.discover _ _).edges, edge.caller ∈ SortedSet.insert _ _ ∧
        edge.callee ∈ SortedSet.insert _ _
      rw [graph]
      intro edge member
      obtain ⟨caller, callee⟩ := coherent.enrolled edge member
      exact ⟨SortedSet.mem_insert.mpr (.inr caller), SortedSet.mem_insert.mpr (.inr callee)⟩
    · intro site member
      show site.method ∈ (before.graph.discover _ _).reachable
      rw [graph, (setting.program.mem_callSites.mp member).1]
      simp [CallGraph.reachable]

end CallFlow.Construction
