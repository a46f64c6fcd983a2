/-
**Facts whose consequences are drawn.**

The consequences of a fact are drawn once, and from then on whatever else follows from it is added
together with its reason: a new edge lets flow at once what is known at its two ends, a new store or
load what is known in its scope. So a fact never has to be drawn again.

* `Construction.Drawn`: all that follows from a fact is there.
* `Construction.Action.drawn`: an operation leaves a fact drawn.
* `Construction.draw_drawn`: after a draw the fact is drawn.
-/

import CallFlow.Proofs.Construction.Operation

namespace CallFlow.Construction

/-- All that follows from a fact is there. -/
def Drawn (setting : Setting) (state : State) (source : Scope × ClassId) : Prop :=
  ∀ target, Follows setting state source target → target ∈ state.facts

variable {setting : Setting} {source : Scope × ClassId}

/-- What follows from a fact depends on the edges, the stores and the loads. -/
theorem Follows.congr {first second : State} {target : Scope × ClassId}
    (follows : Follows setting second source target)
    (edges : second.graph.edges = first.graph.edges) (stores : second.stores = first.stores)
    (loads : second.loads = first.loads) : Follows setting first source target := by
  cases follows with
  | passed linked accepts => exact .passed (edges ▸ linked) accepts
  | returned linked returns => exact .returned (edges ▸ linked) returns
  | stored stored accepts => exact .stored (stores ▸ stored) accepts
  | loaded loaded => exact .loaded (loads ▸ loaded)

theorem Follows.of_addAll {state : State} {facts : List (Scope × ClassId)} {target : Scope × ClassId}
    (follows : Follows setting (state.addAll facts) source target) :
    Follows setting state source target :=
  follows.congr (by rw [State.addAll_graph]) (State.addAll_stores state facts)
    (State.addAll_loads state facts)

theorem Drawn.addAll {state : State} (drawn : Drawn setting state source)
    (facts : List (Scope × ClassId)) : Drawn setting (state.addAll facts) source :=
  fun target follows => State.mem_addAll.mpr (.inl (drawn target follows.of_addAll))

/-! ### Operations keep facts drawn -/

section New

variable {state : State} {target : Scope × ClassId} (present : source ∈ state.facts)
include present

/-- What follows from a known fact by a new edge is added with the edge. -/
theorem follows_connect (tracked : setting.granularity.tracksInstantiation = true) {site : Site}
    {call : Call} {callee : MethodId}
    (follows : Follows setting (connect setting site call callee state) source target) :
    Follows setting state source target ∨
      target ∈ (connect setting site call callee state).facts := by
  rw [connect_eq] at follows ⊢
  by_cases known : (⟨site, call.kind, callee⟩ : Edge) ∈ state.graph.edges
  · rw [if_pos known] at follows
    exact .inl follows
  · rw [if_neg known, if_pos tracked, seed_eq] at follows ⊢
    have linked {edge : Edge}
        (member : edge ∈ (state.addEdge ⟨site, call.kind, callee⟩).graph.edges) :
        edge = ⟨site, call.kind, callee⟩ ∨ edge ∈ state.graph.edges := SortedSet.mem_insert.mp member
    simp only [State.mem_addAll]
    cases follows.of_addAll.of_addAll with
    | @passed edge id member accepts =>
      rcases linked member with rfl | old
      · refine .inr (.inl (.inr (List.mem_map.mpr ⟨id, List.mem_filter.mpr ⟨?_, accepts⟩, rfl⟩)))
        exact Facts.mem_classesIn.mpr present
      · exact .inl (.passed old accepts)
    | @returned edge id member returns =>
      rcases linked member with rfl | old
      · refine .inr (.inr (List.mem_map.mpr ⟨id, List.mem_filter.mpr ⟨?_, returns⟩, rfl⟩))
        exact Facts.mem_classesIn.mpr (State.mem_addAll.mpr (.inl present))
      · exact .inl (.returned old returns)
    | stored stored accepts => exact .inl (.stored stored accepts)
    | loaded loaded => exact .inl (.loaded loaded)

/-- What follows from a known fact by a new store is added with the store. -/
theorem follows_addStore {scope : Scope} {field : FieldId}
    (follows : Follows setting (addStore setting scope field state) source target) :
    Follows setting state source target ∨ target ∈ (addStore setting scope field state).facts := by
  rw [addStore_eq] at follows ⊢
  split at follows
  · exact .inl follows
  · next fresh =>
    rw [if_neg fresh, State.mem_addAll]
    cases follows.of_addAll with
    | passed linked accepts => exact .inl (.passed linked accepts)
    | returned linked returns => exact .inl (.returned linked returns)
    | @stored _ _ id member accepts =>
      rcases SortedSet.mem_insert.mp member with same | old
      · cases same
        refine .inr (.inr (List.mem_map.mpr ⟨id, List.mem_filter.mpr ⟨?_, accepts⟩, rfl⟩))
        exact Facts.mem_classesIn.mpr present
      · exact .inl (.stored old accepts)
    | loaded loaded => exact .inl (.loaded loaded)

/-- What follows from a known fact by a new load is added with the load. -/
theorem follows_addLoad {scope : Scope} {field : FieldId}
    (follows : Follows setting (addLoad setting scope field state) source target) :
    Follows setting state source target ∨ target ∈ (addLoad setting scope field state).facts := by
  rw [addLoad_eq] at follows ⊢
  split at follows
  · exact .inl follows
  · next fresh =>
    rw [if_neg fresh, State.mem_addAll]
    cases follows.of_addAll with
    | passed linked accepts => exact .inl (.passed linked accepts)
    | returned linked returns => exact .inl (.returned linked returns)
    | stored stored accepts => exact .inl (.stored stored accepts)
    | @loaded _ _ id member =>
      rcases SortedSet.mem_insert.mp member with same | old
      · cases same
        exact .inr (.inr (List.mem_map.mpr ⟨id, Facts.mem_classesIn.mpr present, rfl⟩))
      · exact .inl (.loaded old)

end New

variable {allowed : Diagnostic → Prop}

/-- **An operation leaves a fact drawn.** -/
theorem Action.drawn (tracked : setting.granularity.tracksInstantiation = true) {before after : State}
    (action : Action setting allowed before after) (present : source ∈ before.facts)
    (drawn : Drawn setting before source) : Drawn setting after source := by
  have grown := action.changes.extends
  have kept (target : Scope × ClassId) (flow : Follows setting before source target ∨
      target ∈ after.facts) : target ∈ after.facts :=
    flow.elim (fun old => grown.facts _ (drawn target old)) id
  refine fun target follows => kept target ?_
  cases action with
  | @fact scope id _ cause =>
    have same : before.addFact scope id = before.addAll [(scope, id)] := rfl
    rw [same] at follows
    exact .inl follows.of_addAll
  | connected linkable recorded => exact follows_connect present tracked follows
  | linked linkable virtual => exact .inl (follows.congr rfl rfl rfl)
  | asked answer => exact .inl (follows.congr rfl rfl rfl)
  | parked _ waits absent fresh => exact .inl (follows.congr rfl rfl rfl)
  | stored _ reachable stands => exact follows_addStore present follows
  | loaded _ reachable stands => exact follows_addLoad present follows
  | remarked diagnostic remark permitted => exact .inl (follows.congr rfl rfl rfl)

theorem Actions.drawn (tracked : setting.granularity.tracksInstantiation = true)
    {before after : State} (actions : Actions setting allowed before after)
    (present : source ∈ before.facts) (drawn : Drawn setting before source) :
    Drawn setting after source := by
  induction actions with
  | refl => exact drawn
  | tail earlier action hyp =>
    exact action.drawn tracked ((Actions.extends earlier).facts _ present) hyp

/-! ### Draws -/

variable {state : State} {scope : Scope} {id : ClassId}
  (tracked : setting.granularity.tracksInstantiation = true)
  (present : (scope, id) ∈ state.facts)
  (coherent : Coherent setting (withoutWaiting scope id state))
  (waits : ∀ parked ∈ state.parked, Waits setting state parked)
include tracked present waits

/-- A draw leaves the other facts drawn. -/
theorem drawn_draw (known : source ∈ state.facts) (drawn : Drawn setting state source) :
    Drawn setting (draw setting scope id state) source := by
  obtain ⟨replayed, _⟩ := replayAll_actions tracked present waits
  rw [draw_eq]
  exact (Actions.drawn tracked replayed known
    fun target follows => drawn target (follows.congr rfl rfl rfl)).addAll _

include coherent

/-- **After a draw the fact is drawn.** -/
theorem draw_drawn : Drawn setting (draw setting scope id state) (scope, id) := by
  obtain ⟨replayed, _⟩ := replayAll_actions tracked present waits
  rw [draw_eq]
  intro target follows
  exact State.mem_addAll.mpr (.inr (mem_consequences_of_follows
    (Changes.coherent coherent replayed.changes).enrolled follows.of_addAll))

end CallFlow.Construction
