/-
**Nothing is lost on the way.**

What has left a queue is done for good: a fact that is not queued is drawn, a call site of a
reachable method that is not to be resolved any more is handled, and the statements of all reachable
methods are absorbed. A finished construction has empty queues, so then everything is done.

* `Construction.Settled`: the invariant.
* `Construction.Settled.step`: a step keeps it.
* `Construction.Reaches.arrives`: the entry and the callees of all edges are reachable or queued.
-/

import CallFlow.Proofs.Construction.Drawn
import CallFlow.Proofs.Construction.History

namespace CallFlow.Construction

/-- A call site of a reachable method that is not to be resolved any more. -/
structure Resolved (setting : Setting) (state : State) (site : Site) : Prop where
  laidOut : ∃ method ∈ state.graph.reachable, site ∈ setting.program.callSites method
  done : site ∉ state.sites

/-- What has left a queue is done. -/
structure Settled (setting : Setting) (state : State) : Prop where
  drawn : ∀ fact ∈ state.facts, fact ∉ state.events → Drawn setting state fact
  handled : ∀ site, Resolved setting state site → ∀ call, setting.program.call? site = some call →
    Handled setting state site call
  absorbed : setting.granularity.tracksInstantiation = true →
    ∀ method ∈ state.graph.reachable, ∀ statement, setting.program.HasStatement method statement →
      Absorbed setting state method statement

variable {setting : Setting} {state : State}

theorem Settled.initial (setting : Setting) (entry : MethodId) : Settled setting (.initial entry) where
  drawn fact member := absurd member (SortedSet.not_mem_empty fact)
  handled site resolved := by
    obtain ⟨⟨method, reachable, _⟩, _⟩ := resolved
    exact absurd reachable List.not_mem_nil
  absorbed _ method reachable := absurd reachable List.not_mem_nil

/-- Changes resolve no call site. -/
theorem Extends.resolved {before after : State} (grown : Extends before after) {site : Site}
    (resolved : Resolved setting after site) : Resolved setting before site := by
  obtain ⟨laidOut, done⟩ := resolved
  rw [grown.reachable_eq] at laidOut
  rw [grown.sites] at done
  exact ⟨laidOut, done⟩

/-- A fact that is not queued afterwards was there before. -/
theorem Extends.notQueued {before after : State} (grown : Extends before after)
    {fact : Scope × ClassId} (member : fact ∈ after.facts) (drained : fact ∉ after.events) :
    fact ∈ before.facts ∧ fact ∉ before.events :=
  ⟨(grown.queued fact member).resolve_right drained,
    fun queued => drained (grown.events.subset queued)⟩

section Steps

variable (coherent : Coherent setting state) (settled : Settled setting state)
include coherent settled

/-- Drawing the consequences of the next fact. -/
theorem Settled.draw {scope : Scope} {id : ClassId} {events : List (Scope × ClassId)}
    (next : state.events = (scope, id) :: events) :
    Settled setting (draw setting scope id { state with events }) := by
  have present : (scope, id) ∈ state.facts := coherent.queued _ (next ▸ List.mem_cons_self)
  have tracked := coherent.tracked_of_mem present
  have waits : ∀ parked ∈ state.parked, Waits setting { state with events } parked :=
    fun parked member => (coherent.waits parked member).congr rfl rfl
  have taken : Coherent setting (withoutWaiting scope id { state with events }) :=
    Takes.coherent coherent (.event next)
  obtain ⟨changes, linked⟩ := draw_changes { state with events } tracked present waits
  have grown := changes.extends
  refine ⟨?_, ?_, ?_⟩
  · intro fact member drained
    obtain ⟨known, notQueued⟩ := grown.notQueued member drained
    by_cases same : fact = (scope, id)
    · rw [same]
      exact draw_drawn tracked present taken waits
    · refine drawn_draw tracked present waits known fun target follows => ?_
      refine settled.drawn fact known ?_ target (follows.congr rfl rfl rfl)
      rw [next]
      exact fun queued => (List.mem_cons.mp queued).elim same notQueued
  · intro site resolved call isCall
    obtain ⟨laidOut, done⟩ := grown.resolved resolved
    obtain ⟨recognised, answers, direct, received⟩ :=
      settled.handled site ⟨laidOut, done⟩ call isCall
    refine ⟨recognised, answers,
      fun callee selected => grown.edges _ (direct callee selected.any_facts), ?_⟩
    intro virtual _ receiver callee receives
    rcases received virtual tracked receiver callee receives with parked | ⟨arrived, edge⟩
    · by_cases taken : receiver = id ∧ setting.scopeOf site.method = scope
      · obtain ⟨rfl, rfl⟩ := taken
        exact .inr ⟨grown.facts _ present, linked _ parked rfl rfl call isCall⟩
      · exact .inl (grown.parked _ (Parked.mem_remaining.mpr ⟨parked, taken⟩))
    · exact .inr ⟨grown.facts _ arrived,
        grown.linked ⟨edge.edge, edge.arrived⟩⟩
  · intro _ method reachable statement stands
    rw [grown.reachable_eq] at reachable
    exact grown.absorbed
      ((settled.absorbed tracked method reachable statement stands).congr rfl rfl rfl)

/-- Resolving the next call site. -/
theorem Settled.resolve {site : Site} {sites : List Site} {after : State}
    (drained : state.events = []) (next : state.sites = site :: sites)
    (resolved : resolveSite setting site { state with sites } = .ok after) :
    Settled setting after := by
  have takes : Takes setting state { state with sites } := .site drained next
  obtain ⟨actions, handled⟩ := resolveSite_actions { state with sites }
    (coherent.sites site (next ▸ List.mem_cons_self)) (takes.coherent coherent) resolved
  have grown := actions.extends
  refine ⟨?_, ?_, ?_⟩
  · intro fact member drained
    obtain ⟨known, notQueued⟩ := grown.notQueued member drained
    exact Actions.drawn (coherent.tracked_of_mem known) actions known fun target follows =>
      settled.drawn fact known notQueued target (follows.congr rfl rfl rfl)
  · intro other resolved call isCall
    obtain ⟨laidOut, done⟩ := grown.resolved resolved
    by_cases same : other = site
    · rw [same] at isCall ⊢
      exact handled call isCall
    · have notQueued : other ∉ state.sites := by
        rw [next]
        exact fun queued => (List.mem_cons.mp queued).elim same done
      exact grown.handled ((settled.handled other ⟨laidOut, notQueued⟩ call isCall).congr rfl rfl rfl)
  · intro tracked method reachable statement stands
    rw [grown.reachable_eq] at reachable
    exact grown.absorbed
      ((settled.absorbed tracked method reachable statement stands).congr rfl rfl rfl)

/-- Processing the next method. -/
theorem Settled.process {method : MethodId} {methods : List MethodId} {after : State}
    (idle : state.sites = [])
    (processed : processMethod setting method { state with methods } = .ok after) :
    Settled setting after := by
  rcases processMethod_actions { state with methods } processed with ⟨_, rfl⟩ |
    ⟨fresh, _, actions, absorbed⟩
  · refine ⟨?_, ?_, ?_⟩
    · exact fun fact member drained target follows =>
        settled.drawn fact member drained target (follows.congr rfl rfl rfl)
    · exact fun site resolved call isCall =>
        (settled.handled site ⟨resolved.laidOut, resolved.done⟩ call isCall).congr rfl rfl rfl
    · exact fun tracked method reachable statement stands =>
        (settled.absorbed tracked method reachable statement stands).congr rfl rfl rfl
  · have grown := actions.extends
    have graph := state.graph.discover_of_fresh (setting.program.callSites method) fresh
    have edges : (State.discover setting method { state with methods }).graph.edges =
        state.graph.edges := by
      show (state.graph.discover _ _).edges = _
      rw [graph]
    refine ⟨?_, ?_, ?_⟩
    · intro fact member drained
      obtain ⟨known, notQueued⟩ := grown.notQueued member drained
      exact Actions.drawn (coherent.tracked_of_mem known) actions known fun target follows =>
        settled.drawn fact known notQueued target (follows.congr edges rfl rfl)
    · intro site resolved call isCall
      obtain ⟨⟨caller, reachable, isSite⟩, done⟩ := grown.resolved resolved
      rcases (mem_reachable_discover fresh).mp reachable with old | rfl
      · have notQueued : site ∉ state.sites := by
          rw [idle]
          exact List.not_mem_nil
        exact grown.handled ((settled.handled site ⟨⟨caller, old, isSite⟩, notQueued⟩ call
          isCall).congr edges rfl rfl)
      · exact absurd isSite done
    · intro tracked caller reachable statement stands
      rw [grown.reachable_eq] at reachable
      rcases (mem_reachable_discover fresh).mp reachable with old | rfl
      · exact grown.absorbed ((settled.absorbed tracked caller old statement stands).congr rfl rfl rfl)
      · exact absorbed tracked statement stands

end Steps

/-- **A step leaves nothing undone behind it.** -/
theorem Settled.step {next : State} (coherent : Coherent setting state)
    (settled : Settled setting state) (stepped : step setting state = some (.ok next)) :
    Settled setting next := by
  rcases step_cases stepped with ⟨scope, id, events, waiting, same⟩ |
    ⟨site, sites, drained, waiting, same⟩ | ⟨method, methods, drained, idle, waiting, same⟩
  · cases same
    exact settled.draw coherent waiting
  · exact settled.resolve coherent drained waiting same.symm
  · exact settled.process coherent idle same.symm

theorem Reaches.settled {entry : MethodId} {past : List State}
    (reaches : Reaches setting entry past state) : Settled setting state := by
  induction reaches with
  | initial => exact .initial setting entry
  | step reaches stepped hyp => exact hyp.step reaches.coherent stepped

/-! ### Methods on their way -/

/-- A method is reachable or on its way to become so. -/
def Arrives (state : State) (method : MethodId) : Prop :=
  method ∈ state.graph.reachable ∨ method ∈ state.methods

theorem Change.arrives {before after : State} (change : Change setting before after)
    {method : MethodId} (arrives : Arrives before method) : Arrives after method :=
  arrives.imp change.extends.reachable fun queued => change.extends.methods.subset queued

/-- Taking something off a queue adds no edges. -/
theorem Takes.edges {before after : State} (takes : Takes setting before after) :
    after.graph.edges = before.graph.edges := by
  cases takes with
  | event next => rfl
  | site drained next => rfl
  | known drained idle next known => rfl
  | @discovered method methods drained idle next fresh inRange =>
    show (before.graph.discover method _).edges = _
    rw [before.graph.discover_of_fresh _ fresh]

/-- A new edge is linkable, and its callee is reachable or queued with it. -/
theorem Change.mem_edges {before after : State} (change : Change setting before after) {edge : Edge}
    (member : edge ∈ after.graph.edges) : edge ∈ before.graph.edges ∨
      (∃ call receiver, edge.kind = call.kind ∧
        Linkable setting before edge.site call receiver edge.callee) ∧
      Arrives after edge.callee := by
  cases change with
  | @fact scope id tracked fresh cause =>
    rw [before.addFact_of_fresh fresh] at member
    exact .inl member
  | @edge site call receiver callee linkable fresh recorded =>
    rcases SortedSet.mem_insert.mp member with rfl | old
    · refine .inr ⟨⟨call, receiver, rfl, linkable⟩, ?_⟩
      by_cases known : before.graph.contains callee
      · exact .inl (before.graph.contains_iff.mp known)
      · right
        show callee ∈ before.methods ++ if before.graph.contains callee then [] else [callee]
        rw [if_neg known]
        exact List.mem_append_right _ (List.mem_singleton_self callee)
    · exact .inl old
  | linked linkable virtual => exact .inl member
  | asked answer => exact .inl member
  | parked tracked waits absent fresh => exact .inl member
  | stored reachable stands holds => exact .inl member
  | loaded reachable stands holds => exact .inl member
  | remarked diagnostic remark => exact .inl member

theorem Takes.arrives {before after : State} (takes : Takes setting before after)
    {method : MethodId} (arrives : Arrives before method) : Arrives after method := by
  cases takes with
  | event next => exact arrives
  | site drained next => exact arrives
  | known drained idle next known =>
    unfold Arrives at arrives
    rw [next, List.mem_cons] at arrives
    rcases arrives with reachable | rfl | queued
    · exact .inl reachable
    · exact .inl known
    · exact .inr queued
  | discovered drained idle next fresh inRange =>
    unfold Arrives at arrives
    rw [next, List.mem_cons] at arrives
    rcases arrives with reachable | rfl | queued
    · exact .inl ((mem_reachable_discover fresh).mpr (.inl reachable))
    · exact .inl ((mem_reachable_discover fresh).mpr (.inr rfl))
    · exact .inr queued

/-- **The entry and the callees of all edges are reachable or on their way.** -/
theorem Reaches.arrives {entry : MethodId} {past : List State}
    (reaches : Reaches setting entry past state) :
    Arrives state entry ∧ ∀ edge ∈ state.graph.edges, Arrives state edge.callee := by
  refine reaches.preserve (fun state =>
    Arrives state entry ∧ ∀ edge ∈ state.graph.edges, Arrives state edge.callee) ?_ ?_ ?_
  · exact ⟨.inr (List.mem_singleton_self entry),
      fun edge member => absurd member (SortedSet.not_mem_empty edge)⟩
  · rintro before after _ ⟨entry, callees⟩ takes
    exact ⟨takes.arrives entry, fun edge member =>
      takes.arrives (callees edge (takes.edges ▸ member))⟩
  · rintro before after ⟨entry, callees⟩ change
    refine ⟨change.arrives entry, fun edge member => ?_⟩
    rcases change.mem_edges member with old | ⟨_, arrives⟩
    · exact change.arrives (callees edge old)
    · exact arrives

end CallFlow.Construction
