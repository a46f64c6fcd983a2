/-
**Parked calls are replayed at most once.**

A parked call is taken out when its receiver arrives, and then its receiver is there: no call site is
ever parked for it again. So the calls taken out in a whole construction are all different, and those
left in the end wait for receivers that never came.

* `Construction.State.due`: the parked calls that the next step takes out.
* `Construction.Reaches.replays`: what is taken out is never parked again, and the counts are right.
* `Construction.mem_parked_of_idle`: what is left in the end.
* `parkedCalls_protocol`: the whole protocol.
-/

import CallFlow.Proofs.Construction.Solution

namespace CallFlow

namespace Construction

variable {setting : Setting} {entry : MethodId} {past : List State} {state : State}

/-! ### What a step takes out -/

/-- The calls that wait for a fact. -/
def State.waitingFor (state : State) (scope : Scope) (id : ClassId) : List ParkedCall :=
  (state.parked.waiting id scope).map fun waiting => ⟨id, scope, waiting.1, waiting.2⟩

/-- The parked calls that the next step takes out: those that wait for the oldest new fact. -/
def State.due (state : State) : List ParkedCall :=
  match state.events with
  | [] => []
  | (scope, id) :: _ => state.waitingFor scope id

theorem waitingFor_eq_filter (scope : Scope) (id : ClassId) :
    state.waitingFor scope id =
      state.parked.toList.filter fun call => call.receiver = id ∧ call.scope = scope := by
  unfold State.waitingFor Parked.waiting
  induction state.parked.toList with
  | nil => rfl
  | cons call rest hyp =>
    by_cases waits : call.receiver = id ∧ call.scope = scope
    · obtain ⟨rfl, rfl⟩ := waits
      simp [hyp]
    · simp [waits, hyp]

theorem mem_waitingFor {scope : Scope} {id : ClassId} {call : ParkedCall} :
    call ∈ state.waitingFor scope id ↔
      call ∈ state.parked ∧ call.receiver = id ∧ call.scope = scope := by
  rw [waitingFor_eq_filter, List.mem_filter, decide_eq_true_eq]
  rfl

theorem nodup_waitingFor (scope : Scope) (id : ClassId) : (state.waitingFor scope id).Nodup := by
  rw [waitingFor_eq_filter]
  exact state.parked.nodup_toList.filter _

theorem nodup_due : state.due.Nodup := by
  unfold State.due
  split
  · exact List.nodup_nil
  · exact nodup_waitingFor _ _

theorem mem_parked_of_due {call : ParkedCall} (due : call ∈ state.due) : call ∈ state.parked := by
  unfold State.due at due
  split at due
  · cases due
  · exact (mem_waitingFor.mp due).1

/-- A parked call waits for a fact or remains. -/
theorem size_remaining (scope : Scope) (id : ClassId) :
    (state.waitingFor scope id).length + (state.parked.remaining id scope).size =
      state.parked.size := by
  rw [State.waitingFor, List.length_map]
  exact state.parked.size_remaining id scope

/-! ### Replays are counted -/

theorem connect_replayedCalls (site : Site) (call : Call) (callee : MethodId) :
    (connect setting site call callee state).counters.replayedCalls =
      state.counters.replayedCalls := by
  rw [connect_eq]
  split
  · rfl
  · split
    · rw [seed_eq]
      simp only [State.addAll_replayedCalls]
      rfl
    · rfl

theorem addFact_replayedCalls (scope : Scope) (id : ClassId) :
    (state.addFact scope id).counters.replayedCalls = state.counters.replayedCalls :=
  state.addAll_replayedCalls [(scope, id)]

theorem link_replayedCalls (site : Site) (call : Call) (callee : MethodId)
    (receiver : Option ClassId) :
    (link setting site call callee receiver state).counters.replayedCalls =
      state.counters.replayedCalls := by
  unfold link
  rw [connect_replayedCalls]
  split <;> split <;> simp only [addFact_replayedCalls]

/-- An operation that makes plain remarks replays no call. -/
theorem Action.replayedCalls {before after : State} (action : Action setting IsPlain before after) :
    after.counters.replayedCalls = before.counters.replayedCalls := by
  cases action with
  | fact tracked cause => exact addFact_replayedCalls _ _
  | connected linkable recorded => exact connect_replayedCalls _ _ _
  | linked linkable virtual => rfl
  | asked answer => rfl
  | parked tracked waits absent fresh => rfl
  | stored tracked reachable stands =>
    rw [addStore_eq]
    split
    · rfl
    · exact State.addAll_replayedCalls _ _
  | loaded tracked reachable stands =>
    rw [addLoad_eq]
    split
    · rfl
    · exact State.addAll_replayedCalls _ _
  | remarked diagnostic remark permitted =>
    cases diagnostic with
    | replaying site callee => exact permitted.elim
    | _ => rfl

theorem Actions.replayedCalls {before after : State} (actions : Actions setting IsPlain before after) :
    after.counters.replayedCalls = before.counters.replayedCalls := by
  induction actions with
  | refl => rfl
  | tail _ action hyp => exact action.replayedCalls.trans hyp

theorem replay_replayedCalls (id : ClassId) (waiting : Site × MethodId) :
    (replay setting id state waiting).counters.replayedCalls =
      state.counters.replayedCalls + 1 := by
  unfold replay
  cases isCall : setting.program.call? waiting.1 with
  | none =>
    simp only [isCall]
    rfl
  | some call =>
    simp only [isCall, link_replayedCalls]
    rfl

/-- A draw replays the calls that wait for the fact. -/
theorem draw_replayedCalls (scope : Scope) (id : ClassId) :
    (draw setting scope id state).counters.replayedCalls =
      state.counters.replayedCalls + (state.waitingFor scope id).length := by
  have counted (waiting : List (Site × MethodId)) (state : State) :
      (waiting.foldl (replay setting id) state).counters.replayedCalls =
        state.counters.replayedCalls + waiting.length := by
    induction waiting generalizing state with
    | nil => rfl
    | cons first rest hyp =>
      rw [List.foldl_cons, hyp, replay_replayedCalls, List.length_cons]
      omega
  rw [draw_eq, State.addAll_replayedCalls]
  unfold replayAll State.waitingFor
  rw [counted, List.length_map]

/-- **A step replays the calls that are due.** -/
theorem step_replayedCalls {next : State} (coherent : Coherent setting state)
    (stepped : step setting state = some (.ok next)) :
    next.counters.replayedCalls = state.counters.replayedCalls + state.due.length := by
  unfold State.due
  rcases step_cases stepped with ⟨scope, id, events, waiting, same⟩ |
    ⟨site, sites, drained, waiting, same⟩ | ⟨method, methods, drained, idle, waiting, same⟩
  · cases same
    rw [waiting]
    exact draw_replayedCalls scope id
  · rw [drained]
    obtain ⟨actions, _⟩ := resolveSite_actions { state with sites }
      (coherent.sites site (waiting ▸ List.mem_cons_self))
      (Takes.coherent coherent (.site drained waiting)) same.symm
    have unchanged := Actions.replayedCalls actions
    exact unchanged
  · rw [drained]
    rcases processMethod_actions { state with methods } same.symm with ⟨_, rfl⟩ | ⟨_, _, actions, _⟩
    · rfl
    · have unchanged := Actions.replayedCalls actions
      exact unchanged

/-! ### What is taken out is never parked again -/

/-- A call that is not parked and whose receiver is there. -/
structure Done (state : State) (call : ParkedCall) : Prop where
  unparked : call ∉ state.parked
  present : (call.scope, call.receiver) ∈ state.facts

theorem Change.done {before after : State} (change : Change setting before after)
    {call : ParkedCall} (done : Done before call) : Done after call := by
  refine ⟨?_, change.extends.facts _ done.present⟩
  cases change with
  | @fact scope id tracked fresh cause =>
    rw [before.addFact_of_fresh fresh]
    exact done.unparked
  | edge linkable fresh recorded => exact done.unparked
  | linked linkable virtual => exact done.unparked
  | asked answer => exact done.unparked
  | parked tracked waits absent fresh =>
    intro member
    rcases Parked.mem_park.mp member with rfl | old
    · exact absent done.present
    · exact done.unparked old
  | stored reachable stands holds => exact done.unparked
  | loaded reachable stands holds => exact done.unparked
  | remarked diagnostic remark => exact done.unparked

theorem Takes.done {before after : State} (takes : Takes setting before after) {call : ParkedCall}
    (done : Done before call) : Done after call := by
  cases takes with
  | event next => exact ⟨fun member => done.unparked (Parked.mem_remaining.mp member).1, done.present⟩
  | site drained next => exact ⟨done.unparked, done.present⟩
  | known drained idle next known => exact ⟨done.unparked, done.present⟩
  | discovered drained idle next fresh inRange => exact ⟨done.unparked, done.present⟩

/-- What is due is done when it is taken out. -/
theorem Takes.done_of_due {before after : State} (coherent : Coherent setting before)
    (takes : Takes setting before after) {call : ParkedCall} (due : call ∈ before.due) :
    Done after call := by
  unfold State.due at due
  cases takes with
  | @event scope id events next =>
    rw [next] at due
    obtain ⟨_, rfl, rfl⟩ := mem_waitingFor.mp due
    exact ⟨fun member => (Parked.mem_remaining.mp member).2 ⟨rfl, rfl⟩,
      coherent.queued _ (next ▸ List.mem_cons_self)⟩
  | site drained next => rw [drained] at due; cases due
  | known drained idle next known => rw [drained] at due; cases due
  | discovered drained idle next fresh inRange => rw [drained] at due; cases due

/-- Parking counts what it parks. -/
theorem Change.parkedCalls {before after : State} (change : Change setting before after) :
    after.counters.parkedCalls + before.parked.size =
      before.counters.parkedCalls + after.parked.size := by
  cases change with
  | @fact scope id tracked fresh cause => rw [before.addFact_of_fresh fresh]
  | edge linkable fresh recorded => rfl
  | linked linkable virtual => rfl
  | asked answer => rfl
  | @parked call tracked waits absent fresh =>
    have size : (before.parked.park call).size = before.parked.size + 1 :=
      SortedSet.size_insert fresh
    show before.counters.parkedCalls + 1 + before.parked.size =
      before.counters.parkedCalls + (before.parked.park call).size
    omega
  | stored reachable stands holds => rfl
  | loaded reachable stands holds => rfl
  | remarked diagnostic remark => cases diagnostic <;> rfl

/-- What is taken out is no longer parked. -/
theorem Takes.parkedCalls {before after : State} (takes : Takes setting before after) :
    after.counters.parkedCalls = before.counters.parkedCalls ∧
      before.due.length + after.parked.size = before.parked.size := by
  unfold State.due
  cases takes with
  | @event scope id events next =>
    rw [next]
    exact ⟨rfl, size_remaining scope id⟩
  | site drained next =>
    rw [drained]
    exact ⟨rfl, Nat.zero_add _⟩
  | known drained idle next known =>
    rw [drained]
    exact ⟨rfl, Nat.zero_add _⟩
  | discovered drained idle next fresh inRange =>
    rw [drained]
    exact ⟨rfl, Nat.zero_add _⟩

/-- What the replays so far have done: the calls taken out are all different, none of them is parked
any more, and they are counted. -/
structure Replays (past : List State) (state : State) : Prop where
  distinct : (past.flatMap State.due).Nodup
  done : ∀ call ∈ past.flatMap State.due, Done state call
  replayedCalls : state.counters.replayedCalls = (past.flatMap State.due).length
  parkedCalls : state.counters.parkedCalls = (past.flatMap State.due).length + state.parked.size

/-- **No call is replayed twice, and what was replayed is never parked again.** -/
theorem Reaches.replays (reaches : Reaches setting entry past state) : Replays past state := by
  induction reaches with
  | initial => exact ⟨List.nodup_nil, fun call member => absurd member List.not_mem_nil, rfl, rfl⟩
  | @step past state next reaches stepped hyp =>
    have coherent := reaches.coherent
    obtain ⟨taken, takes, changes⟩ := step_changes coherent stepped
    have counted := step_replayedCalls coherent stepped
    obtain ⟨unchanged, removed⟩ := takes.parkedCalls
    have parked : next.counters.parkedCalls + taken.parked.size =
        taken.counters.parkedCalls + next.parked.size := by
      clear stepped counted
      induction changes with
      | refl => rfl
      | tail _ change hyp =>
        have last := change.parkedCalls
        omega
    have doneBefore := hyp.done
    have counts := hyp.replayedCalls
    have parkedBefore := hyp.parkedCalls
    have history : (past ++ [state]).flatMap State.due = past.flatMap State.due ++ state.due := by
      rw [List.flatMap_append, List.flatMap_singleton]
    refine ⟨?_, ?_, ?_, ?_⟩
    · rw [history, List.nodup_append]
      refine ⟨hyp.distinct, nodup_due, fun earlier member now due same => ?_⟩
      exact (doneBefore earlier member).unparked (same ▸ mem_parked_of_due due)
    · rw [history]
      intro call member
      have done : Done taken call := by
        rcases List.mem_append.mp member with earlier | now
        · exact takes.done (doneBefore call earlier)
        · exact takes.done_of_due coherent now
      exact reflTransGen_preserves (fun done change => change.done done) changes done
    · rw [history, List.length_append]
      omega
    · rw [history, List.length_append]
      omega

/-! ### What is left -/

/-- **What is left parked in the end** is each virtual call of a reachable method with each receiver
that never came into the scope of its caller. -/
theorem mem_parked_of_idle (tracked : setting.granularity.tracksInstantiation = true)
    (reaches : Reaches setting entry past state) (idle : step setting state = none)
    {parked : ParkedCall} : parked ∈ state.parked ↔
      parked.site.method ∈ state.graph.reachable ∧
      parked.scope = setting.scopeOf parked.site.method ∧
      (∃ call, setting.program.call? parked.site = some call ∧ call.kind.isVirtual = true ∧
        setting.Receives call.target parked.receiver parked.callee) ∧
      (parked.scope, parked.receiver) ∉ state.facts := by
  obtain ⟨drained, _, _⟩ := step_eq_none_iff.mp idle
  have coherent := reaches.coherent
  constructor
  · intro member
    obtain ⟨reachable, scope_eq, call, isCall, virtual, _, receives⟩ := coherent.waits parked member
    refine ⟨reachable, scope_eq, ⟨call, isCall, virtual, receives⟩, fun present => ?_⟩
    have queued := coherent.absent parked member present
    rw [drained] at queued
    exact absurd queued List.not_mem_nil
  · rintro ⟨reachable, scope_eq, ⟨call, isCall, virtual, receives⟩, absent⟩
    rcases (handled_of_idle reaches idle reachable isCall).received virtual tracked _ _ receives with
      member | ⟨present, _⟩
    · rw [← scope_eq] at member
      exact member
    · rw [← scope_eq] at present
      exact absurd present absent

/-- A parked call is told by its site and its receiver. -/
theorem parked_unique (coherent : Coherent setting state) {first second : ParkedCall}
    (left : first ∈ state.parked) (right : second ∈ state.parked) (site : first.site = second.site)
    (receiver : first.receiver = second.receiver) : first = second := by
  obtain ⟨_, firstScope, firstCall, firstIs, _, _, firstReceives⟩ := coherent.waits first left
  obtain ⟨_, secondScope, secondCall, secondIs, _, _, secondReceives⟩ := coherent.waits second right
  obtain ⟨_, _, _, firstCallee⟩ := first
  obtain ⟨_, _, _, secondCallee⟩ := second
  cases site
  cases receiver
  cases firstScope.trans secondScope.symm
  rw [firstIs] at secondIs
  cases secondIs
  have same := firstReceives.2.symm.trans secondReceives.2
  cases same
  rfl

/-- A fact that is there stays there. -/
theorem Reaches.facts_subset (reaches : Reaches setting entry past state) {earlier : State}
    (member : earlier ∈ past) {fact : Scope × ClassId} (present : fact ∈ earlier.facts) :
    fact ∈ state.facts := by
  induction reaches with
  | initial => exact absurd member List.not_mem_nil
  | @step past state next reaches stepped hyp =>
    obtain ⟨taken, takes, changes⟩ := step_changes reaches.coherent stepped
    have known : fact ∈ state.facts := by
      rcases List.mem_append.mp member with old | last
      · exact hyp old
      · rw [← List.mem_singleton.mp last]
        exact present
    refine (Changes.extends changes).facts fact ?_
    cases takes with
    | event next => exact known
    | site drained next => exact known
    | known drained idle next reachable => exact known
    | discovered drained idle next fresh inRange => exact known

end Construction

/-- **The protocol of parked calls.** In every state of a construction that tracks instantiation, a
parked call waits for a receiver that is absent or still queued, and the calls that have been taken
out are all different, are counted and are no longer parked. A graph that is built leaves exactly
the virtual calls of reachable methods parked on receivers that never came, each once. -/
theorem parkedCalls_protocol {program : Program} {hierarchy : Hierarchy}
    (found : Hierarchy.of? program = some hierarchy) {granularity : Granularity}
    (tracked : granularity.tracksInstantiation = true) (entry : MethodId) :
    (∀ past state, Construction.Reaches ⟨hierarchy, granularity⟩ entry past state →
      (∀ parked ∈ state.parked, Construction.Waits ⟨hierarchy, granularity⟩ state parked ∧
        ((parked.scope, parked.receiver) ∈ state.facts →
          (parked.scope, parked.receiver) ∈ state.events)) ∧
      Construction.Replays past state) ∧
    ∀ output, buildGraph program granularity entry = .ok output →
      output.statistics.parkedCalls =
        output.statistics.replayedCalls + output.statistics.callsLeftParked ∧
      ∃ run past, constructGraph program granularity entry = .ok run ∧
        Construction.Reaches ⟨hierarchy, granularity⟩ entry past run.state ∧
        run.state.graph = output.graph ∧
        run.state.parked.size = output.statistics.callsLeftParked ∧
        (∀ first ∈ run.state.parked, ∀ second ∈ run.state.parked, first.site = second.site →
          first.receiver = second.receiver → first = second) ∧
        ∀ site id, (∃ parked ∈ run.state.parked, parked.site = site ∧ parked.receiver = id) ↔
          site.method ∈ output.graph.reachable ∧
          (∃ call callee, program.call? site = some call ∧ call.kind.isVirtual = true ∧
            id ∈ hierarchy.concreteSubtypes call.target.owner ∧
            hierarchy.dispatch id call.target.member = .ok (some callee)) ∧
          ∀ met ∈ past ++ [run.state], (granularity.methodScope site.method, id) ∉ met.facts := by
  obtain rfl := Hierarchy.program_of? found
  refine ⟨fun past state reaches => ⟨fun parked member => ⟨reaches.coherent.waits parked member,
    reaches.coherent.absent parked member⟩, reaches.replays⟩, fun output built => ?_⟩
  obtain ⟨run, constructed, finished, rfl⟩ := buildGraph_eq_ok.mp built
  obtain ⟨other, same, rfl⟩ := constructGraph_eq_ok.mp constructed
  rw [found] at same
  cases same
  obtain ⟨past, reaches, idle⟩ := reaches_of_finished finished
  have replays := reaches.replays
  refine ⟨?_, _, past, constructed, reaches, rfl, rfl, fun first left second right =>
    Construction.parked_unique reaches.coherent left right, fun site id => ⟨?_, ?_⟩⟩
  · exact replays.parkedCalls.trans (congrArg (· + _) replays.replayedCalls.symm)
  · rintro ⟨parked, member, rfl, rfl⟩
    obtain ⟨reachable, scope_eq, ⟨call, isCall, virtual, receives⟩, absent⟩ :=
      (Construction.mem_parked_of_idle tracked reaches idle).mp member
    refine ⟨reachable, ⟨call, _, isCall, virtual, receives⟩, fun met member present => absent ?_⟩
    rw [scope_eq]
    rcases List.mem_append.mp member with earlier | last
    · exact reaches.facts_subset earlier present
    · rw [List.mem_singleton.mp last] at present
      exact present
  · rintro ⟨reachable, ⟨call, callee, isCall, virtual, receives⟩, absent⟩
    refine ⟨⟨id, granularity.methodScope site.method, site, callee⟩, ?_, rfl, rfl⟩
    exact (Construction.mem_parked_of_idle tracked reaches idle).mpr ⟨reachable, rfl,
      ⟨call, isCall, virtual, receives⟩,
      absent _ (List.mem_append_right _ (List.mem_singleton_self _))⟩

/-- The area of the circles is left. -/
theorem parkedCalls_protocol_shapes :
    ∃ output, buildGraph .shapes (Variant.xta.granularity .shapes) ⟨0⟩ = .ok output ∧
      output.statistics.callsLeftParked = 1 ∧
      output.statistics.parkedCalls = output.statistics.replayedCalls + 1 := by
  obtain ⟨hierarchy, found⟩ : ∃ hierarchy, Hierarchy.of? .shapes = some hierarchy :=
    Hierarchy.exists_of? (by decide)
  have tracked : (Variant.xta.granularity .shapes).tracksInstantiation = true := rfl
  obtain ⟨output, built, left⟩ :
      ∃ output, buildGraph .shapes (Variant.xta.granularity .shapes) ⟨0⟩ = .ok output ∧
        output.statistics.callsLeftParked = 1 := ⟨_, rfl, rfl⟩
  obtain ⟨balance, _⟩ := (parkedCalls_protocol found tracked ⟨0⟩).2 output built
  rw [left] at balance
  exact ⟨output, built, left, balance⟩

end CallFlow
