/-
**The statistics account for the result.**

A construction counts while it runs, and the same things may be met more than once: a method stands in
its queue several times, an edge is linked again, a parked call is replayed. What has been counted in
the end can be read off what has been found: the reachable methods, their call sites and the facts.

* `BuildOutput.Accounts`: what each count is the number of.
* `Construction.Reaches.resolve_ends`: the declaration that a resolved call names was looked up to the
  end.
* `buildGraph_statistics`: the statistics of every graph that is built account for it.
-/

import CallFlow.Proofs.Construction.Accounts
import CallFlow.Proofs.Construction.Dispatched
import CallFlow.Proofs.Construction.Parking
import CallFlow.Proofs.Construction.Termination

namespace CallFlow

/-- The scopes that facts are about, ascending. -/
def Facts.scopes (facts : Facts) : SortedSet Scope := .ofList (facts.toList.map Prod.fst)

/-- The call sites of the reachable methods of a graph. -/
def CallGraph.reachableSites (program : Program) (graph : CallGraph) : List Site :=
  graph.reachable.flatMap program.callSites

/-- Whether the call at a site depends on the class of its receiver. -/
def Construction.Setting.isVirtualCall (setting : Construction.Setting) (site : Site) : Bool :=
  (setting.program.call? site).any fun call => call.kind.isVirtual

/-- The statistics of a graph account for the graph and for the facts that its construction ended
with. -/
structure BuildOutput.Accounts (setting : Construction.Setting) (facts : Facts)
    (output : BuildOutput) : Prop where
  methodsProcessed : output.statistics.methodsProcessed = output.graph.reachable.length
  distinct : output.graph.reachable.Nodup
  events : output.statistics.events = output.statistics.facts
  facts : output.statistics.facts =
    (facts.scopes.toList.map fun scope => (facts.classesIn scope).length).sum
  /-- Every virtual call asks for its target once. -/
  questions : output.statistics.cacheHits + output.statistics.cacheMisses =
    (output.graph.reachableSites setting.program).countP setting.isVirtualCall
  misses : output.statistics.cacheMisses =
    ((output.graph.reachableSites setting.program).filterMap setting.virtualTarget?).dedup.length
  unresolvedDynamic : output.statistics.unresolvedDynamic =
    (output.graph.reachableSites setting.program).countP setting.isDynamic
  skippedTargets : output.statistics.skippedTargets =
    (output.graph.reachableSites setting.program).countP setting.isSkipped
  kindMismatches : output.statistics.kindMismatches =
    (output.graph.reachableSites setting.program).countP setting.isMismatched
  /-- A static or special call is skipped if it names no declaration or an abstract one. Otherwise it
  is mismatched if its declaration is static and the call is not, or the other way round. -/
  direct : ∀ site ∈ output.graph.reachableSites setting.program, ∀ call,
    setting.program.call? site = some call → call.kind.isDirect = true →
    ∃ declared, setting.hierarchy.resolve call.target = .ok declared ∧
      (setting.isSkipped site = true ↔
        ∀ callee, declared = some callee → setting.program.isAbstract callee = true) ∧
      (setting.isMismatched site = true ↔
        ∃ callee, declared = some callee ∧ setting.program.isAbstract callee = false ∧
          ¬ (setting.program.isStatic callee = true ↔ call.kind = .static))
  untracked : setting.granularity.tracksInstantiation = false →
    output.statistics.events = 0 ∧ output.statistics.facts = 0 ∧ output.statistics.parkedCalls = 0 ∧
      output.statistics.replayedCalls = 0 ∧ output.statistics.callsLeftParked = 0

namespace Construction

variable {setting : Setting} {entry : MethodId} {past : List State} {state : State}

/-- The targets asked for are those of the virtual calls. -/
theorem length_virtualTargets (sites : List Site) :
    (sites.filterMap setting.virtualTarget?).length = sites.countP setting.isVirtualCall := by
  rw [List.length_filterMap_eq_countP]
  refine List.countP_congr fun site _ => ?_
  unfold Setting.virtualTarget? Setting.isVirtualCall
  cases setting.program.call? site with
  | none => exact Iff.rfl
  | some call => cases virtual : call.kind.isVirtual <;> simp [virtual]

/-- As many questions have been looked up as there are different targets. -/
theorem Asked.misses_eq {targets : List Target} {counts : SiteCounts} (asked : Asked targets counts) :
    counts.misses = targets.dedup.length := by
  have perm : counts.targets.Perm targets.dedup := by
    rw [List.perm_ext_iff_of_nodup asked.distinct (List.nodup_dedup _)]
    intro target
    rw [asked.known, List.mem_dedup]
  rw [asked.misses, perm.length_eq]

/-! ### Declarations -/

/-- A static or special call is resolved after its declaration has been looked up to the end. -/
theorem exists_resolve_of_resolveSite {site : Site} {call : Call} {next : State}
    (isCall : setting.program.call? site = some call) (direct : call.kind.isDirect = true)
    (resolved : resolveSite setting site state = .ok next) :
    ∃ declared, setting.hierarchy.resolve call.target = .ok declared := by
  have declares : resolveDeclared setting site call state = .ok next := by
    unfold resolveSite at resolved
    rw [isCall] at resolved
    simp only at resolved
    unfold CallKind.isDirect at direct
    split at resolved <;> simp_all
  unfold resolveDeclared at declares
  cases found : setting.hierarchy.resolve call.target with
  | error fault => rw [found] at declares; cases declares
  | ok declared => exact ⟨declared, rfl⟩

/-- **What a resolved call names was looked up to the end.** -/
theorem Reaches.resolve_ends (reaches : Reaches setting entry past state) :
    ∀ site ∈ resolved past, ∀ call, setting.program.call? site = some call →
      call.kind.isDirect = true → ∃ declared, setting.hierarchy.resolve call.target = .ok declared := by
  induction reaches with
  | initial => exact nofun
  | @step past state next reaches stepped hyp =>
    intro site among call isCall direct
    unfold resolved at hyp among
    rw [filterMap_concat] at among
    rcases List.mem_append.mp among with earlier | last
    · exact hyp site earlier call isCall direct
    · obtain ⟨sites, drained, waiting⟩ := State.resolved?_eq_some.mp (Option.mem_toList.mp last)
      unfold Construction.step at stepped
      rw [drained, waiting] at stepped
      exact exists_resolve_of_resolveSite isCall direct (Option.some.inj stepped)

/-- What the two counts of static and special calls say about one of them. -/
theorem direct_iff {site : Site} {call : Call} {declared : Option MethodId}
    (isCall : setting.program.call? site = some call) (direct : call.kind.isDirect = true)
    (found : setting.hierarchy.resolve call.target = .ok declared) :
    (setting.isSkipped site = true ↔
      ∀ callee, declared = some callee → setting.program.isAbstract callee = true) ∧
    (setting.isMismatched site = true ↔
      ∃ callee, declared = some callee ∧ setting.program.isAbstract callee = false ∧
        ¬ (setting.program.isStatic callee = true ↔ call.kind = .static)) := by
  have looked : setting.declared? call.target =
      declared.filter fun callee => !setting.program.isAbstract callee := by
    unfold Setting.declared?
    rw [found]
    rfl
  unfold Setting.isSkipped Setting.isMismatched
  rw [isCall, Option.any_some, Option.any_some, direct, looked]
  cases declared with
  | none => simp
  | some callee =>
    cases abstract : setting.program.isAbstract callee with
    | true => simp [abstract]
    | false => cases static : setting.program.isStatic callee <;> simp [abstract, static]

/-! ### Without tracking -/

/-- Without tracking nothing is ever parked, and so nothing is replayed. -/
theorem Reaches.untracked (reaches : Reaches setting entry past state)
    (untracked : setting.granularity.tracksInstantiation = false) :
    state.counters.parkedCalls = 0 ∧ state.counters.replayedCalls = 0 ∧ state.parked.size = 0 := by
  have replays := reaches.replays
  have noFacts := reaches.coherent.untracked untracked
  have noneTaken : past.flatMap State.due = [] :=
    List.eq_nil_iff_forall_not_mem.mpr fun call taken => noFacts.1 _ (replays.done call taken).present
  have noneParked : state.parked.toList = [] := List.eq_nil_iff_forall_not_mem.mpr noFacts.2
  have parked : state.parked.size = 0 := congrArg List.length noneParked
  have parkedCalls := replays.parkedCalls
  have replayedCalls := replays.replayedCalls
  rw [noneTaken] at parkedCalls replayedCalls
  rw [parked] at parkedCalls
  exact ⟨parkedCalls, replayedCalls, parked⟩

/-- **In the end the counts account for what has been found.** -/
theorem accounts_of_idle (reaches : Reaches setting entry past state)
    (idle : step setting state = none) : BuildOutput.Accounts setting state.facts
      ⟨state.graph, state.cache.linkedTargets, state.statistics⟩ := by
  have ledger := reaches.ledger
  have counted := counted_of_idle reaches idle
  have events : state.counters.events = state.facts.size := ledger.events.count_eq_size
  refine ⟨ledger.methodsProcessed, reaches.nodup_reachable, events, state.facts.size_eq_sum, ?_,
    counted.asked.misses_eq, counted.dynamic, counted.skipped, counted.mismatched,
    fun site among call isCall direct => ?_, fun untracked => ?_⟩
  · rw [← length_virtualTargets]
    exact counted.asked.questions
  · obtain ⟨_, drained, _⟩ := step_eq_none_iff.mp idle
    have resolved : site ∈ resolved past := by
      have layout := reaches.layout_eq
      rw [drained, List.append_nil] at layout
      exact layout ▸ among
    obtain ⟨declared, found⟩ := reaches.resolve_ends site resolved call isCall direct
    exact ⟨declared, found, direct_iff isCall direct found⟩
  · have noFacts : state.facts.size = 0 := by
      rw [facts_eq_empty reaches untracked]
      rfl
    exact ⟨events.trans noFacts, noFacts, reaches.untracked untracked⟩

end Construction

/-- **The statistics account for the result.** When a graph is built, as many methods have been processed
as are reachable; there are as many events as facts, and they are the classes of all scopes; the virtual
calls of the reachable methods have asked for their targets once each, and each target has been looked
up once; the dynamic calls, the calls without a declaration to link and those that disagree with their
declaration are counted once each; and without tracking there are no events, no facts and no parked
calls. -/
theorem buildGraph_statistics {program : Program} {granularity : Granularity} {entry : MethodId}
    {output : BuildOutput} (built : buildGraph program granularity entry = .ok output) :
    ∃ hierarchy run, Hierarchy.of? program = some hierarchy ∧
      constructGraph program granularity entry = .ok run ∧ run.state.graph = output.graph ∧
      output.Accounts ⟨hierarchy, granularity⟩ run.state.facts := by
  obtain ⟨run, constructed, finished, rfl⟩ := buildGraph_eq_ok.mp built
  obtain ⟨hierarchy, found, rfl⟩ := constructGraph_eq_ok.mp constructed
  obtain ⟨past, reaches, idle⟩ := reaches_of_finished finished
  exact ⟨hierarchy, _, found, constructed, rfl, Construction.accounts_of_idle reaches idle⟩

/-- The one virtual call among the shapes asks once, and the squares come into two scopes. -/
theorem buildGraph_statistics_shapes :
    ∃ output, buildGraph .shapes (Variant.xta.granularity .shapes) ⟨0⟩ = .ok output ∧
      output.graph.reachable = [⟨0⟩, ⟨2⟩] ∧ output.statistics.methodsProcessed = 2 ∧
      output.statistics.events = 2 ∧ output.statistics.facts = 2 := by
  obtain ⟨output, built, reachable, facts⟩ :
      ∃ output, buildGraph .shapes (Variant.xta.granularity .shapes) ⟨0⟩ = .ok output ∧
        output.graph.reachable = [⟨0⟩, ⟨2⟩] ∧ output.statistics.facts = 2 := ⟨_, rfl, rfl, rfl⟩
  obtain ⟨_, _, _, _, _, accounts⟩ := buildGraph_statistics built
  have processed := accounts.methodsProcessed
  rw [reachable] at processed
  exact ⟨output, built, reachable, processed, accounts.events.trans facts, facts⟩

end CallFlow
