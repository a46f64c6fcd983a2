/-
**What a run says.**

Diagnostics are recorded where the state changes, in the midst of links, replays and draws, and a run may
stop in the midst of a method. Still the records of a state say what has become of it: methods are
processed in the order in which they become reachable, every edge is announced once, and what has been
counted has been recorded as often.

* `Diagnostic.said`: what the diagnostics with one message say.
* `Construction.Logged`, `Construction.Reaches.logged`: the records of every state.
* `Diagnostic.said_eq_map`, `Construction.length_said_eq`: the records of one message, and their number.
* `Construction.Run.Traced`: the diagnostics of a run agree with its graph and its counts.
* `constructGraph_traced`: those of every run do, however it ends.
-/

import CallFlow.Proofs.Construction.Discovery

namespace CallFlow

namespace Diagnostic

/-- The details of the diagnostics with a message, in order. -/
def said (program : Program) (message : String) (diagnostics : List Diagnostic) :
    List (List (String × Detail)) :=
  diagnostics.filterMap fun diagnostic =>
    if diagnostic.message = message then some (diagnostic.details program) else none

/-- The method that is said to be processed. -/
def processed? : Diagnostic → Option MethodId
  | .processing method => some method
  | _ => none

/-- The site and the callee of the edge that is said to be new. -/
def linked? : Diagnostic → Option (Site × MethodId)
  | .newEdge site callee => some (site, callee)
  | _ => none

variable {program : Program} {message : String}

/-- What is said with a message can be read off what the diagnostics are about. -/
theorem said_eq_map {α : Type} {about : Diagnostic → Option α} {details : α → List (String × Detail)}
    (shown : ∀ diagnostic : Diagnostic,
      (if diagnostic.message = message then some (diagnostic.details program) else none) =
        (about diagnostic).map details) (diagnostics : List Diagnostic) :
    said program message diagnostics = (diagnostics.filterMap about).map details := by
  unfold said
  rw [List.map_filterMap]
  exact congrArg (List.filterMap · diagnostics) (funext shown)

theorem said_processing (diagnostics : List Diagnostic) :
    said program "processing method" diagnostics =
      (diagnostics.filterMap processed?).map fun method =>
        [("method", .text (program.methodName method))] := by
  refine said_eq_map (fun diagnostic => ?_) diagnostics
  cases diagnostic <;> simp [message, details, processed?]

theorem said_newEdge (diagnostics : List Diagnostic) :
    said program "new call edge" diagnostics =
      (diagnostics.filterMap linked?).map fun ends =>
        [("site", .text (program.siteName ends.1)), ("callee", .text (program.methodName ends.2))] := by
  refine said_eq_map (fun diagnostic => ?_) diagnostics
  cases diagnostic <;> simp [message, details, linked?]

/-- A message that no diagnostic has is not said. -/
theorem said_eq_nil {diagnostics : List Diagnostic}
    (others : ∀ diagnostic ∈ diagnostics, diagnostic.message ≠ message) :
    said program message diagnostics = [] :=
  List.filterMap_eq_nil_iff.mpr fun diagnostic member => if_neg (others diagnostic member)

end Diagnostic

namespace Construction

variable {setting : Setting} {entry : MethodId} {past : List State} {state : State}

/-! ### The records of a state -/

/-- The counts that go with a record. -/
def Counters.recorded (counters : Counters) : Counters :=
  { counters with methodsProcessed := 0, events := 0, parkedCalls := 0 }

/-- **What the records amount to**, the latest first: the methods processed are the reachable ones, the
edges announced are those of the graph, in some order, and the counts are those of the records. -/
structure Logged (graph : CallGraph) (counts : Counters) (log : List Diagnostic) : Prop where
  processed : log.reverse.filterMap Diagnostic.processed? = graph.reachable
  linked : ∃ edges : List Edge, edges.Perm graph.edges.toList ∧
    log.reverse.filterMap Diagnostic.linked? = edges.map fun edge => (edge.site, edge.callee)
  counted : counts = log.foldr tally {}
  unfinished : ∀ diagnostic ∈ log, diagnostic.message ≠ "call graph construction finished"

namespace Logged

variable {graph : CallGraph} {counts : Counters} {log : List Diagnostic}

theorem initial (entry : MethodId) : Logged { entry } {} [] :=
  ⟨rfl, ⟨[], .nil, rfl⟩, rfl, nofun⟩

variable (logged : Logged graph counts log)
include logged

/-- A method that becomes reachable is recorded last. -/
theorem processing {method : MethodId} (sites : List Site) (fresh : method ∉ graph.reachable) :
    Logged (graph.discover method sites) counts (.processing method :: log) := by
  rw [graph.discover_of_fresh sites fresh]
  obtain ⟨edges, same, linked⟩ := logged.linked
  refine ⟨?_, ⟨edges, same, ?_⟩, logged.counted, ?_⟩
  · simp [logged.processed, Diagnostic.processed?, CallGraph.reachable]
  · simp [linked, Diagnostic.linked?]
  · exact List.forall_mem_cons.mpr ⟨by simp [Diagnostic.message], logged.unfinished⟩

/-- An edge that is new is recorded last. -/
theorem newEdge {edge : Edge} (fresh : edge ∉ graph.edges) :
    Logged (graph.connect edge) counts (.newEdge edge.site edge.callee :: log) := by
  obtain ⟨edges, same, linked⟩ := logged.linked
  have distinct : (edges ++ [edge]).Nodup := by
    rw [← List.concat_eq_append]
    refine (same.nodup_iff.mpr graph.edges.nodup_toList).concat fun member => fresh ?_
    exact same.mem_iff.mp member
  have perm : (edges ++ [edge]).Perm (graph.edges.insert edge).toList := by
    refine (List.perm_ext_iff_of_nodup distinct (SortedSet.nodup_toList _)).mpr fun other => ?_
    simp [same.mem_iff, or_comm]
  refine ⟨?_, ⟨edges ++ [edge], perm, ?_⟩, logged.counted, ?_⟩
  · simp [logged.processed, Diagnostic.processed?, CallGraph.reachable, CallGraph.connect]
  · simp [linked, Diagnostic.linked?]
  · exact List.forall_mem_cons.mpr ⟨by simp [Diagnostic.message], logged.unfinished⟩

/-- A remark is counted when it is recorded. -/
theorem remark {diagnostic : Diagnostic} (isRemark : IsRemark diagnostic) :
    Logged graph (tally diagnostic counts) (diagnostic :: log) := by
  have silent : diagnostic.processed? = none ∧ diagnostic.linked? = none ∧
      diagnostic.message ≠ "call graph construction finished" := by
    cases diagnostic <;>
      simp_all [IsRemark, Diagnostic.processed?, Diagnostic.linked?, Diagnostic.message]
  obtain ⟨processed, linked, message⟩ := silent
  obtain ⟨edges, same, announced⟩ := logged.linked
  refine ⟨?_, ⟨edges, same, ?_⟩, ?_, List.forall_mem_cons.mpr ⟨message, logged.unfinished⟩⟩
  · simp [processed, logged.processed]
  · simp [linked, announced]
  · rw [List.foldr_cons, ← logged.counted]

end Logged

/-- A record is counted the same without the counts that go with none. -/
theorem recorded_tally (diagnostic : Diagnostic) (counters : Counters) :
    (tally diagnostic counters).recorded = tally diagnostic counters.recorded := by
  cases diagnostic <;> rfl

/-- What is taken off a queue is recorded if it is a method that becomes reachable. -/
theorem Takes.logged {before after : State} (takes : Takes setting before after)
    (logged : Logged before.graph before.counters.recorded before.log) :
    Logged after.graph after.counters.recorded after.log := by
  cases takes with
  | event next => exact logged
  | site drained next => exact logged
  | known drained idle next known => exact logged
  | discovered drained idle next fresh inRange => exact logged.processing _ fresh

/-- A change is recorded if it adds an edge or is a remark. -/
theorem Change.logged {before after : State} (change : Change setting before after)
    (logged : Logged before.graph before.counters.recorded before.log) :
    Logged after.graph after.counters.recorded after.log := by
  cases change with
  | fact tracked fresh cause =>
    rw [before.addFact_of_fresh fresh]
    exact logged
  | edge linkable fresh recorded => exact logged.newEdge fresh
  | linked linkable virtual => exact logged
  | asked answer => exact logged
  | parked tracked waits absent fresh => exact logged
  | stored reachable stands holds => exact logged
  | loaded reachable stands holds => exact logged
  | remarked diagnostic isRemark =>
    show Logged before.graph (tally diagnostic before.counters).recorded (diagnostic :: before.log)
    rw [recorded_tally]
    exact logged.remark isRemark

/-- **The records of every state** say what has become of it. -/
theorem Reaches.logged (reaches : Reaches setting entry past state) :
    Logged state.graph state.counters.recorded state.log :=
  reaches.preserve (fun state => Logged state.graph state.counters.recorded state.log)
    (.initial entry) (fun _ logged takes => takes.logged logged) fun logged change => change.logged logged

/-- The kind of an edge is that of the call at its site, so its site and its callee tell it from all
other edges. -/
theorem Reaches.nodup_ends (reaches : Reaches setting entry past state) {edges : List Edge}
    (same : edges.Perm state.graph.edges.toList) :
    (edges.map fun edge => (edge.site, edge.callee)).Nodup := by
  have distinct : edges.Nodup := same.nodup_iff.mpr state.graph.edges.nodup_toList
  refine distinct.map_on fun first left second right equal => ?_
  obtain ⟨call, isCall, kind, _⟩ := (reaches.justified first (same.mem_iff.mp left)).statement
  obtain ⟨other, isOther, otherKind, _⟩ := (reaches.justified second (same.mem_iff.mp right)).statement
  obtain ⟨site, callee⟩ := Prod.mk.inj equal
  rw [site, isOther] at isCall
  cases isCall
  cases first
  cases second
  simp_all

/-! ### Runs -/

/-- The messages that are counted, with their counts. -/
def countedMessages : List (String × (Counters → Nat)) :=
  [("replaying pending call edge", Counters.replayedCalls),
    ("cannot resolve dynamic call site", Counters.unresolvedDynamic),
    ("no concrete declaration for call target", Counters.skippedTargets),
    ("call kind disagrees with the callee's static flag", Counters.kindMismatches)]

/-- Nothing is counted at the start, and success is not counted. -/
theorem initial_countedMessages : ∀ counted ∈ countedMessages,
    counted.2 {} = 0 ∧ "call graph construction finished" ≠ counted.1 := by
  simp [countedMessages]

/-- A record adds one to the count of its message, and nothing to the other ones. -/
theorem tally_countedMessages : ∀ counted ∈ countedMessages, ∀ diagnostic counters,
    counted.2 (tally diagnostic counters) =
      counted.2 counters + if diagnostic.message = counted.1 then 1 else 0 := by
  simp only [countedMessages, List.forall_mem_cons]
  refine ⟨?_, ?_, ?_, ?_, nofun⟩ <;> intro diagnostic counters <;> cases diagnostic <;>
    simp [tally, Diagnostic.message]

/-- What is counted is said as often. -/
theorem length_said_eq (program : Program) {counted : String × (Counters → Nat)}
    (member : counted ∈ countedMessages) (log : List Diagnostic) :
    (Diagnostic.said program counted.1 log.reverse).length = counted.2 (log.foldr tally {}) := by
  unfold Diagnostic.said
  rw [List.filterMap_reverse, List.length_reverse]
  induction log with
  | nil => exact (initial_countedMessages counted member).1.symm
  | cons diagnostic rest hyp =>
    rw [List.foldr_cons, tally_countedMessages counted member, ← hyp, List.filterMap_cons]
    by_cases said : diagnostic.message = counted.1
    · simp [said]
    · simp [said]

/-- The diagnostics of a run agree with the graph and the counts that it ends with. -/
structure Run.Traced (program : Program) (run : Run) : Prop where
  /-- The methods processed are the reachable ones, in the order of their discovery. -/
  processed : Diagnostic.said program "processing method" run.diagnostics =
    run.state.graph.reachable.map fun method => [("method", .text (program.methodName method))]
  /-- The edges announced are those of the graph, each of them once. -/
  announced : ∃ edges : List Edge, edges.Perm run.state.graph.edges.toList ∧
    (edges.map fun edge => (edge.site, edge.callee)).Nodup ∧
    Diagnostic.said program "new call edge" run.diagnostics = edges.map fun edge =>
      [("site", .text (program.siteName edge.site)),
        ("callee", .text (program.methodName edge.callee))]
  edges : (Diagnostic.said program "new call edge" run.diagnostics).length = run.state.graph.edges.size
  replayed : (Diagnostic.said program "replaying pending call edge" run.diagnostics).length =
    run.state.statistics.replayedCalls
  dynamic : (Diagnostic.said program "cannot resolve dynamic call site" run.diagnostics).length =
    run.state.statistics.unresolvedDynamic
  skipped : (Diagnostic.said program "no concrete declaration for call target" run.diagnostics).length =
    run.state.statistics.skippedTargets
  mismatched : (Diagnostic.said program "call kind disagrees with the callee's static flag"
    run.diagnostics).length = run.state.statistics.kindMismatches
  /-- Success is announced once, in the end. -/
  finished : run.ending = .finished → ∃ earlier, run.diagnostics = earlier ++
      [.finished run.state.graph.entry run.state.graph.reachable.length run.state.graph.edges.size
        run.state.facts.size] ∧
    Diagnostic.said program "call graph construction finished" earlier = []
  failed : ∀ error, run.ending = .failed error →
    Diagnostic.said program "call graph construction finished" run.diagnostics = []

/-- All that a run says, success apart, is in the records of its last state. -/
theorem Run.said_diagnostics (program : Program) (run : Run) {message : String}
    (other : "call graph construction finished" ≠ message) :
    Diagnostic.said program message run.diagnostics =
      Diagnostic.said program message run.state.log.reverse := by
  unfold Run.diagnostics Diagnostic.said
  rw [List.filterMap_append]
  cases run.ending with
  | finished => simp [Diagnostic.message, other]
  | failed error => simp

/-- **A run that ends in a state** that the construction comes to is traced. -/
theorem Reaches.traced (program : Program) {ending : Ending}
    (reaches : Reaches setting entry past state) : Run.Traced program ⟨state, ending⟩ := by
  have logged := reaches.logged
  obtain ⟨edges, same, linked⟩ := logged.linked
  have counted : ∀ counted ∈ countedMessages,
      (Diagnostic.said program counted.1 (Run.diagnostics ⟨state, ending⟩)).length =
        counted.2 state.counters.recorded := by
    intro counted member
    rw [Run.said_diagnostics program _ (initial_countedMessages counted member).2,
      length_said_eq program member, logged.counted]
  simp only [countedMessages, List.forall_mem_cons] at counted
  obtain ⟨replayed, dynamic, skipped, mismatched, _⟩ := counted
  have announced : Diagnostic.said program "new call edge" (Run.diagnostics ⟨state, ending⟩) =
      edges.map fun edge => [("site", .text (program.siteName edge.site)),
        ("callee", .text (program.methodName edge.callee))] := by
    rw [Run.said_diagnostics program _ (by decide), Diagnostic.said_newEdge, linked, List.map_map]
    rfl
  have unfinished : Diagnostic.said program "call graph construction finished" state.log.reverse = [] :=
    Diagnostic.said_eq_nil fun diagnostic member =>
      logged.unfinished diagnostic (List.mem_reverse.mp member)
  refine ⟨?_, ⟨edges, same, reaches.nodup_ends same, announced⟩, ?_, replayed, dynamic, skipped,
    mismatched, ?_, ?_⟩
  · rw [Run.said_diagnostics program _ (by decide), Diagnostic.said_processing, logged.processed]
  · rw [announced, List.length_map, same.length_eq]
    rfl
  · rintro rfl
    exact ⟨state.log.reverse, rfl, unfinished⟩
  · rintro error rfl
    show Diagnostic.said program _ (state.log.reverse ++ []) = []
    rw [List.append_nil]
    exact unfinished

/-- A construction ends in a state that it comes to, also if the entry is no method. -/
theorem exists_reaches_construct (setting : Setting) (entry : MethodId) :
    ∃ past, Reaches setting entry past (construct setting entry).state := by
  by_cases isMethod : (setting.program.method? entry).isSome = true
  · obtain ⟨past, reaches, _⟩ := construct_reaches isMethod
    exact ⟨past, reaches⟩
  · rw [construct_of_missing (Option.not_isSome_iff_eq_none.mp isMethod)]
    exact ⟨[], .initial⟩

/-- What has built nothing has failed. -/
theorem ending_of_error {run : Run} {error : BuildError} (failed : run.output = .error error) :
    run.ending = .failed error := by
  unfold Run.output at failed
  split at failed
  · cases failed
  · next reason ended =>
    cases failed
    exact ended

end Construction

/-- **The diagnostics of every run agree with what it has built.** However a construction ends, the
methods that are said to be processed are the reachable ones in the order of their discovery, every
edge of the graph is announced once, calls are said to be replayed, unresolved, skipped and mismatched
as often as is counted, and success is announced once, in the end, if the construction succeeds. The
graph and the statistics that are handed out are those that the diagnostics are about. -/
theorem constructGraph_traced {program : Program} (edgesInRange : program.EdgesInRange)
    (granularity : Granularity) (entry : MethodId) :
    ∃ run, constructGraph program granularity entry = .ok run ∧ run.Traced program ∧
      (∀ output, buildGraph program granularity entry = .ok output →
        run.ending = .finished ∧ output.graph = run.state.graph ∧
          output.statistics = run.state.statistics) ∧
      ∀ error, buildGraph program granularity entry = .error error → run.ending = .failed error := by
  obtain ⟨hierarchy, _, constructed⟩ := exists_constructGraph edgesInRange granularity entry
  obtain ⟨past, reaches⟩ := Construction.exists_reaches_construct ⟨hierarchy, granularity⟩ entry
  refine ⟨_, constructed, reaches.traced program, fun output built => ?_, fun error failed => ?_⟩
  · obtain ⟨run, same, finished, rfl⟩ := buildGraph_eq_ok.mp built
    rw [constructed] at same
    cases same
    exact ⟨finished, rfl, rfl⟩
  · unfold buildGraph at failed
    rw [constructed] at failed
    exact Construction.ending_of_error failed

/-- The main method and the area of the squares are processed, and the call from the one to the other is
announced. -/
theorem constructGraph_traced_shapes :
    ∃ run, constructGraph .shapes (Variant.xta.granularity .shapes) ⟨0⟩ = .ok run ∧
      Diagnostic.said .shapes "processing method" run.diagnostics =
        [[("method", .text "Main.main()")], [("method", .text "Square.area()")]] ∧
      (Diagnostic.said .shapes "new call edge" run.diagnostics).length = 1 ∧
      ∃ earlier, run.diagnostics = earlier ++ [.finished ⟨0⟩ 2 1 2] ∧
        Diagnostic.said .shapes "call graph construction finished" earlier = [] := by
  have edgesInRange : Program.shapes.EdgesInRange := by decide
  obtain ⟨known, constructed, finished, isEntry, reachable, edges, facts⟩ :
      ∃ run, constructGraph .shapes (Variant.xta.granularity .shapes) ⟨0⟩ = .ok run ∧
        run.ending = .finished ∧ run.state.graph.entry = ⟨0⟩ ∧
        run.state.graph.reachable = [⟨0⟩, ⟨2⟩] ∧ run.state.graph.edges.size = 1 ∧
        run.state.facts.size = 2 := ⟨_, rfl, rfl, rfl, rfl, rfl, rfl⟩
  obtain ⟨run, same, traced, _⟩ :=
    constructGraph_traced edgesInRange (Variant.xta.granularity .shapes) ⟨0⟩
  rw [constructed] at same
  cases same
  have processed := traced.processed
  rw [reachable] at processed
  obtain ⟨earlier, diagnostics, once⟩ := traced.finished finished
  rw [isEntry, reachable, edges, facts] at diagnostics
  exact ⟨known, constructed, processed, traced.edges.trans edges, earlier, diagnostics, once⟩

end CallFlow
