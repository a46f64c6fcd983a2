/-
**Building a call graph.**

A construction starts at an entry method and takes steps until nothing is left. Every step resolves
a call site of a method processed for the first time, draws the consequences of a fact added for the
first time, or takes a method off a queue that gets one method for each edge; `stepBound` counts
them from the program.

* `Construction.run`: the steps, at most so many of them.
* `buildGraph`: the graph of a program from an entry method.
-/

import CallFlow.Construction.Step

namespace CallFlow

namespace Construction

/-- How a construction ended. -/
inductive Ending where
  | finished
  | failed (error : BuildError)
  deriving DecidableEq, Repr, Inhabited

/-- A construction with the last state that it came to. -/
structure Run where
  state : State
  ending : Ending
  deriving Inhabited

/-- Takes steps until nothing is left, at most so many. -/
def run (setting : Setting) : Nat → State → Run
  | 0, state =>
    ⟨state, if (step setting state).isNone then .finished else .failed .stepsExhausted⟩
  | steps + 1, state =>
    match step setting state with
    | none => ⟨state, .finished⟩
    | some (.ok next) => run setting steps next
    | some (.error error) => ⟨state, .failed error⟩

/-- The number of call statements of a program. -/
def callCount (program : Program) : Nat :=
  (program.methods.toList.flatMap Method.calls).length

/-- A bound on the steps of a construction: each call site is resolved once, each fact is drawn on
once, and the queue gets the entry and one method for each edge. -/
def stepBound (program : Program) : Nat :=
  let methods := program.methods.size
  let calls := callCount program
  calls + (methods + program.fields.size) * program.classes.size + (1 + calls * methods)

/-- The construction of a graph from an entry method. -/
def construct (setting : Setting) (entry : MethodId) : Run :=
  if (setting.program.method? entry).isSome then
    run setting (stepBound setting.program) (.initial entry)
  else ⟨.initial entry, .failed (.unknownEntry entry)⟩

/-- The diagnostics of a construction, in order. A success is recorded last. -/
def Run.diagnostics (run : Run) : List Diagnostic :=
  run.state.log.reverse ++
    match run.ending with
    | .finished =>
      [.finished run.state.graph.entry run.state.graph.reachable.length run.state.graph.edges.size
        run.state.facts.size]
    | .failed _ => []

end Construction

/-- A finished call graph. -/
structure BuildOutput where
  graph : CallGraph
  /-- The methods linked for each virtual target. -/
  dispatched : List (Target × List MethodId)
  statistics : Construction.Statistics
  deriving Inhabited

/-- What a construction has built. -/
def Construction.Run.output (run : Construction.Run) : Except BuildError BuildOutput :=
  match run.ending with
  | .finished => .ok ⟨run.state.graph, run.state.cache.linkedTargets, run.state.statistics⟩
  | .failed error => .error error

/-- The construction of the graph of a program from an entry method. The hierarchy comes first: it
fails if an edge of it leads out of the program. -/
def constructGraph (program : Program) (granularity : Granularity) (entry : MethodId) :
    Except BuildError Construction.Run :=
  match Hierarchy.of? program with
  | none => .error (.fault .outOfRange)
  | some hierarchy => .ok (Construction.construct ⟨hierarchy, granularity⟩ entry)

/-- The graph of a program from an entry method. -/
def buildGraph (program : Program) (granularity : Granularity) (entry : MethodId) :
    Except BuildError BuildOutput :=
  (constructGraph program granularity entry).bind Construction.Run.output

end CallFlow
