/-
**Guarded graphs and reports.**

* `Guarded.build`: the graph of a program from an entry method, with every table read through a guard.
* `Guarded.report`: the report on a graph, in the same way.
-/

import CallFlow.Guarded.Construction
import CallFlow.Report.Basic

namespace CallFlow

namespace Guarded

open Construction (Setting State)

/-- The last state of a construction that takes at most so many steps. -/
def run (setting : Setting) : Nat → State → Except BuildError State
  | 0, state => if (step setting state).isNone then .ok state else .error .stepsExhausted
  | steps + 1, state =>
    match step setting state with
    | none => .ok state
    | some (.ok next) => run setting steps next
    | some (.error error) => .error error

/-- What a construction has built. Success is recorded last. -/
def output (program : Program) (state : State) : Except Fault BuildOutput := do
  let _ ← details program (.finished state.graph.entry state.graph.reachable.length
    state.graph.edges.size state.facts.size)
  pure ⟨state.graph, state.cache.linkedTargets, state.statistics⟩

/-- The graph of a program from an entry method. The table of supertypes is made first. -/
def build (program : Program) (granularity : Granularity) (entry : MethodId) :
    Except BuildError BuildOutput := do
  let _ ← lift (table program)
  let hierarchy ← lift (fetch (Hierarchy.of? program))
  if (program.method? entry).isSome then
    let state ← run ⟨hierarchy, granularity⟩ (Construction.stepBound program) (.initial entry)
    lift (output program state)
  else .error (.unknownEntry entry)

/-- The report on a graph of a program. -/
def report (program : Program) (variant : Variant) (output : BuildOutput) : Except Fault Report := do
  let reachable ← output.graph.reachable.mapM (methodName program)
  let edges ← output.graph.edges.toList.mapM fun edge => do
    let caller ← methodName program edge.caller
    let callee ← methodName program edge.callee
    pure ⟨caller, edge.site.index, edge.kind, callee⟩
  let dispatched ← output.dispatched.mapM fun (target, callees) => do
    let text ← targetName program target
    let names ← callees.mapM (methodName program)
    pure ⟨text, names⟩
  let entry ← methodName program output.graph.entry
  pure ⟨variant, entry, reachable, edges, dispatched, output.statistics⟩

end Guarded

end CallFlow
