/-
**Another entry method.**

A construction from a method that another construction has found reachable stays inside that one: the
solution that the other one has come to is closed under the flow rules, and being closed depends on the
entry method only in that it is reachable.

* `Construction.construct_from_reachable`: the construction finishes, inside the other one.
* `buildGraph_from_reachable`: the graph from a reachable method is part of the graph.
-/

import CallFlow.Proofs.Construction.Coarser
import CallFlow.Proofs.Construction.Dispatched

namespace CallFlow

namespace Construction

variable {setting : Setting} {entry method : MethodId}

/-- A closed solution is closed for each of its reachable methods as the entry. -/
theorem Closed.from_reachable {solution : Solution} (closed : Closed setting entry solution)
    (reachable : method ∈ solution.reachable) : Closed setting method solution :=
  { closed with entry := reachable }

/-- **The construction from a reachable method finishes inside the construction that reaches it**, if
that one finishes. What it has linked for a target the other one has linked as well. -/
theorem construct_from_reachable (inRange : setting.program.InRange)
    (finished : (construct setting entry).ending = .finished)
    (reachable : method ∈ (construct setting entry).state.graph.reachable) :
    (construct setting method).ending = .finished ∧
      (construct setting method).state.solution ≤ (construct setting entry).state.solution ∧
      ∀ pair ∈ (construct setting method).state.cache.linked,
        pair ∈ (construct setting entry).state.cache.linked := by
  obtain ⟨past, reaches, idle⟩ := reaches_of_finished finished
  have closed : Closed setting method (construct setting entry).state.solution :=
    (closed_of_idle reaches idle).from_reachable reachable
  have isMethod : (setting.program.method? method).isSome = true := by
    have within := reaches.within (closed_everything (isMethod_of_finished finished))
    exact setting.program.mem_methodIds.mp (within.reachable method (.inl reachable))
  obtain ⟨ended, inside⟩ : (construct setting method).ending = .finished ∧ _ :=
    construct_of_closed setting inRange isMethod closed
      fun site call reachable isCall => resolvable_of_idle reaches idle reachable isCall
  refine ⟨ended, inside, fun pair linked => ?_⟩
  obtain ⟨target, callee⟩ := pair
  obtain ⟨_, reached, _⟩ := reaches_of_finished ended
  obtain ⟨site, call, isCall, virtual, same, edge⟩ := reached.exists_edge_of_linked closed linked
  exact (mem_linked_of_idle reaches idle).mpr ⟨site, call, isCall, virtual, same, edge⟩

end Construction

/-- **From a reachable method a part of the graph is built.** If a graph can be built from an entry
method then one can be built from every method that is reachable in it, and every reachable method,
edge, fact and linked method of it is also there from the entry method. -/
theorem buildGraph_from_reachable {program : Program} (inRange : program.InRange)
    {granularity : Granularity} {entry method : MethodId} {whole : BuildOutput}
    (built : buildGraph program granularity entry = .ok whole)
    (reachable : method ∈ whole.graph.reachable) :
    ∃ output, buildGraph program granularity method = .ok output ∧
      output.graph.ContainedIn whole.graph ∧
      (∀ target callees, (target, callees) ∈ output.dispatched → ∀ callee ∈ callees,
        ∃ more, (target, more) ∈ whole.dispatched ∧ callee ∈ more) ∧
      ∀ run wholeRun, constructGraph program granularity method = .ok run →
        constructGraph program granularity entry = .ok wholeRun →
        ∀ fact ∈ run.state.facts, fact ∈ wholeRun.state.facts := by
  obtain ⟨wholeRun, wholeConstructed, finished, rfl⟩ := buildGraph_eq_ok.mp built
  obtain ⟨hierarchy, found, rfl⟩ := constructGraph_eq_ok.mp wholeConstructed
  have constructed := constructGraph_eq_ok.mpr
    ⟨hierarchy, found, (rfl : Construction.construct ⟨hierarchy, granularity⟩ method = _)⟩
  obtain rfl := Hierarchy.program_of? found
  let setting : Construction.Setting := ⟨hierarchy, granularity⟩
  obtain ⟨ended, ⟨reached, edges, facts⟩, linked⟩ :
      (Construction.construct setting method).ending = .finished ∧ _ :=
    Construction.construct_from_reachable inRange finished reachable
  refine ⟨_, buildGraph_eq_ok.mpr ⟨_, constructed, ended, rfl⟩, ⟨reached, edges⟩, ?_, ?_⟩
  · intro target callees reported callee member
    have pair := TargetCache.exists_mem_linkedTargets.mp ⟨callees, reported, member⟩
    exact TargetCache.exists_mem_linkedTargets.mpr (linked _ pair)
  · intro run otherRun same otherSame
    rw [constructed] at same
    rw [wholeConstructed] at otherSame
    cases same
    cases otherSame
    exact facts

/-- From a square a graph is built inside that of the main method, and it has no edge. -/
theorem buildGraph_from_reachable_shapes :
    ∃ whole output, buildGraph .shapes (Variant.xta.granularity .shapes) ⟨0⟩ = .ok whole ∧
      buildGraph .shapes (Variant.xta.granularity .shapes) ⟨2⟩ = .ok output ∧
      output.graph.ContainedIn whole.graph ∧ output.graph.edges.size < whole.graph.edges.size := by
  have inRange : Program.shapes.InRange := by decide
  obtain ⟨whole, built, reachable, edges⟩ : ∃ whole,
      buildGraph .shapes (Variant.xta.granularity .shapes) ⟨0⟩ = .ok whole ∧
        whole.graph.reachable = [⟨0⟩, ⟨2⟩] ∧ whole.graph.edges.size = 1 := ⟨_, rfl, rfl, rfl⟩
  obtain ⟨output, inner, contained, _⟩ := buildGraph_from_reachable inRange built
    (show ⟨2⟩ ∈ whole.graph.reachable by rw [reachable]; decide)
  have none : ∃ square, buildGraph .shapes (Variant.xta.granularity .shapes) ⟨2⟩ = .ok square ∧
      square.graph.edges.size = 0 := ⟨_, rfl, rfl⟩
  obtain ⟨square, same, noEdge⟩ := none
  rw [inner] at same
  cases same
  exact ⟨whole, output, built, inner, contained, by omega⟩

end CallFlow
