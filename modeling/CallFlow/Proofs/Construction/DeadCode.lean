/-
**Dead code.**

A construction looks at the body of a method only once the method is reachable: the call sites that it
resolves and the parked calls that it replays stand in reachable methods, and a method whose statements
it takes in becomes reachable. Of a callee that is only enrolled it reads the head. So the bodies of
methods that never become reachable have no part in what is built.

* `Program.AgreesOn`: two programs that differ in the bodies of methods outside a list only.
* `Construction.step_agreesOn`, `Construction.Reaches.agreesOn`: the same steps are taken as long as the
  reachable methods are in the list.
* `buildGraph_of_agreesOn`: the same graph is built, with the same statistics.
-/

import CallFlow.Proofs.Construction.Discovery
import CallFlow.Proofs.Construction.SameRules
import CallFlow.Proofs.Construction.Settled

namespace CallFlow

/-- The programs differ only in the bodies of methods that are not in a list. -/
structure Program.AgreesOn (first second : Program) (methods : List MethodId) : Prop where
  heads : first.SameHeads second
  bodies : ∀ method ∈ methods, second.body method = first.body method

namespace Construction

section Steps

variable {setting : Setting} {entry : MethodId} {past : List State} {state next : State}

/-- No step makes a method unreachable. -/
theorem reachable_of_step (coherent : Coherent setting state)
    (stepped : step setting state = some (.ok next)) {method : MethodId}
    (reachable : method ∈ state.graph.reachable) : method ∈ next.graph.reachable := by
  obtain ⟨taken, takes, changes⟩ := step_changes coherent stepped
  exact (Changes.extends changes).reachable (takes.reachable reachable)

/-- A method that has been processed is reachable. -/
theorem reachable_of_processMethod {method : MethodId}
    (processed : processMethod setting method state = .ok next) : method ∈ next.graph.reachable := by
  rcases processMethod_actions state processed with ⟨known, rfl⟩ | ⟨fresh, _, actions, _⟩
  · exact known
  · exact (Actions.extends actions).reachable ((mem_reachable_discover fresh).mpr (.inr rfl))

end Steps

variable {first second : Hierarchy} {granularity : Granularity} {methods : List MethodId}
  (agrees : first.program.AgreesOn second.program methods)
include agrees

/-- **A step of one program is a step of the other one** if they agree on the methods that are
reachable after it. -/
theorem step_agreesOn {state next : State} (coherent : Coherent ⟨first, granularity⟩ state)
    (stepped : step ⟨first, granularity⟩ state = some (.ok next))
    (within : ∀ method ∈ next.graph.reachable, method ∈ methods) :
    step ⟨second, granularity⟩ state = some (.ok next) := by
  have body {method : MethodId} (reachable : method ∈ state.graph.reachable) :
      second.program.body method = first.program.body method :=
    agrees.bodies method (within method (reachable_of_step coherent stepped reachable))
  rw [← stepped]
  refine agrees.heads.step granularity ?_ ?_ ?_
  · exact fun parked member => Program.call?_of_body (body (coherent.waits parked member).reachable)
  · intro site sites _ waiting
    exact Program.call?_of_body (body (coherent.sites site (waiting ▸ List.mem_cons_self)))
  · intro method queue drained idle waiting
    rcases step_cases stepped with ⟨_, _, _, busy, _⟩ | ⟨_, _, _, busy, _⟩ |
      ⟨taken, rest, _, _, same, processed⟩
    · rw [drained] at busy
      cases busy
    · rw [idle] at busy
      cases busy
    · rw [waiting] at same
      cases same
      exact agrees.heads.processMethod granularity
        (agrees.bodies method (within method (reachable_of_processMethod processed.symm)))

/-- **The constructions come to the same states** as long as the programs agree on the reachable
methods. -/
theorem Reaches.agreesOn {entry : MethodId} {past : List State} {state : State}
    (reaches : Reaches ⟨first, granularity⟩ entry past state)
    (within : ∀ method ∈ state.graph.reachable, method ∈ methods) :
    Reaches ⟨second, granularity⟩ entry past state := by
  induction reaches with
  | initial => exact .initial
  | step reaches stepped hyp =>
    have earlier := hyp fun method reachable =>
      within method (reachable_of_step reaches.coherent stepped reachable)
    exact earlier.step (step_agreesOn agrees reaches.coherent stepped within)

end Construction

/-- **Dead code has no part in what is built.** If a graph is built for a program then the same graph,
with the same dispatched methods and the same statistics, is built for every program that differs from
it only in the bodies of methods that are not reachable, whatever stands there. Even the constructions
are the same, and so are the scopes of the named analyses. -/
theorem buildGraph_of_agreesOn {first second : Program} {granularity : Granularity}
    {entry : MethodId} {output : BuildOutput} (built : buildGraph first granularity entry = .ok output)
    (agrees : first.AgreesOn second output.graph.reachable) :
    buildGraph second granularity entry = .ok output ∧
      constructGraph second granularity entry = constructGraph first granularity entry ∧
      ∀ variant : Variant, variant.granularity second = variant.granularity first := by
  obtain ⟨run, constructed, finished, rfl⟩ := buildGraph_eq_ok.mp built
  obtain ⟨hierarchy, found, rfl⟩ := constructGraph_eq_ok.mp constructed
  obtain rfl := Hierarchy.program_of? found
  obtain ⟨other, rfl, otherConstructed⟩ :=
    exists_constructGraph (agrees.heads.edgesInRange hierarchy.edgesInRange) granularity entry
  obtain ⟨past, reaches, idle⟩ := reaches_of_finished finished
  have otherReaches : Construction.Reaches ⟨other, granularity⟩ entry past _ :=
    reaches.agreesOn agrees fun _ reachable => reachable
  have isMethod : ((Construction.Setting.mk other granularity).program.method? entry).isSome = true := by
    show (other.program.method? entry).isSome = true
    rw [agrees.heads.isSome_method?]
    exact isMethod_of_finished finished
  obtain ⟨steps, whole⟩ := otherReaches.construct_eq isMethod
  have same : Construction.construct ⟨other, granularity⟩ entry =
      Construction.construct ⟨hierarchy, granularity⟩ entry := by
    rw [whole, Construction.run_of_idle
      (Construction.step_eq_none_iff.mpr (Construction.step_eq_none_iff.mp idle)), ← finished]
  rw [same] at otherConstructed
  exact ⟨buildGraph_eq_ok.mpr ⟨_, otherConstructed, finished, rfl⟩,
    otherConstructed.trans constructed.symm, agrees.heads.granularity⟩

/-- Shapes with other statements in the methods that the main method does not reach: an unknown
instruction, and fields, classes and targets that the program does not have. -/
def Program.wildShapes : Program :=
  { Program.shapes with
    methods := (Program.shapes.methods.modify 1 fun area =>
      { area with body := [.new ⟨17⟩, .store ⟨5⟩, .invoke ⟨.other, ⟨⟨9⟩, ⟨9⟩⟩⟩] }).modify 3 fun area =>
        { area with body := [.invoke ⟨.virtual, ⟨⟨40⟩, ⟨1⟩⟩⟩, .load ⟨8⟩] } }

/-- Squares are the only shapes that the main method reaches, so the other methods may be anything. -/
theorem buildGraph_of_agreesOn_shapes :
    ∃ output, buildGraph .shapes (Variant.xta.granularity .shapes) ⟨0⟩ = .ok output ∧
      buildGraph .wildShapes (Variant.xta.granularity .shapes) ⟨0⟩ = .ok output := by
  obtain ⟨output, built, reachable⟩ : ∃ output,
      buildGraph .shapes (Variant.xta.granularity .shapes) ⟨0⟩ = .ok output ∧
        output.graph.reachable = [⟨0⟩, ⟨2⟩] := ⟨_, rfl, rfl⟩
  have agrees : Program.shapes.AgreesOn .wildShapes output.graph.reachable := by
    rw [reachable]
    exact ⟨⟨rfl, rfl, rfl⟩, by decide⟩
  exact ⟨output, built, (buildGraph_of_agreesOn built agrees).1⟩

end CallFlow
