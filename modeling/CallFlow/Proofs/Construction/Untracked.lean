/-
**Without tracking only calls matter.**

Where instantiation is not tracked no fact is ever added, so no consequence is ever drawn; and of the
granularity a construction then asks nothing but whether it tracks. Statements other than calls are
passed over. So all granularities that do not track take the same steps, and so they do for a program in
which every statement but the calls has lost its effect.

* `Construction.step_untracked`: another granularity takes the same steps.
* `Construction.step_callsOnly`: so does the program with nothing but its calls.
* `Construction.run_congr`: the same steps make the same run.
* `buildGraph_untracked`: the same graph is built, or the same error is met.
-/

import CallFlow.Proofs.Construction.History
import CallFlow.Proofs.Construction.SameRules
import CallFlow.Proofs.Program.WithDynamic

namespace CallFlow

namespace Construction

/-- Two constructions that take the same steps from every state that one of them comes to make the same
run. -/
theorem run_congr {first second : Setting} {entry : MethodId}
    (same : ∀ {past state}, Reaches first entry past state → step second state = step first state)
    (steps : Nat) {past : List State} {state : State} (reaches : Reaches first entry past state) :
    run second steps state = run first steps state := by
  induction steps generalizing past state with
  | zero =>
    unfold run
    rw [same reaches]
  | succ steps hyp =>
    unfold run
    rw [same reaches]
    cases stepped : step first state with
    | none => rfl
    | some outcome =>
      cases outcome with
      | error error => rfl
      | ok next => exact hyp (reaches.step stepped)

/-- So do two constructions from one entry that are granted as many steps. -/
theorem construct_congr {first second : Setting} {entry : MethodId}
    (isMethod : (second.program.method? entry).isSome = (first.program.method? entry).isSome)
    (granted : stepBound second.program = stepBound first.program)
    (same : ∀ {past state}, Reaches first entry past state → step second state = step first state) :
    construct second entry = construct first entry := by
  unfold construct
  rw [isMethod, granted, run_congr same _ .initial]

/-! ### Another granularity -/

section Granularities

variable {hierarchy : Hierarchy} {first second : Granularity}
  (firstUntracked : first.tracksInstantiation = false)
  (secondUntracked : second.tracksInstantiation = false)
include firstUntracked secondUntracked

/-- **A call is linked in the same way**: nothing flows along the edge. -/
theorem link_untracked (site : Site) (call : Call) (callee : MethodId) (state : State) :
    link ⟨hierarchy, second⟩ site call callee none state =
      link ⟨hierarchy, first⟩ site call callee none state := by
  rw [link_none, link_none, connect_eq, connect_eq, firstUntracked, secondUntracked]
  rfl

/-- A declared call is resolved in the same way. -/
theorem resolveDeclared_untracked :
    resolveDeclared ⟨hierarchy, second⟩ = resolveDeclared ⟨hierarchy, first⟩ := by
  funext site call state
  unfold resolveDeclared
  simp only [link_untracked firstUntracked secondUntracked]
  rfl

/-- All receivers of a virtual call are linked, none is parked. -/
theorem resolveVirtual_untracked :
    resolveVirtual ⟨hierarchy, second⟩ = resolveVirtual ⟨hierarchy, first⟩ := by
  funext site call state
  unfold resolveVirtual
  simp only [firstUntracked, secondUntracked, link_untracked firstUntracked secondUntracked]
  rfl

theorem resolveSite_untracked : resolveSite ⟨hierarchy, second⟩ = resolveSite ⟨hierarchy, first⟩ := by
  unfold resolveSite
  rw [resolveDeclared_untracked firstUntracked secondUntracked,
    resolveVirtual_untracked firstUntracked secondUntracked]
  rfl

/-- Of a method only the call sites are laid out. -/
theorem processMethod_untracked :
    processMethod ⟨hierarchy, second⟩ = processMethod ⟨hierarchy, first⟩ := by
  funext method state
  unfold processMethod absorbBody
  rw [firstUntracked, secondUntracked]
  rfl

/-- **Another granularity takes the same steps**, as there is no fact to draw consequences from. -/
theorem step_untracked {state : State} (coherent : Coherent ⟨hierarchy, first⟩ state) :
    step ⟨hierarchy, second⟩ state = step ⟨hierarchy, first⟩ state := by
  have noFacts := (coherent.untracked firstUntracked).1
  have idle : state.events = [] :=
    List.eq_nil_iff_forall_not_mem.mpr fun fact waiting => noFacts fact (coherent.queued fact waiting)
  unfold step
  rw [idle, resolveSite_untracked firstUntracked secondUntracked,
    processMethod_untracked firstUntracked secondUntracked]
  cases state.sites with
  | cons site sites => rfl
  | nil => cases state.methods <;> rfl

end Granularities

/-! ### Nothing but calls -/

section Calls

variable {hierarchy : Hierarchy} {granularity : Granularity}
  (untracked : granularity.tracksInstantiation = false)
include untracked

/-- The statements of a method other than its calls are passed over. -/
theorem processMethod_callsOnly (method : MethodId) :
    processMethod ⟨hierarchy.mapBodies .callOnly, granularity⟩ method =
      processMethod ⟨hierarchy, granularity⟩ method := by
  funext state
  have sites : (hierarchy.mapBodies .callOnly).program.callSites method =
      hierarchy.program.callSites method := hierarchy.program.callSites_callsOnly method
  have found : (hierarchy.mapBodies .callOnly).program.method? method =
      (hierarchy.program.method? method).map (Method.mapBody .callOnly) :=
    hierarchy.program.method?_mapBodies method
  unfold processMethod absorbBody Setting.program
  rw [sites, found, untracked]
  cases hierarchy.program.method? method <;> rfl

/-- **The program with nothing but its calls takes the same steps.** -/
theorem step_callsOnly (state : State) :
    step ⟨hierarchy.mapBodies .callOnly, granularity⟩ state = step ⟨hierarchy, granularity⟩ state :=
  (hierarchy.program.sameHeads_mapBodies).step granularity
    (fun parked _ => hierarchy.program.call?_callsOnly parked.site)
    (fun site _ _ _ => hierarchy.program.call?_callsOnly site)
    fun method _ _ _ _ => processMethod_callsOnly untracked method

end Calls

/-- As many steps are granted. -/
theorem stepBound_callsOnly (program : Program) : stepBound program.callsOnly = stepBound program := by
  have calls : (Method.calls ∘ Method.mapBody .callOnly) = Method.calls := funext fun method =>
    (Method.calls_mapBody Statement.call?_callOnly method).trans (List.map_id _)
  have callCount : callCount program.callsOnly = callCount program := by
    show ((program.methods.map (Method.mapBody .callOnly)).toList.flatMap Method.calls).length = _
    rw [Array.toList_map, List.flatMap_map, ← Function.comp_def, calls]
    rfl
  have methods : program.callsOnly.methods.size = program.methods.size := Array.size_map ..
  unfold stepBound
  rw [callCount, methods]
  rfl

end Construction

/-! ### Whole constructions -/

/-- **Another granularity makes the same construction**, from the first state to the last. -/
theorem constructGraph_untracked (program : Program) {first second : Granularity}
    (firstUntracked : first.tracksInstantiation = false)
    (secondUntracked : second.tracksInstantiation = false) (entry : MethodId) :
    constructGraph program second entry = constructGraph program first entry := by
  unfold constructGraph
  cases Hierarchy.of? program with
  | none => rfl
  | some hierarchy =>
    exact congrArg Except.ok (Construction.construct_congr rfl rfl fun reaches =>
      Construction.step_untracked firstUntracked secondUntracked reaches.coherent)

/-- **The program with nothing but its calls makes the same construction.** -/
theorem constructGraph_callsOnly (program : Program) {granularity : Granularity}
    (untracked : granularity.tracksInstantiation = false) (entry : MethodId) :
    constructGraph program.callsOnly granularity entry = constructGraph program granularity entry := by
  unfold constructGraph Program.callsOnly
  rw [Hierarchy.of?_mapBodies]
  cases found : Hierarchy.of? program with
  | none => rfl
  | some hierarchy =>
    obtain rfl := Hierarchy.program_of? found
    refine congrArg Except.ok (Construction.construct_congr ?_ ?_ fun _ =>
      Construction.step_callsOnly untracked _)
    · exact hierarchy.program.sameHeads_mapBodies.isSome_method? entry
    · exact Construction.stepBound_callsOnly hierarchy.program

/-- **Without tracking only calls matter.** Two granularities that do not track instantiation build the
same graph, or meet the same error, whatever their scopes and whether they count arrays, and so they do
for the program in which every statement other than a call has lost its effect: what is built is that of
class hierarchy analysis. Even the constructions are the same, and errors are put into the same words. -/
theorem buildGraph_untracked (program : Program) {first second : Granularity}
    (firstUntracked : first.tracksInstantiation = false)
    (secondUntracked : second.tracksInstantiation = false) (entry : MethodId) :
    buildGraph program first entry = buildGraph program second entry ∧
      buildGraph program.callsOnly first entry = buildGraph program second entry ∧
      buildGraph program second entry =
        buildGraph program (Variant.cha.granularity program) entry ∧
      (constructGraph program first entry = constructGraph program second entry ∧
        constructGraph program.callsOnly first entry = constructGraph program second entry) ∧
      ∀ error : BuildError, error.message program.callsOnly = error.message program := by
  have whole := constructGraph_untracked program secondUntracked firstUntracked entry
  have calls : constructGraph program.callsOnly first entry = constructGraph program second entry :=
    (constructGraph_callsOnly program firstUntracked entry).trans whole
  have hierarchyAnalysis : constructGraph program second entry =
      constructGraph program (Variant.cha.granularity program) entry :=
    constructGraph_untracked program rfl secondUntracked entry
  unfold buildGraph
  rw [whole, calls, hierarchyAnalysis]
  exact ⟨rfl, rfl, rfl, ⟨rfl, rfl⟩, program.message_mapBodies⟩

/-- Every kind of shape is reached from the main method, also if the granularity has a scope for each
class and no square is allocated; and so is the unknown instruction, if it is not read as a dynamic
one. -/
theorem buildGraph_untracked_shapes :
    let byClass := Granularity.ofGrains .shapes .byClass .single false true
    (∃ output, buildGraph Program.shapes.withDynamic.callsOnly byClass ⟨0⟩ = .ok output ∧
      buildGraph Program.shapes.withDynamic (Variant.cha.granularity .shapes) ⟨0⟩ = .ok output ∧
      output.graph.reachable = [⟨0⟩, ⟨2⟩, ⟨3⟩]) ∧
    buildGraph Program.shapes.callsOnly byClass ⟨0⟩ = .error (.malformedCallKind ⟨⟨3⟩, 0⟩) := by
  intro byClass
  have same (program : Program) := buildGraph_untracked program
    (rfl : byClass.tracksInstantiation = false)
    (rfl : (Variant.cha.granularity .shapes).tracksInstantiation = false) ⟨0⟩
  have reached : ((buildGraph Program.shapes.withDynamic (Variant.cha.granularity .shapes)
      ⟨0⟩).toOption.map fun output => output.graph.reachable) = some [⟨0⟩, ⟨2⟩, ⟨3⟩] := by
    decide +kernel
  have failed : buildGraph .shapes (Variant.cha.granularity .shapes) ⟨0⟩ =
      .error (.malformedCallKind ⟨⟨3⟩, 0⟩) := rfl
  refine ⟨?_, (same _).2.1.trans failed⟩
  cases built : buildGraph Program.shapes.withDynamic (Variant.cha.granularity .shapes) ⟨0⟩ with
  | error error => rw [built] at reached; cases reached
  | ok output =>
    rw [built] at reached
    exact ⟨output, (same _).2.1.trans built, rfl, Option.some.inj reached⟩

end CallFlow
