/-
**Guarded graphs and reports of programs in range.**

The states that a construction comes to mention identifiers of the program only, and so does what it
leaves behind. So no guard stops a construction or a report, and a construction that fails does not fail
over an identifier.

* `Guarded.inRange_of_reaches`, `Guarded.run_ends`: the states on the way, and the last one.
* `Guarded.build_eq`: the graph of a program in range is the same with guards.
* `Guarded.report_eq`: so is the report on it.
* `Program.ofText_guarded`: all of this holds for every program that is loaded from a text.
-/

import CallFlow.Guarded.Build
import CallFlow.Proofs.Construction.History
import CallFlow.Proofs.Description.InRange
import CallFlow.Proofs.Description.Reference
import CallFlow.Proofs.Guarded.Construction

namespace CallFlow

/-- Every identifier in a finished graph is inside its table. -/
structure BuildOutput.InRange (program : Program) (output : BuildOutput) : Prop where
  entry : (program.method? output.graph.entry).isSome = true
  reachable : ∀ method ∈ output.graph.reachable, (program.method? method).isSome = true
  edges : ∀ edge ∈ output.graph.edges,
    (program.method? edge.caller).isSome = true ∧ (program.method? edge.callee).isSome = true
  targets : ∀ linked ∈ output.dispatched, (program.class? linked.1.owner).isSome = true ∧
    (program.member? linked.1.member).isSome = true
  callees : ∀ linked ∈ output.dispatched, ∀ callee ∈ linked.2,
    (program.method? callee).isSome = true

namespace Guarded

open Construction (Setting State Reaches)

/-! ### The states of a construction -/

/-- What a construction leaves behind is in range if its last state is. -/
theorem inRange_of_state {program : Program} {state : State} (inRange : state.InRange program) :
    BuildOutput.InRange program ⟨state.graph, state.cache.linkedTargets, state.statistics⟩ := by
  have linked {target : Target} {callees : List MethodId}
      (listed : (target, callees) ∈ state.cache.linkedTargets) :
      (∃ callee, (target, callee) ∈ state.cache.linked) ∧
        ∀ callee ∈ callees, (target, callee) ∈ state.cache.linked := by
    obtain ⟨other, among, same⟩ := List.mem_map.mp listed
    cases same
    obtain ⟨⟨_, callee⟩, pair, rfl⟩ := List.mem_map.mp (SortedSet.mem_ofList.mp among)
    refine ⟨⟨callee, pair⟩, fun callee member => ?_⟩
    obtain ⟨⟨known, _⟩, pair, same⟩ := List.mem_filterMap.mp member
    split at same
    · next same' =>
      cases same
      cases same'
      exact pair
    · cases same
  refine ⟨inRange.entry, inRange.reachable, inRange.edges, fun pair listed => ?_,
    fun pair listed callee member => ?_⟩
  · obtain ⟨⟨callee, known⟩, _⟩ := linked listed
    exact ⟨(inRange.linked _ known).1, (inRange.linked _ known).2.1⟩
  · exact (inRange.linked _ ((linked listed).2 callee member)).2.2

section Runs

variable {setting : Setting} (program : setting.program.InRange)
include program

/-- **Every state that a construction comes to is in range.** -/
theorem inRange_of_reaches {entry : MethodId} {past : List State} {state : State}
    (isMethod : (setting.program.method? entry).isSome = true)
    (reaches : Reaches setting entry past state) : state.InRange setting.program := by
  induction reaches with
  | initial => exact .initial isMethod
  | step reaches stepped hyp => exact (step_agrees program hyp).2.1 _ stepped

/-- What a run with guards comes to, for a run without them. -/
structure Ends (setting : Setting) (guarded : Except BuildError State) (run : Construction.Run) :
    Prop where
  same : guarded = match run.ending with
    | .finished => .ok run.state
    | .failed error => .error error
  inRange : run.state.InRange setting.program
  reads : run.ending ≠ .failed (.fault .outOfRange)

variable (setting) in
/-- **A run from a state in range is the same with guards**, ends in range and does not fail over an
identifier. -/
theorem run_ends (steps : Nat) {state : State} (inRange : state.InRange setting.program) :
    Ends setting (run setting steps state) (Construction.run setting steps state) := by
  induction steps generalizing state with
  | zero =>
    obtain ⟨same, _, _⟩ := step_agrees program inRange
    unfold run Construction.run
    rw [same]
    cases (Construction.step setting state).isNone with
    | true => exact ⟨rfl, inRange, by rintro ⟨⟩⟩
    | false => exact ⟨rfl, inRange, by rintro ⟨⟩⟩
  | succ steps hyp =>
    obtain ⟨same, stays, reads⟩ := step_agrees program inRange
    unfold run Construction.run
    rw [same]
    cases stepped : Construction.step setting state with
    | none => exact ⟨rfl, inRange, by rintro ⟨⟩⟩
    | some outcome =>
      cases outcome with
      | ok next => exact hyp (stays next stepped)
      | error error =>
        rw [stepped] at reads
        exact ⟨rfl, inRange, fun failed => reads (by cases failed; rfl)⟩

/-- What a run leaves behind is the same with guards. -/
theorem Ends.output {guarded : Except BuildError State} {run : Construction.Run}
    (ends : Ends setting guarded run) :
    (guarded >>= fun state => lift (Guarded.output setting.program state)) = run.output ∧
      run.output ≠ .error (.fault .outOfRange) ∧
      ∀ output, run.output = .ok output → output.InRange setting.program := by
  obtain ⟨rfl, inRange, reads⟩ := ends
  obtain ⟨state, ending⟩ := run
  cases ending with
  | finished =>
    have within : InTables setting.program (.finished state.graph.entry state.graph.reachable.length
      state.graph.edges.size state.facts.size) := inRange.entry
    refine ⟨?_, nofun, fun output built => ?_⟩
    · rw [ok_bind]
      unfold Guarded.output
      rw [details_eq program within]
      rfl
    · cases built
      exact inRange_of_state inRange
  | failed error =>
    refine ⟨rfl, fun failed => reads ?_, nofun⟩
    cases failed
    rfl

end Runs

/-! ### Graphs and reports -/

section Programs

variable {program : Program} (inRange : program.InRange)
include inRange

/-- The hierarchy of a program in range can be made. -/
theorem exists_table : ∃ hierarchy, Hierarchy.of? program = some hierarchy ∧
    table program = .ok hierarchy.table := by
  obtain ⟨hierarchy, isHierarchy⟩ := Hierarchy.exists_of? inRange.edgesInRange
  obtain rfl := Hierarchy.program_of? isHierarchy
  exact ⟨hierarchy, isHierarchy, table_eq inRange⟩

/-- **The graph of a program in range is the same with guards**, and whatever prevents it, it is not an
identifier. -/
theorem build_eq (granularity : Granularity) (entry : MethodId) :
    build program granularity entry = buildGraph program granularity entry ∧
      buildGraph program granularity entry ≠ .error (.fault .outOfRange) ∧
      ∀ output, buildGraph program granularity entry = .ok output → output.InRange program := by
  obtain ⟨hierarchy, isHierarchy, made⟩ := exists_table inRange
  obtain rfl := Hierarchy.program_of? isHierarchy
  have plain : buildGraph hierarchy.program granularity entry =
      (Construction.construct ⟨hierarchy, granularity⟩ entry).output := by
    unfold buildGraph constructGraph
    rw [isHierarchy]
    rfl
  have guarded : build hierarchy.program granularity entry =
      if (hierarchy.program.method? entry).isSome then
        run ⟨hierarchy, granularity⟩ (Construction.stepBound hierarchy.program) (.initial entry) >>=
          fun state => lift (output hierarchy.program state)
      else .error (.unknownEntry entry) := by
    unfold build
    rw [made, isHierarchy]
    rfl
  rw [plain, guarded]
  by_cases isMethod : (hierarchy.program.method? entry).isSome = true
  · have settled : (Setting.mk hierarchy granularity).program.InRange := inRange
    have ends := run_ends _ settled (Construction.stepBound hierarchy.program) (.initial isMethod)
    have begun : Construction.construct ⟨hierarchy, granularity⟩ entry = _ := if_pos isMethod
    rw [begun, if_pos isMethod]
    exact ends.output settled
  · have refused : Construction.construct ⟨hierarchy, granularity⟩ entry = _ := if_neg isMethod
    rw [refused, if_neg isMethod]
    exact ⟨rfl, nofun, nofun⟩

/-- **The report on a graph is the same with guards.** -/
theorem report_eq (variant : Variant) {output : BuildOutput} (within : output.InRange program) :
    report program variant output = .ok (Report.ofOutput program variant output) := by
  have edges : output.graph.edges.toList.mapM (fun edge => do
      let caller ← methodName program edge.caller
      let callee ← methodName program edge.callee
      pure (Report.EdgeLine.mk caller edge.site.index edge.kind callee)) =
      .ok (output.graph.edges.toList.map fun edge => ⟨program.methodName edge.caller, edge.site.index,
        edge.kind, program.methodName edge.callee⟩) := by
    refine mapM_eq_ok fun edge member => ?_
    obtain ⟨isCaller, isCallee⟩ := within.edges edge member
    rw [methodName_eq inRange isCaller, methodName_eq inRange isCallee]
    rfl
  have dispatched : output.dispatched.mapM (fun entry => do
      let text ← targetName program entry.1
      let names ← entry.2.mapM (methodName program)
      pure (Report.TargetLine.mk text names)) =
      .ok (output.dispatched.map fun entry =>
        ⟨program.targetName entry.1, entry.2.map program.methodName⟩) := by
    refine mapM_eq_ok ?_
    rintro ⟨target, callees⟩ member
    obtain ⟨isClass, isMember⟩ := within.targets _ member
    have names := mapM_eq_ok fun callee listed =>
      methodName_eq inRange (within.callees _ member callee listed)
    simp only [targetName_eq isClass isMember, names]
    rfl
  unfold report
  rw [mapM_eq_ok fun method member => methodName_eq inRange (within.reachable method member), edges,
    dispatched, methodName_eq inRange within.entry]
  rfl

end Programs

end Guarded

/-- **Every program that is loaded from a text can be read without a fault.** All its identifiers are
inside their tables, so the hierarchy can be made. From the entry method of the program, or from any
method that a full name refers to, no guard stops a step of a construction, a whole construction or a
report on what it built, and if a construction fails the reason is not an identifier. -/
theorem Program.ofText_guarded {text : String} {program : Program}
    (loaded : Program.ofText text = .ok program) :
    program.InRange ∧
      (∀ entry, program.entry = some entry → (program.method? entry).isSome = true) ∧
      ∃ hierarchy, Hierarchy.of? program = some hierarchy ∧
        Guarded.table program = .ok hierarchy.table ∧
        ∀ granularity entry, (program.entry = some entry ∨
            ∃ name, Description.methodReferred program name = .ok entry) →
          (∀ past state, Construction.Reaches ⟨hierarchy, granularity⟩ entry past state →
            state.InRange program ∧
            Guarded.step ⟨hierarchy, granularity⟩ state =
              Construction.step ⟨hierarchy, granularity⟩ state ∧
            Construction.step ⟨hierarchy, granularity⟩ state ≠
              some (.error (.fault .outOfRange))) ∧
          Guarded.build program granularity entry = buildGraph program granularity entry ∧
          buildGraph program granularity entry ≠ .error (.fault .outOfRange) ∧
          ∀ output, buildGraph program granularity entry = .ok output → ∀ variant,
            Guarded.report program variant output = .ok (Report.ofOutput program variant output) := by
  obtain ⟨inRange, ownEntry⟩ := Description.inRange_of_ofText loaded
  obtain ⟨hierarchy, isHierarchy, made⟩ := Guarded.exists_table inRange
  refine ⟨inRange, ownEntry, hierarchy, isHierarchy, made, fun granularity entry chosen => ?_⟩
  have isMethod : (program.method? entry).isSome = true := by
    rcases chosen with own | ⟨name, referred⟩
    · exact ownEntry entry own
    · exact Description.isMethod_of_methodReferred referred
  obtain ⟨same, reads, built⟩ := Guarded.build_eq inRange granularity entry
  refine ⟨fun past state reaches => ?_, same, reads, fun output success variant =>
    Guarded.report_eq inRange variant (built output success)⟩
  obtain rfl := Hierarchy.program_of? isHierarchy
  have settled : (Construction.Setting.mk hierarchy granularity).program.InRange := inRange
  have within := Guarded.inRange_of_reaches settled isMethod reaches
  obtain ⟨sameStep, _, readsStep⟩ := Guarded.step_agrees settled within
  exact ⟨within, sameStep, readsStep⟩

/-- The graph of the box from a method that is found by its name, and the report on it, are the same with
guards. -/
theorem Program.ofText_guarded_box :
    ∃ output, buildGraph Description.boxProgram (Variant.xta.granularity Description.boxProgram) ⟨0⟩ = .ok output ∧
      Guarded.build Description.boxProgram (Variant.xta.granularity Description.boxProgram) ⟨0⟩ = .ok output ∧
      Guarded.report Description.boxProgram .xta output = .ok (Report.ofOutput Description.boxProgram .xta output) := by
  obtain ⟨output, built⟩ : ∃ output,
      buildGraph Description.boxProgram (Variant.xta.granularity Description.boxProgram) ⟨0⟩ = .ok output := ⟨_, rfl⟩
  have referred : Description.methodReferred Description.boxProgram "Box.get(T)" = .ok ⟨0⟩ := by
    decide +kernel
  obtain ⟨_, _, _, _, _, guarded⟩ := Program.ofText_guarded Description.loaded_boxText
  obtain ⟨_, same, _, reports⟩ := guarded (Variant.xta.granularity Description.boxProgram) ⟨0⟩ (.inr ⟨_, referred⟩)
  exact ⟨output, built, same.trans built, reports output built .xta⟩

end CallFlow
