/-
**Unknown instructions.**

A construction and the one that reads unknown instructions as dynamic ones take the same steps, until
the first one comes to a call site with an unknown instruction and fails. The second one goes on, and
as it never changes the order of what it has found, that call site is the first one of its kind in
the order of discovery.

* `Construction.step_withDynamic`, `Construction.Reaches.withDynamic`: the steps are the same.
* `Construction.Reaches.layout_run`, `Construction.Reaches.resolved_known`: call sites keep their places
  in the order of discovery, and those that have been resolved have a known instruction.
* `Construction.finished_withDynamic`, `Construction.output_withDynamic`: the second construction
  finishes, and the first one fails where the second one found the first unknown instruction.
* `buildGraph_malformed`: which constructions fail, and where.
-/

import CallFlow.Proofs.Construction.Discovery
import CallFlow.Proofs.Construction.Failure
import CallFlow.Proofs.Construction.SameRules
import CallFlow.Proofs.Program.WithDynamic

namespace CallFlow

namespace Construction

/-- The setting of the changed program. -/
def Setting.withDynamic (setting : Setting) : Setting :=
  ⟨setting.hierarchy.withDynamic, setting.granularity⟩

variable {setting : Setting} {entry : MethodId} {past : List State} {state : State}

/-! ### The same calls and bodies -/

/-- A call is the same in the changed program unless its instruction is unknown. -/
theorem call?_withDynamic_of_known {site : Site} (known : setting.program.isUnknown site ≠ true) :
    setting.withDynamic.program.call? site = setting.program.call? site := by
  show setting.program.withDynamic.call? site = _
  rw [Program.call?_withDynamic]
  cases isCall : setting.program.call? site with
  | none => rfl
  | some call =>
    rw [Option.map_some, Call.withDynamic_of_known fun other =>
      known (setting.program.isUnknown_iff.mpr ⟨call, isCall, other⟩)]

theorem operandsInRange_withDynamic (statement : Statement) :
    operandsInRange setting.withDynamic statement.withDynamic = operandsInRange setting statement := by
  cases statement <;> rfl

theorem absorb_withDynamic (scope : Scope) (statement : Statement) :
    absorb setting.withDynamic scope state statement.withDynamic =
      absorb setting scope state statement := by
  cases statement <;> rfl

theorem absorbBody_withDynamic (method : MethodId) (body : List Statement) :
    absorbBody setting.withDynamic method (body.map Statement.withDynamic) state =
      absorbBody setting method body state := by
  unfold absorbBody
  rw [List.all_map, List.foldl_map]
  simp only [absorb_withDynamic]
  have operands : operandsInRange setting.withDynamic ∘ Statement.withDynamic =
      operandsInRange setting := funext operandsInRange_withDynamic
  rw [operands]
  rfl

theorem processMethod_withDynamic (method : MethodId) :
    processMethod setting.withDynamic method state = processMethod setting method state := by
  have sites : setting.withDynamic.program.callSites method = setting.program.callSites method :=
    setting.program.callSites_withDynamic method
  have found : setting.withDynamic.program.method? method =
      (setting.program.method? method).map Method.withDynamic :=
    setting.program.method?_withDynamic method
  unfold processMethod
  rw [sites, found]
  cases setting.program.method? method with
  | none => rfl
  | some info =>
    show (if _ then _ else absorbBody setting.withDynamic method (info.body.map Statement.withDynamic) _) = _
    rw [absorbBody_withDynamic]

/-! ### The same steps -/

/-- **The steps are the same**, unless the next thing to do is a call site with an unknown
instruction. -/
theorem step_withDynamic (coherent : Coherent setting state)
    (fine : ∀ site, ¬ Malformed setting state site) :
    step setting.withDynamic state = step setting state := by
  refine setting.hierarchy.sameHeads_withDynamic.step setting.granularity ?_ ?_
    fun method _ _ _ _ => funext fun _ => processMethod_withDynamic method
  · intro parked member
    obtain ⟨call, isCall, virtual, _⟩ := (coherent.waits parked member).isCall
    refine call?_withDynamic_of_known fun unknown => ?_
    obtain ⟨other, same, unrecognised⟩ := setting.program.isUnknown_iff.mp unknown
    rw [isCall] at same
    cases same
    rw [unrecognised] at virtual
    cases virtual
  · exact fun site sites drained next =>
      call?_withDynamic_of_known fun unknown =>
        fine site ⟨drained, ⟨sites, next⟩, setting.program.isUnknown_iff.mp unknown⟩

/-- The construction for the changed program comes to every state that the construction for the
program comes to. -/
theorem Reaches.withDynamic (reaches : Reaches setting entry past state) :
    Reaches setting.withDynamic entry past state := by
  induction reaches with
  | initial => exact .initial
  | step reaches stepped hyp =>
    refine hyp.step ?_
    rw [step_withDynamic reaches.coherent, stepped]
    intro site malformed
    rw [malformed.stuck] at stepped
    cases stepped

/-! ### The order of discovery -/

/-- The call sites found so far keep their places. -/
theorem Reaches.layout_run (reaches : Reaches setting entry past state) (steps : Nat) :
    state.layout setting <+: (run setting steps state).state.layout setting := by
  induction steps generalizing past state with
  | zero => exact List.prefix_rfl
  | succ steps hyp =>
    unfold run
    split
    · exact List.prefix_rfl
    · next next stepped =>
      obtain ⟨found, layout, _⟩ := step_layout reaches.coherent stepped
      have first : state.layout setting <+: next.layout setting := ⟨found, layout.symm⟩
      exact first.trans (hyp (reaches.step stepped))
    · exact List.prefix_rfl

/-- **The call sites that have been resolved have a known instruction.** -/
theorem Reaches.resolved_known (reaches : Reaches setting entry past state) :
    ∀ site ∈ resolved past, setting.program.isUnknown site = false := by
  induction reaches with
  | initial => exact fun site member => absurd member List.not_mem_nil
  | @step past state next reaches stepped hyp =>
    intro site member
    unfold resolved at member
    rw [filterMap_concat] at member
    rcases List.mem_append.mp member with old | last
    · exact hyp site old
    · rw [Bool.eq_false_iff]
      intro unknown
      obtain ⟨sites, drained, waiting⟩ := State.resolved?_eq_some.mp (Option.mem_toList.mp last)
      have malformed : Malformed setting state site :=
        ⟨drained, ⟨sites, waiting⟩, setting.program.isUnknown_iff.mp unknown⟩
      rw [malformed.stuck] at stepped
      cases stepped

/-! ### Where a construction fails -/

theorem layout_withDynamic : state.layout setting.withDynamic = state.layout setting := by
  unfold State.layout
  exact congrArg state.graph.reachable.flatMap (funext setting.program.callSites_withDynamic)

theorem isMethod_withDynamic (isMethod : (setting.program.method? entry).isSome = true) :
    (setting.withDynamic.program.method? entry).isSome = true := by
  show (setting.program.withDynamic.method? entry).isSome = true
  rw [Program.method?_withDynamic, Option.isSome_map]
  exact isMethod

section Outcomes

variable (inRange : setting.program.InRange) (walksEnd : setting.program.WalksEnd)
  (isMethod : (setting.program.method? entry).isSome = true)
include inRange walksEnd isMethod

/-- **The construction for the changed program finishes.** -/
theorem finished_withDynamic : (construct setting.withDynamic entry).ending = .finished := by
  obtain ⟨_, _, ⟨finished, _⟩ | ⟨site, malformed, _⟩⟩ :=
    construct_outcome setting.withDynamic inRange.withDynamic
      (isMethod_withDynamic isMethod) walksEnd.withDynamic
  · exact finished
  · have unknown : setting.program.withDynamic.isUnknown site = true :=
      (Program.isUnknown_iff _).mpr malformed.unknown
    rw [Program.isUnknown_withDynamic] at unknown
    cases unknown

/-- **The construction for the program has the same output** if no call site found in the end has an
unknown instruction, and fails at the first one that has. -/
theorem output_withDynamic : (construct setting entry).output =
    match ((construct setting.withDynamic entry).state.layout setting).find?
      setting.program.isUnknown with
    | none => (construct setting.withDynamic entry).output
    | some site => .error (.malformedCallKind site) := by
  obtain ⟨past, reaches, outcome⟩ := construct_outcome setting inRange isMethod walksEnd
  obtain ⟨steps, whole⟩ := reaches.withDynamic.construct_eq (isMethod_withDynamic isMethod)
  have split := reaches.layout_eq
  have known := reaches.resolved_known
  have clean : (resolved past).find? setting.program.isUnknown = none := by
    rw [List.find?_eq_none]
    intro site member unknown
    rw [known site member] at unknown
    cases unknown
  rcases outcome with ⟨finished, idle⟩ | ⟨site, malformed, failed⟩
  · have idle' : step setting.withDynamic (construct setting entry).state = none := by
      rw [step_withDynamic reaches.coherent, idle]
      intro site malformed
      rw [malformed.stuck] at idle
      cases idle
    have same : construct setting.withDynamic entry = construct setting entry := by
      rw [whole, run_of_idle idle', ← finished]
    rw [same, split, (step_eq_none_iff.mp idle).2.1, List.append_nil, clean]
  · have extended := reaches.withDynamic.layout_run steps
    rw [← whole, layout_withDynamic, layout_withDynamic, split] at extended
    obtain ⟨drained, ⟨sites, next⟩, unknown⟩ := malformed
    obtain ⟨found, layout⟩ := extended
    have first : ((construct setting.withDynamic entry).state.layout setting).find?
        setting.program.isUnknown = some site := by
      rw [← layout, next, List.find?_append, List.find?_append, clean,
        List.find?_cons_of_pos (setting.program.isUnknown_iff.mpr unknown)]
      rfl
    unfold Run.output
    rw [first, failed]

end Outcomes

end Construction

section Graphs

variable {program : Program} (inRange : program.InRange)
include inRange

/-- What is built for a program and for the changed one, in terms of the constructions. -/
theorem buildGraph_eq_output (granularity : Granularity) (entry : MethodId) :
    ∃ hierarchy : Hierarchy, hierarchy.program = program ∧
      buildGraph program granularity entry =
        (Construction.construct ⟨hierarchy, granularity⟩ entry).output ∧
      buildGraph program.withDynamic granularity entry =
        (Construction.construct ⟨hierarchy.withDynamic, granularity⟩ entry).output := by
  obtain ⟨hierarchy, found⟩ := Hierarchy.exists_of? inRange.edgesInRange
  obtain rfl := Hierarchy.program_of? found
  have changed : Hierarchy.of? hierarchy.program.withDynamic = some hierarchy.withDynamic :=
    Hierarchy.of?_program hierarchy.withDynamic
  refine ⟨hierarchy, rfl, ?_, ?_⟩
  · unfold buildGraph constructGraph
    rw [found]
    rfl
  · unfold buildGraph constructGraph
    rw [changed]
    rfl

/-- An entry that is no method is rejected. -/
theorem buildGraph_of_missing (granularity : Granularity) {entry : MethodId}
    (missing : program.method? entry = none) :
    buildGraph program granularity entry = .error (.unknownEntry entry) := by
  obtain ⟨hierarchy, rfl, output, _⟩ := buildGraph_eq_output inRange granularity entry
  have rejected : Construction.construct ⟨hierarchy, granularity⟩ entry =
      ⟨.initial entry, .failed (.unknownEntry entry)⟩ := Construction.construct_of_missing missing
  rw [output, rejected]
  rfl

/-- The changed program has a graph. What is built for the program is the same, unless a call site
of a reachable method has an unknown instruction. -/
theorem buildGraph_withDynamic (walksEnd : program.WalksEnd) (granularity : Granularity)
    {entry : MethodId} (isMethod : program.method? entry ≠ none) :
    ∃ output, buildGraph program.withDynamic granularity entry = .ok output ∧
      buildGraph program granularity entry =
        match (output.graph.reachable.flatMap program.callSites).find? program.isUnknown with
        | none => .ok output
        | some site => .error (.malformedCallKind site) := by
  obtain ⟨hierarchy, rfl, output, changed⟩ := buildGraph_eq_output inRange granularity entry
  let setting : Construction.Setting := ⟨hierarchy, granularity⟩
  have found : (setting.program.method? entry).isSome = true := Option.isSome_iff_ne_none.mpr isMethod
  have outcome : (Construction.construct setting entry).output = _ :=
    Construction.output_withDynamic inRange walksEnd found
  have finished : (Construction.construct setting.withDynamic entry).ending = .finished :=
    Construction.finished_withDynamic inRange walksEnd found
  have whole : (Construction.construct ⟨hierarchy.withDynamic, granularity⟩ entry).output = .ok _ :=
    Construction.output_of_finished finished
  refine ⟨_, changed.trans whole, ?_⟩
  rw [output, outcome, ← whole]
  rfl

/-- **A construction fails at the first call site with an unknown instruction.** In a program whose
identifiers are in range and whose walks end, the entry is unknown exactly if it is no method. If it
is one, the program that reads unknown instructions as dynamic ones has a graph; the construction
fails exactly if a method reachable in that graph has a call site with an unknown instruction, at the
first one in order of discovery and, within a method, of the body; and otherwise it gives the same
graph, linked methods and counts. -/
theorem buildGraph_malformed (walksEnd : program.WalksEnd) (granularity : Granularity)
    (entry : MethodId) :
    (∀ id, buildGraph program granularity entry = .error (.unknownEntry id) ↔
      id = entry ∧ program.method? entry = none) ∧
    (program.method? entry ≠ none → ∃ output,
      buildGraph program.withDynamic granularity entry = .ok output ∧
      ((∃ site, buildGraph program granularity entry = .error (.malformedCallKind site)) ↔
        ∃ method ∈ output.graph.reachable, ∃ site ∈ program.callSites method,
          program.isUnknown site = true) ∧
      (∀ site, buildGraph program granularity entry = .error (.malformedCallKind site) →
        program.FirstUnknown output.graph.reachable site) ∧
      ((∀ method ∈ output.graph.reachable, ∀ site ∈ program.callSites method,
        program.isUnknown site = false) → buildGraph program granularity entry = .ok output)) := by
  by_cases isMethod : program.method? entry = none
  · refine ⟨fun id => ?_, fun known => absurd isMethod known⟩
    rw [buildGraph_of_missing inRange granularity isMethod]
    simp [isMethod, eq_comm]
  · obtain ⟨output, changed, outcome⟩ := buildGraph_withDynamic inRange walksEnd granularity isMethod
    cases first : (output.graph.reachable.flatMap program.callSites).find? program.isUnknown with
    | none =>
      rw [first] at outcome
      have known {method : MethodId} {site : Site} (reachable : method ∈ output.graph.reachable)
          (isSite : site ∈ program.callSites method) : program.isUnknown site ≠ true :=
        List.find?_eq_none.mp first site (List.mem_flatMap.mpr ⟨method, reachable, isSite⟩)
      rw [outcome]
      refine ⟨by simp [isMethod], fun _ => ⟨output, changed, ⟨nofun, ?_⟩, nofun, fun _ => rfl⟩⟩
      rintro ⟨method, reachable, site, isSite, unknown⟩
      exact absurd unknown (known reachable isSite)
    | some site =>
      rw [first] at outcome
      have unknown : program.isUnknown site = true := List.find?_some first
      obtain ⟨method, reachable, isSite⟩ := List.mem_flatMap.mp (List.mem_of_find?_eq_some first)
      rw [outcome]
      refine ⟨by simp [isMethod], fun _ => ⟨output, changed, ⟨fun _ => ?_, fun _ => ⟨site, rfl⟩⟩, ?_, ?_⟩⟩
      · exact ⟨method, reachable, site, isSite, unknown⟩
      · intro other same
        cases same
        exact Program.firstUnknown_of_find first
      · intro known
        rw [known method reachable site isSite] at unknown
        cases unknown

end Graphs

/-- With all shapes as receivers the unknown instruction in the method of the circles is reached. -/
theorem buildGraph_malformed_shapes :
    ∃ output, buildGraph Program.shapes.withDynamic (Variant.cha.granularity .shapes) ⟨0⟩ = .ok output ∧
      Program.shapes.FirstUnknown output.graph.reachable ⟨⟨3⟩, 0⟩ := by
  have inRange : Program.shapes.InRange := by decide
  have walksEnd : Program.shapes.WalksEnd := Program.walksEnd_of_acyclic (by decide)
  have failed : buildGraph .shapes (Variant.cha.granularity .shapes) ⟨0⟩ =
      .error (.malformedCallKind ⟨⟨3⟩, 0⟩) := rfl
  obtain ⟨_, whole⟩ := buildGraph_malformed inRange walksEnd (Variant.cha.granularity .shapes) ⟨0⟩
  obtain ⟨output, changed, _, first, _⟩ := whole (by decide)
  exact ⟨output, changed, first _ failed⟩

end CallFlow
