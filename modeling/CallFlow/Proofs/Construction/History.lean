/-
**The states that a construction comes to.**

A construction comes to its states one step after the other. What holds at the start and is kept by
taking something off a queue and by every change holds in all of them.

* `Construction.Reaches`: a state that a construction comes to, after which earlier ones.
* `Construction.Reaches.preserve`: the induction over all states, by single changes.
* `Construction.run_reaches`: the last state of a run is one of them, and its ending says why no
  further step was taken.
-/

import CallFlow.Construction.Run
import CallFlow.Proofs.Construction.Task

namespace CallFlow

namespace Construction

/-- A state that a construction comes to, with the states before it, in order. -/
inductive Reaches (setting : Setting) (entry : MethodId) : List State → State → Prop
  | initial : Reaches setting entry [] (.initial entry)
  | step {past : List State} {state next : State} (reaches : Reaches setting entry past state)
      (stepped : step setting state = some (.ok next)) :
      Reaches setting entry (past ++ [state]) next

variable {setting : Setting} {entry : MethodId} {past : List State} {state : State}

theorem Reaches.coherent (reaches : Reaches setting entry past state) : Coherent setting state := by
  induction reaches with
  | initial => exact .initial setting entry
  | step reaches stepped hyp =>
    obtain ⟨taken, takes, changes⟩ := step_changes hyp stepped
    exact Changes.coherent (takes.coherent hyp) changes

/-- **What is kept by taking and changing holds in every state.** -/
theorem Reaches.preserve (kept : State → Prop) (start : kept (.initial entry))
    (taking : ∀ {before after}, Coherent setting before → kept before → Takes setting before after →
      kept after)
    (changing : ∀ {before after}, kept before → Change setting before after → kept after)
    (reaches : Reaches setting entry past state) : kept state := by
  induction reaches with
  | initial => exact start
  | step reaches stepped hyp =>
    obtain ⟨taken, takes, changes⟩ := step_changes reaches.coherent stepped
    exact reflTransGen_preserves changing changes (taking reaches.coherent hyp takes)

/-- What the steps so far have taken off a queue, and what the next one takes. -/
theorem filterMap_concat {α : Type} (taken? : State → Option α) (past : List State) (state : State) :
    (past ++ [state]).filterMap taken? = past.filterMap taken? ++ (taken? state).toList := by
  rw [List.filterMap_append]
  cases found : taken? state <;> simp [found]

/-! ### Runs -/

/-- Why no further step is taken from a state: nothing is left, the step fails, or no more steps are
granted. -/
inductive Ends (setting : Setting) (state : State) : Prop → Ending → Prop
  | finished {spent : Prop} (idle : step setting state = none) : Ends setting state spent .finished
  | failed {spent : Prop} {error : BuildError} (stuck : step setting state = some (.error error)) :
      Ends setting state spent (.failed error)
  | exhausted {spent : Prop} (all : spent) (busy : step setting state ≠ none) :
      Ends setting state spent (.failed .stepsExhausted)

/-- **The last state of a run** is one that the construction comes to, and the ending says why it is
the last. -/
theorem run_reaches (steps : Nat) (reaches : Reaches setting entry past state) :
    ∃ later, Reaches setting entry (past ++ later) (run setting steps state).state ∧
      Ends setting (run setting steps state).state (later.length = steps)
        (run setting steps state).ending := by
  induction steps generalizing past state with
  | zero =>
    refine ⟨[], by rw [List.append_nil]; exact reaches, ?_⟩
    show Ends setting state (0 = 0) (if _ then _ else _)
    split
    · next idle => exact .finished (Option.isNone_iff_eq_none.mp idle)
    · next busy => exact .exhausted rfl fun idle => busy (Option.isNone_iff_eq_none.mpr idle)
  | succ steps hyp =>
    unfold run
    split
    · next idle => exact ⟨[], by rw [List.append_nil]; exact reaches, .finished idle⟩
    · next next stepped =>
      obtain ⟨later, reached, ends⟩ := hyp (reaches.step stepped)
      refine ⟨state :: later, ?_, ?_⟩
      · rw [List.append_assoc] at reached
        exact reached
      · simpa only [List.length_cons, Nat.add_right_cancel_iff] using ends
    · next error stuck => exact ⟨[], by rw [List.append_nil]; exact reaches, .failed stuck⟩

/-- A run from the start passes through every state that the construction comes to. -/
theorem Reaches.run_eq (reaches : Reaches setting entry past state) (steps : Nat) :
    run setting (past.length + steps) (.initial entry) = run setting steps state := by
  induction reaches generalizing steps with
  | initial => rw [List.length_nil, Nat.zero_add]
  | @step past state next reaches stepped hyp =>
    have first : run setting (steps + 1) state = run setting steps next := by
      rw [run, stepped]
    rw [List.length_append, List.length_singleton, Nat.add_assoc, Nat.add_comm 1 steps, hyp, first]

/-- No step is taken when nothing is left. -/
theorem run_of_idle (idle : step setting state = none) (steps : Nat) :
    run setting steps state = ⟨state, .finished⟩ := by
  cases steps with
  | zero =>
    unfold run
    rw [idle]
    rfl
  | succ steps =>
    unfold run
    rw [idle]

/-- What a finished construction has built. -/
theorem output_of_finished {run : Run} (finished : run.ending = .finished) :
    run.output = .ok ⟨run.state.graph, run.state.cache.linkedTargets, run.state.statistics⟩ := by
  unfold Run.output
  rw [finished]

/-- An entry that is no method of the program is rejected. -/
theorem construct_of_missing (missing : setting.program.method? entry = none) :
    construct setting entry = ⟨.initial entry, .failed (.unknownEntry entry)⟩ := by
  unfold construct
  rw [missing]
  rfl

/-- The construction of a graph from a method of the program. -/
theorem construct_reaches (isMethod : (setting.program.method? entry).isSome = true) :
    ∃ past, Reaches setting entry past (construct setting entry).state ∧
      Ends setting (construct setting entry).state (past.length = stepBound setting.program)
        (construct setting entry).ending := by
  unfold construct
  rw [if_pos isMethod]
  exact run_reaches (stepBound setting.program) .initial

end Construction

/-- The construction of a graph of a program takes place in the hierarchy of the program. -/
theorem constructGraph_eq_ok {program : Program} {granularity : Granularity} {entry : MethodId}
    {run : Construction.Run} : constructGraph program granularity entry = .ok run ↔
      ∃ hierarchy, Hierarchy.of? program = some hierarchy ∧
        run = Construction.construct ⟨hierarchy, granularity⟩ entry := by
  unfold constructGraph
  cases Hierarchy.of? program with
  | none => simp
  | some hierarchy => simp [eq_comm]

/-- It does take place if the edges of the hierarchy lead to classes of the program. -/
theorem exists_constructGraph {program : Program} (edgesInRange : program.EdgesInRange)
    (granularity : Granularity) (entry : MethodId) :
    ∃ hierarchy : Hierarchy, hierarchy.program = program ∧
      constructGraph program granularity entry =
        .ok (Construction.construct ⟨hierarchy, granularity⟩ entry) := by
  obtain ⟨hierarchy, found⟩ := Hierarchy.exists_of? edgesInRange
  exact ⟨hierarchy, Hierarchy.program_of? found, constructGraph_eq_ok.mpr ⟨hierarchy, found, rfl⟩⟩

/-- A graph is built by a construction that finishes. -/
theorem buildGraph_eq_ok {program : Program} {granularity : Granularity} {entry : MethodId}
    {output : BuildOutput} : buildGraph program granularity entry = .ok output ↔
      ∃ run, constructGraph program granularity entry = .ok run ∧ run.ending = .finished ∧
        output = ⟨run.state.graph, run.state.cache.linkedTargets, run.state.statistics⟩ := by
  unfold buildGraph
  cases constructGraph program granularity entry with
  | error error => simp [Except.bind]
  | ok run =>
    unfold Except.bind Construction.Run.output
    cases ended : run.ending with
    | finished => simp [ended, eq_comm]
    | failed error => simp [ended]

/-- There is a graph if the construction finishes. -/
theorem exists_buildGraph_iff {program : Program} {granularity : Granularity} {entry : MethodId}
    {run : Construction.Run} (constructed : constructGraph program granularity entry = .ok run) :
    (∃ output, buildGraph program granularity entry = .ok output) ↔ run.ending = .finished := by
  constructor
  · rintro ⟨output, built⟩
    obtain ⟨other, same, finished, _⟩ := buildGraph_eq_ok.mp built
    rw [constructed] at same
    cases same
    exact finished
  · exact fun finished => ⟨_, buildGraph_eq_ok.mpr ⟨run, constructed, finished, rfl⟩⟩

/-- Only from a method of the program does a construction finish. -/
theorem isMethod_of_finished {setting : Construction.Setting} {entry : MethodId}
    (finished : (Construction.construct setting entry).ending = .finished) :
    (setting.program.method? entry).isSome = true := by
  by_contra missing
  rw [Construction.construct_of_missing (Option.not_isSome_iff_eq_none.mp missing)] at finished
  cases finished

/-- **A finished construction** has come to a state in which nothing is left. -/
theorem reaches_of_finished {setting : Construction.Setting} {entry : MethodId}
    (finished : (Construction.construct setting entry).ending = .finished) :
    ∃ past, Construction.Reaches setting entry past (Construction.construct setting entry).state ∧
      Construction.step setting (Construction.construct setting entry).state = none := by
  obtain ⟨past, reaches, ends⟩ := Construction.construct_reaches (isMethod_of_finished finished)
  rw [finished] at ends
  cases ends with
  | finished idle => exact ⟨past, reaches, idle⟩

end CallFlow
