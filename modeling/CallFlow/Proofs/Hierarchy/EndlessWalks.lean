/-
**Walks that never end.**

Superclasses may form a cycle. A walk that runs into one goes round for ever, unless some class on its way
has what it looks for. There is nothing between the two: a walk ends within as many steps as there are
classes, or it never does.

* `Program.OnCycle`, `Program.RunsIntoCycle`: cycles of superclasses, and the chains that lead to one.
* `Program.goesRound_iff`: where a walk goes round.
* `Program.WalkOutcome`: a walk ends soon or never, and a question that it answers has an answer if the walk
  ends.
* `Program.EdgesInRange.walkOutcome`: so it is with every walk from a class.
* `Hierarchy.dispatch_outcome`, `Hierarchy.resolve_outcome`, `Program.EdgesInRange.lookupField_outcome`: the
  walks that look for methods and for fields.
-/

import CallFlow.Proofs.Hierarchy.Walks

namespace CallFlow

namespace Program

variable {program : Program} {α : Type} {find : ClassId → Class → Option α} {id : ClassId}

/-! ### Cycles -/

theorem OnChain.trans {lower middle upper : ClassId} (first : OnChain program lower middle)
    (second : OnChain program middle upper) : OnChain program lower upper := by
  induction first with
  | refl id => exact second
  | step isClass above _ hyp => exact .step isClass above (hyp second)

variable (program) in
/-- The superclass chain of the superclass of a class leads back to the class. -/
def OnCycle (id : ClassId) : Prop :=
  ∃ info next, program.class? id = some info ∧ info.superclass = some next ∧ OnChain program next id

variable (program) in
/-- The superclass chain of a class leads to a class on a cycle. -/
def RunsIntoCycle (id : ClassId) : Prop := ∃ again, OnChain program id again ∧ program.OnCycle again

variable (program find) in
/-- No class on the superclass chain of a class has what is looked for. -/
def NoneOnChain (id : ClassId) : Prop :=
  ∀ above info, OnChain program id above → program.class? above = some info → find above info = none

theorem NoneOnChain.above {lower upper : ClassId} (silent : program.NoneOnChain find lower)
    (onChain : OnChain program lower upper) : program.NoneOnChain find upper :=
  fun above info further => silent above info (onChain.trans further)

/-! ### Walks that go round -/

theorem Climbs.onChain {lower upper : ClassId} (climbs : program.Climbs find lower upper) :
    OnChain program lower upper := by
  induction climbs with
  | refl id => exact .refl id
  | step isClass _ above _ hyp => exact .step isClass above hyp

/-- Where no class on the chain has what is looked for, a walk gets to every class of the chain. -/
theorem climbs_of_onChain {lower upper : ClassId} (onChain : OnChain program lower upper)
    (silent : program.NoneOnChain find lower) : program.Climbs find lower upper := by
  induction onChain with
  | refl id => exact .refl id
  | @step lower middle upper info isClass above rest hyp =>
    have next : OnChain program lower middle := .step isClass above (.refl middle)
    exact .step isClass (silent lower info (.refl lower) isClass) above (hyp (silent.above next))

/-- A walk that goes round finds nothing on the chain. -/
theorem GoesRound.noneOnChain (round : program.GoesRound find id) : program.NoneOnChain find id := by
  intro above info onChain isClass
  induction onChain with
  | refl id =>
    obtain ⟨found, next, isFound, silent, -⟩ := round.step
    rw [isClass] at isFound
    cases isFound
    exact silent
  | @step lower middle upper lowerInfo lowerIsClass superclass rest hyp =>
    obtain ⟨found, next, isFound, -, up, goesOn⟩ := round.step
    rw [lowerIsClass] at isFound
    cases isFound
    rw [superclass] at up
    cases up
    exact hyp goesOn isClass

/-- **A walk goes round exactly if the chain runs into a cycle and nothing is found on it.** -/
theorem goesRound_iff :
    program.GoesRound find id ↔ program.RunsIntoCycle id ∧ program.NoneOnChain find id := by
  constructor
  · intro round
    refine ⟨?_, round.noneOnChain⟩
    obtain ⟨again, info, next, climbs, isClass, -, above, back⟩ := round
    exact ⟨again, climbs.onChain, info, next, isClass, above, back.onChain⟩
  · rintro ⟨⟨again, onChain, info, next, isClass, above, back⟩, silent⟩
    have silentAgain := silent.above onChain
    have up : OnChain program again next := .step isClass above (.refl next)
    exact ⟨again, info, next, climbs_of_onChain onChain silent, isClass,
      silentAgain again info (.refl again) isClass, above,
      climbs_of_onChain back (silentAgain.above up)⟩

/-! ### Walks that never end -/

variable (program find) in
/-- No number of steps is enough for a walk. -/
def NeverEnds (id : ClassId) : Prop :=
  ∀ steps, program.ascendWithin find steps id = .error .endlessWalk

/-- A walk that never ends goes round, and the other way round. -/
theorem neverEnds_iff_goesRound : program.NeverEnds find id ↔ program.GoesRound find id :=
  ⟨fun never => goesRound_of_endless (never _), fun round => round.endless⟩

/-- **A walk never ends exactly if the chain runs into a cycle and nothing is found on it.** -/
theorem neverEnds_iff :
    program.NeverEnds find id ↔ program.RunsIntoCycle id ∧ program.NoneOnChain find id :=
  neverEnds_iff_goesRound.trans goesRound_iff

/-- A walk from a class stays in the program. -/
theorem Climbs.isClass (inRange : program.EdgesInRange) {lower upper : ClassId}
    (climbs : program.Climbs find lower upper) (isClass : (program.class? lower).isSome = true) :
    (program.class? upper).isSome = true := by
  induction climbs with
  | refl => exact isClass
  | step found _ above _ hyp =>
    exact hyp (inRange.isClass isClass (program.mem_directSupertypes_of_superclass found above))

/-- **A walk of as many steps as there are classes ends or goes round.** It has met as many classes, and the
one that it would go on with is a class as well. -/
theorem EdgesInRange.neverEnds_of_endless (inRange : program.EdgesInRange)
    (isClass : (program.class? id).isSome = true)
    (endless : program.ascendWithin find program.classes.size id = .error .endlessWalk) :
    program.NeverEnds find id := by
  rw [neverEnds_iff_goesRound]
  rcases goesRound_or_climbs endless with round | ⟨visited, last, length, nodup, -, climbs⟩
  · exact round
  · have known : visited ++ [last] ⊆ program.classIds := fun met among =>
      program.mem_classIds.mpr ((climbs met among).isClass inRange isClass)
    have bound := nodup.length_le_of_subset known
    rw [List.length_append, length, List.length_singleton, length_classIds] at bound
    omega

variable (program find) in
/-- A question that a walk from a class answers. The walk ends within as many steps as there are classes,
or it never ends; it never ends exactly if the superclass chain runs into a cycle and nothing is found on
it. The question has an answer if the walk ends. -/
structure WalkOutcome {β : Type} (id : ClassId) (outcome : Except Fault β) : Prop where
  endsOrNever : (∃ found, program.ascendWithin find program.classes.size id = .ok found) ∨
    program.NeverEnds find id
  neverEnds_iff : program.NeverEnds find id ↔ program.RunsIntoCycle id ∧ program.NoneOnChain find id
  answered_iff : (∃ answer, outcome = .ok answer) ↔ ¬ program.NeverEnds find id
  unanswered_iff : outcome = .error .endlessWalk ↔ program.NeverEnds find id

/-- **Every walk from a class ends soon or never.** -/
theorem EdgesInRange.walkOutcome (inRange : program.EdgesInRange)
    (isClass : (program.class? id).isSome = true) (find : ClassId → Class → Option α) {β : Type}
    (answer : Option α → β) :
    program.WalkOutcome find id ((program.ascend find id).map answer) := by
  cases outcome : program.ascendWithin find program.classes.size id with
  | ok found =>
    have ends : ¬ program.NeverEnds find id := fun never => by
      rw [never] at outcome
      cases outcome
    have ascended : program.ascend find id = .ok found := by
      rw [ascend_of_ends (by rw [outcome]; exact nofun), outcome]
    rw [ascended]
    exact ⟨.inl ⟨found, outcome⟩, neverEnds_iff, ⟨fun _ => ends, fun _ => ⟨_, rfl⟩⟩,
      ⟨nofun, fun never => absurd never ends⟩⟩
  | error fault =>
    cases fault with
    | outOfRange => exact absurd outcome (inRange.ascendWithin_ne find isClass _)
    | endlessWalk =>
      have never := inRange.neverEnds_of_endless isClass outcome
      have ascended : program.ascend find id = .error .endlessWalk := never _
      rw [ascended]
      exact ⟨.inr never, neverEnds_iff, ⟨by rintro ⟨_, ⟨⟩⟩, fun ends => absurd never ends⟩,
        ⟨fun _ => never, fun _ => rfl⟩⟩

/-- A question is answered if no cycle is in the way. -/
theorem WalkOutcome.answered {β : Type} {outcome : Except Fault β}
    (walk : program.WalkOutcome find id outcome) (straight : ¬ program.RunsIntoCycle id) :
    ∃ answer, outcome = .ok answer :=
  walk.answered_iff.mpr fun never => straight (walk.neverEnds_iff.mp never).1

theorem EdgesInRange.lookupField_outcome (inRange : program.EdgesInRange)
    (isClass : (program.class? id).isSome = true) (name : String) :
    program.WalkOutcome (fun _ info => program.ownField? info name) id (program.lookupField id name) := by
  have same : (program.lookupField id name).map (fun found => found) = program.lookupField id name := by
    cases program.lookupField id name <;> rfl
  rw [← same]
  exact inRange.walkOutcome isClass (fun _ info => program.ownField? info name) fun found => found

end Program

namespace Hierarchy

variable {hierarchy : Hierarchy} {id : ClassId}

/-- Whether a call on a receiver is answered depends on the walk for its member. -/
theorem dispatch_outcome (isClass : (hierarchy.program.class? id).isSome = true) (member : MemberId) :
    hierarchy.program.WalkOutcome (fun candidate _ => hierarchy.program.declared? candidate member) id
      (hierarchy.dispatch id member) :=
  hierarchy.edgesInRange.walkOutcome isClass _ _

theorem resolve_outcome (isClass : (hierarchy.program.class? id).isSome = true) (member : MemberId) :
    hierarchy.program.WalkOutcome (fun candidate _ => hierarchy.program.declared? candidate member) id
      (hierarchy.resolve ⟨id, member⟩) :=
  hierarchy.edgesInRange.walkOutcome isClass _ _

end Hierarchy

end CallFlow
