/-
**Splitting a text at a character.**

* `Text.splitAtLast_eq_none_iff`: only a text without the character cannot be split.
* `Text.splitAtLast_eq_some_iff`: the two parts and the character between them make up the text,
  and the second part does not hold the character.
-/

namespace CallFlow.Text

/-- The characters before and after the last occurrence of a character. -/
def splitAtLast (mark : Char) : List Char → Option (List Char × List Char)
  | [] => none
  | char :: rest =>
    match splitAtLast mark rest with
    | some (before, after) => some (char :: before, after)
    | none => if char = mark then some ([], rest) else none

/-- A text is split at the last occurrence: the part after it does not hold the character. -/
theorem splitAtLast_append {mark : Char} (before : List Char) {after : List Char}
    (last : mark ∉ after) : splitAtLast mark (before ++ mark :: after) = some (before, after) := by
  have whole : splitAtLast mark after = none := by
    induction after with
    | nil => rfl
    | cons char rest hyp =>
      obtain ⟨other, inRest⟩ := List.ne_and_not_mem_of_not_mem_cons last
      simp [splitAtLast, hyp inRest, Ne.symm other]
  induction before with
  | nil => simp [splitAtLast, whole]
  | cons char rest hyp => simp [splitAtLast, hyp]

/-- What is split off a text makes up the text again. -/
theorem eq_append_of_splitAtLast {mark : Char} {chars before after : List Char}
    (parts : splitAtLast mark chars = some (before, after)) :
    chars = before ++ mark :: after := by
  induction chars generalizing before with
  | nil => simp [splitAtLast] at parts
  | cons char rest hyp =>
    simp only [splitAtLast] at parts
    split at parts
    · next inner last found =>
      cases parts
      simp [hyp found]
    · split at parts
      · next same => cases parts; simp [same]
      · cases parts

/-- Only a text without the character cannot be split at it. -/
theorem splitAtLast_eq_none_iff {mark : Char} {chars : List Char} :
    splitAtLast mark chars = none ↔ mark ∉ chars := by
  induction chars with
  | nil => simp [splitAtLast]
  | cons char rest hyp =>
    simp only [splitAtLast, List.mem_cons, not_or]
    split
    · next before after found =>
      have inside : mark ∈ rest := by
        rw [eq_append_of_splitAtLast found]
        exact List.mem_append_right before List.mem_cons_self
      simp [inside]
    · next absent =>
      by_cases same : char = mark
      · simp [same]
      · simp [same, hyp.mp absent, Ne.symm same]

/-- A text is split into what stands before the last occurrence and what stands after it. -/
theorem splitAtLast_eq_some_iff {mark : Char} {chars before after : List Char} :
    splitAtLast mark chars = some (before, after) ↔
      chars = before ++ mark :: after ∧ mark ∉ after := by
  constructor
  · intro parts
    refine ⟨eq_append_of_splitAtLast parts, ?_⟩
    induction chars generalizing before with
    | nil => simp [splitAtLast] at parts
    | cons char rest hyp =>
      simp only [splitAtLast] at parts
      split at parts
      · next found => cases parts; exact hyp found
      · next absent =>
        split at parts
        · cases parts; exact splitAtLast_eq_none_iff.mp absent
        · cases parts
  · rintro ⟨rfl, last⟩
    exact splitAtLast_append before last

end CallFlow.Text
