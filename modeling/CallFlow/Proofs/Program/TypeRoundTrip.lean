/-
**Types and their texts.**

The text of a type that is read from a name is read as the same type again. So the types that can be read
have different texts. Pairs of brackets behind a name make arrays of what it stands for, whatever blanks
stand between the pairs.

* `Text.BracketPairs`: pairs of brackets with blanks around them.
* `Text.Peeled`: a text, reversed, from which no blank and no pair of brackets is taken off.
* `Program.typeNamed_append`: what brackets behind a name make of its type.
* `Program.typeNamed_typeText`: the text of a type stands for the type.
* `Program.typeNamed_roundTrip`: names, types and texts.
-/

import Mathlib.Data.List.DropRight
import CallFlow.Proofs.Description.Passes
import CallFlow.Proofs.Program.TypeText

namespace CallFlow

namespace Text

/-! ### Pairs of brackets -/

/-- So many pairs of brackets, with any blanks before, between and behind them. No blank stands inside a
pair. -/
inductive BracketPairs : Nat → List Char → Prop where
  | nil : BracketPairs 0 []
  | blank {count : Nat} {char : Char} {rest : List Char} (isBlank : isBlank char = true)
      (pairs : BracketPairs count rest) : BracketPairs count (char :: rest)
  | pair {count : Nat} {rest : List Char} (pairs : BracketPairs count rest) :
      BracketPairs (count + 1) ('[' :: ']' :: rest)

theorem BracketPairs.append {first second : Nat} {chars rest : List Char}
    (pairs : BracketPairs first chars) (others : BracketPairs second rest) :
    BracketPairs (first + second) (chars ++ rest) := by
  induction pairs with
  | nil =>
    rw [Nat.zero_add]
    exact others
  | blank isBlank _ hyp => exact .blank isBlank hyp
  | pair _ hyp =>
    rw [Nat.add_right_comm]
    exact .pair hyp

/-- The pairs of brackets of a text are such pairs. -/
theorem bracketPairs_brackets (count : Nat) : BracketPairs count (brackets count).toList := by
  induction count with
  | zero => exact .nil
  | succ count hyp =>
    rw [brackets, String.toList_append]
    exact hyp.append (.pair .nil)

theorem peelBrackets_blank {char : Char} (blank : isBlank char = true) (rest : List Char) :
    peelBrackets (char :: rest) = peelBrackets rest := by
  conv_lhs => unfold peelBrackets
  exact if_pos blank

theorem peelBrackets_pair (rest : List Char) : peelBrackets (']' :: '[' :: rest) =
    ((peelBrackets rest).1 + 1, (peelBrackets rest).2) := by
  have plain : isBlank ']' = false := by decide
  rw [peelBrackets, plain, if_neg Bool.false_ne_true]

/-- **Pairs of brackets at the end are taken off**, and then what stands before them is peeled. -/
theorem peelBrackets_append {count : Nat} {suffix : List Char} (pairs : BracketPairs count suffix)
    (chars : List Char) : peelBrackets (chars ++ suffix).reverse =
      ((peelBrackets chars.reverse).1 + count, (peelBrackets chars.reverse).2) := by
  induction pairs generalizing chars with
  | nil => rw [List.append_nil, Nat.add_zero]
  | @blank count char rest blank _ hyp =>
    have whole : chars ++ char :: rest = (chars ++ [char]) ++ rest := by simp
    rw [whole, hyp, List.reverse_append, List.reverse_singleton, List.singleton_append,
      peelBrackets_blank blank]
  | @pair count rest _ hyp =>
    have whole : chars ++ '[' :: ']' :: rest = (chars ++ ['[', ']']) ++ rest := by simp
    have last : (chars ++ ['[', ']']).reverse = ']' :: '[' :: chars.reverse := by simp
    rw [whole, hyp, last, peelBrackets_pair, Nat.add_assoc, Nat.add_comm 1]

/-! ### Peeled texts -/

/-- A reversed text has neither a blank nor a pair of brackets at its end. -/
structure Peeled (chars : List Char) : Prop where
  plain : ∀ char rest, chars = char :: rest → isBlank char = false
  unpaired : ¬ [']', '['] <+: chars

/-- Nothing is taken off a peeled text. -/
theorem Peeled.peelBrackets_eq {chars : List Char} (peeled : Peeled chars) :
    peelBrackets chars = (0, chars) := by
  unfold peelBrackets
  split
  · rfl
  · next char rest =>
    rw [peeled.plain char rest rfl, if_neg Bool.false_ne_true]
    split
    · next inner =>
      exact absurd ⟨inner, rfl⟩ peeled.unpaired
    · rfl

/-- What is left of a text is peeled. -/
theorem peeled_peelBrackets (chars : List Char) : Peeled (peelBrackets chars).2 := by
  fun_induction peelBrackets chars with
  | case1 =>
    refine ⟨fun char rest same => ?_, by simp⟩
    cases same
  | case2 char rest blank hyp => exact hyp
  | case3 inner count base peeled plain hyp =>
    rw [peeled] at hyp
    exact hyp
  | case4 char rest plain unpaired =>
    refine ⟨fun first others same => ?_, fun starts => ?_⟩
    · cases same
      exact Bool.eq_false_iff.mpr plain
    · obtain ⟨inner, same⟩ := starts
      cases same
      exact unpaired inner rfl rfl

/-- A text that a peeled one starts with is peeled. -/
theorem Peeled.of_starts {chars first : List Char} (peeled : Peeled chars) (starts : first <+: chars) :
    Peeled first where
  plain char rest same := by
    obtain ⟨others, rfl⟩ := starts
    exact peeled.plain char (rest ++ others) (by rw [same, List.cons_append])
  unpaired pair := peeled.unpaired (pair.trans starts)

/-- The name that is left without its brackets and without blanks at its ends. -/
def baseText (name : String) : List Char := trimStart (peelBrackets name.toList.reverse).2.reverse

theorem typeText_eq (name : String) : typeText name =
    String.ofList (baseText name) ++ brackets (peelBrackets name.toList.reverse).1 := rfl

/-- What is left of a name is peeled, and no blank is at its front. -/
theorem peelBrackets_baseText (name : String) :
    peelBrackets (baseText name).reverse = (0, (baseText name).reverse) := by
  refine ((peeled_peelBrackets name.toList.reverse).of_starts ?_).peelBrackets_eq
  have ends : baseText name <:+ (peelBrackets name.toList.reverse).2.reverse := List.dropWhile_suffix _
  rw [← List.reverse_reverse (peelBrackets name.toList.reverse).2]
  exact List.reverse_prefix.mpr ends

/-- Nothing more is taken off what is left of a name. -/
theorem baseText_baseText (name : String) :
    baseText (String.ofList (baseText name)) = baseText name := by
  have trimmed : trimStart (baseText name) = baseText name := List.dropWhile_idempotent _ _
  have again : baseText (String.ofList (baseText name)) =
      trimStart (peelBrackets (String.ofList (baseText name)).toList.reverse).2.reverse := rfl
  rw [again, String.toList_ofList, peelBrackets_baseText, List.reverse_reverse, trimmed]

end Text

namespace Program

variable (program : Program)

/-! ### Names of array types -/

theorem typeNamed_eq (name : String) : program.typeNamed name =
    arrayOf (Text.peelBrackets name.toList.reverse).1
      (program.baseTypeNamed (String.ofList (Text.baseText name))) := rfl

theorem arrayOf_add (first second : Nat) (type : Ty) :
    arrayOf (first + second) type = arrayOf second (arrayOf first type) := by
  induction second with
  | zero => rfl
  | succ second hyp =>
    show Ty.array (arrayOf (first + second) type) = Ty.array (arrayOf second (arrayOf first type))
    rw [hyp]

/-- An array has the base class of its elements. -/
theorem baseClass_arrayOf (count : Nat) (type : Ty) : (arrayOf count type).baseClass = type.baseClass := by
  induction count with
  | zero => rfl
  | succ count hyp => exact hyp

/-- **Pairs of brackets behind a name make arrays** of what the name stands for. -/
theorem typeNamed_append {count : Nat} {suffix : String}
    (pairs : Text.BracketPairs count suffix.toList) (name : String) :
    program.typeNamed (name ++ suffix) = arrayOf count (program.typeNamed name) := by
  have peeled := Text.peelBrackets_append pairs name.toList
  rw [← String.toList_append] at peeled
  have base : Text.baseText (name ++ suffix) = Text.baseText name := by
    unfold Text.baseText
    rw [peeled]
  rw [typeNamed_eq, base, peeled, arrayOf_add, ← typeNamed_eq]

/-- A name without brackets and without blanks at its ends stands for what it stands for as a base. -/
theorem typeNamed_baseText (name : String) : program.typeNamed (String.ofList (Text.baseText name)) =
    program.baseTypeNamed (String.ofList (Text.baseText name)) := by
  rw [typeNamed_eq, Text.baseText_baseText, String.toList_ofList, Text.peelBrackets_baseText, arrayOf]

/-- **The text of a type stands for the type.** -/
theorem typeNamed_typeText (name : String) :
    program.typeNamed (Text.typeText name) = program.typeNamed name := by
  rw [Text.typeText_eq, program.typeNamed_append (Text.bracketPairs_brackets _), typeNamed_baseText,
    ← typeNamed_eq]

/-- **Types that are read from names go back and forth between texts.** The type that a name stands for has
a text, which stands for the same type. So two such types with one text are the same type. And pairs of
brackets behind the name, with any blanks between them, make arrays of its type, with the same base
class. -/
theorem typeNamed_roundTrip (name : String) :
    (program.typeName? (program.typeNamed name) = some (program.typeName (program.typeNamed name)) ∧
      program.typeNamed (program.typeName (program.typeNamed name)) = program.typeNamed name) ∧
    (∀ other, program.typeName (program.typeNamed other) = program.typeName (program.typeNamed name) →
      program.typeNamed other = program.typeNamed name) ∧
    ∀ count suffix, Text.BracketPairs count suffix.toList →
      program.typeNamed (name ++ suffix) = arrayOf count (program.typeNamed name) ∧
      (program.typeNamed (name ++ suffix)).baseClass = (program.typeNamed name).baseClass := by
  refine ⟨⟨if_pos (hasType_typeNamed name), ?_⟩, fun other same => ?_, fun count suffix pairs => ?_⟩
  · rw [typeName_typeNamed, typeNamed_typeText]
  · rw [typeName_typeNamed, typeName_typeNamed] at same
    rw [← program.typeNamed_typeText other, same, typeNamed_typeText]
  · have wrapped := program.typeNamed_append pairs name
    exact ⟨wrapped, by rw [wrapped, baseClass_arrayOf]⟩

/-- Rows of rows of squares, with blanks in their name. -/
theorem typeNamed_roundTrip_shapes :
    Text.BracketPairs 2 " []\t[] ".toList ∧
    shapes.typeNamed " Square" = .object ⟨2⟩ ∧
    shapes.typeNamed (" Square" ++ " []\t[] ") = .array (.array (.object ⟨2⟩)) ∧
    (shapes.typeNamed (" Square" ++ " []\t[] ")).baseClass = some ⟨2⟩ ∧
    shapes.typeNamed "Square" = shapes.typeNamed " Square" := by
  have pairs : Text.BracketPairs 2 " []\t[] ".toList :=
    .blank (by decide) (.pair (.blank (by decide) (.pair (.blank (by decide) .nil))))
  have square : shapes.typeNamed " Square" = .object ⟨2⟩ := by decide +kernel
  have sameText : shapes.typeName (shapes.typeNamed "Square") =
      shapes.typeName (shapes.typeNamed " Square") := by decide +kernel
  obtain ⟨-, injective, arrays⟩ := shapes.typeNamed_roundTrip " Square"
  obtain ⟨wrapped, base⟩ := arrays 2 " []\t[] " pairs
  exact ⟨pairs, square, by rw [wrapped, square]; rfl, by rw [base, square]; rfl,
    injective "Square" sameText⟩

end Program

end CallFlow
