/-
**The text of a type.**

A type that is read from a name is written without the blanks at the ends of the name and between
its pairs of brackets. Blanks inside the name stay.

* `Text.removeBlanks_eq_self`: the texts that stay as they are when their blanks are removed.
* `Text.typeText`: the text of the type that a name stands for.
* `Program.typeName_typeNamed`: it is the text of that type in every program.
* `Text.removeBlanks_typeText`: only blanks are lost.
-/

import CallFlow.Program.TypeName

namespace CallFlow

namespace Text

/-! ### Texts without blanks -/

/-- There is no blank in a text. -/
def BlankFree (text : String) : Prop := ∀ char ∈ text.toList, isBlank char = false

instance (text : String) : Decidable (BlankFree text) :=
  List.decidableBAll (fun char => isBlank char = false) text.toList

/-- Only a text without blanks stays as it is when its blanks are removed. -/
theorem removeBlanks_eq_self {text : String} : removeBlanks text = text ↔ BlankFree text := by
  rw [← String.toList_inj, toList_removeBlanks, List.filter_eq_self]
  simp [BlankFree]

theorem removeBlanks_append (first second : String) :
    removeBlanks (first ++ second) = removeBlanks first ++ removeBlanks second := by
  rw [← String.toList_inj]
  simp [toList_removeBlanks]

theorem removeBlanks_intercalate (separator : String) (parts : List String) :
    removeBlanks (separator.intercalate parts) =
      (removeBlanks separator).intercalate (parts.map removeBlanks) := by
  induction parts with
  | nil => rfl
  | cons first rest hyp =>
    cases rest with
    | nil => simp
    | cons second rest =>
      rw [String.intercalate_cons_cons, removeBlanks_append, removeBlanks_append, hyp]
      simp only [List.map_cons, String.intercalate_cons_cons]

theorem blankFree_append {first second : String} :
    BlankFree (first ++ second) ↔ BlankFree first ∧ BlankFree second := by
  simp [BlankFree, or_imp, forall_and]

theorem blankFree_intercalate {separator : String} (plain : BlankFree separator)
    {parts : List String} :
    BlankFree (separator.intercalate parts) ↔ ∀ part ∈ parts, BlankFree part := by
  induction parts with
  | nil => simp [BlankFree]
  | cons first rest hyp =>
    cases rest with
    | nil => simp
    | cons second rest =>
      have parted : BlankFree (separator.intercalate (first :: second :: rest)) ↔
          BlankFree first ∧ BlankFree (separator.intercalate (second :: rest)) := by
        rw [String.intercalate_cons_cons, blankFree_append, blankFree_append]
        exact and_congr_left fun _ => and_iff_left plain
      rw [parted, hyp]
      exact List.forall_mem_cons.symm

/-! ### Brackets -/

/-- So many pairs of brackets. -/
def brackets : Nat → String
  | 0 => ""
  | count + 1 => brackets count ++ "[]"

/-- The text of the type that a name stands for. -/
def typeText (name : String) : String :=
  let (count, base) := peelBrackets name.toList.reverse
  String.ofList (trimStart base.reverse) ++ brackets count

/-- What is peeled off a text are pairs of brackets and blanks. -/
theorem filter_peelBrackets (chars : List Char) :
    chars.reverse.filter (fun char => !isBlank char) =
      (peelBrackets chars).2.reverse.filter (fun char => !isBlank char) ++
        (brackets (peelBrackets chars).1).toList := by
  fun_induction peelBrackets chars with
  | case1 => rfl
  | case2 char rest blank hyp => simpa [blank] using hyp
  | case3 inner count base peeled plain hyp =>
    rw [peeled] at hyp
    have bracketsPlain : isBlank '[' = false ∧ isBlank ']' = false := by decide
    rw [List.reverse_cons, List.reverse_cons, List.filter_append, List.filter_append, hyp]
    simp [brackets, bracketsPlain]
  | case4 => simp [brackets]

/-- Only blanks at the front are lost when the front is trimmed. -/
theorem filter_trimStart (chars : List Char) :
    (trimStart chars).filter (fun char => !isBlank char) =
      chars.filter fun char => !isBlank char := by
  induction chars with
  | nil => rfl
  | cons char rest hyp =>
    unfold trimStart at hyp ⊢
    cases blank : isBlank char with
    | false => simp [blank]
    | true => simpa [blank] using hyp

/-- **The text of a type is its name up to blanks.** -/
theorem removeBlanks_typeText (name : String) :
    removeBlanks (typeText name) = removeBlanks name := by
  rw [← String.toList_inj, toList_removeBlanks, toList_removeBlanks]
  have peeled := filter_peelBrackets name.toList.reverse
  rw [List.reverse_reverse] at peeled
  have plain (count : Nat) : (brackets count).toList.filter (fun char => !isBlank char) =
      (brackets count).toList := by
    induction count with
    | zero => rfl
    | succ count hyp =>
      have last : "[]".toList.filter (fun char => !isBlank char) = "[]".toList := by decide
      rw [brackets, String.toList_append, List.filter_append, hyp, last]
  rw [peeled, typeText, String.toList_append, String.toList_ofList, List.filter_append,
    filter_trimStart, plain]

end Text

namespace Program

variable (program : Program)

theorem className_of_classNamed {name : String} {id : ClassId}
    (named : program.classNamed? name = some id) : program.className id = name := by
  obtain ⟨index, found, rfl⟩ := Option.map_eq_some_iff.mp named
  obtain ⟨inside, same, _⟩ := Array.findIdx?_eq_some_iff_getElem.mp found
  unfold className class?
  rw [Array.getElem?_eq_getElem inside]
  exact of_decide_eq_true same

theorem typeName_baseTypeNamed (name : String) :
    program.typeName (program.baseTypeNamed name) = name := by
  unfold baseTypeNamed
  split
  · rfl
  · cases named : program.classNamed? name with
    | none => rfl
    | some id => exact program.className_of_classNamed named

theorem typeName_arrayOf (count : Nat) (type : Ty) :
    program.typeName (arrayOf count type) = program.typeName type ++ Text.brackets count := by
  induction count with
  | zero => simp [arrayOf, Text.brackets]
  | succ count hyp => rw [arrayOf, typeName, hyp, Text.brackets, String.append_assoc]

/-- **The type that a name stands for is written as the text of the name**, whether or not it
mentions a class of the program. -/
theorem typeName_typeNamed (name : String) :
    program.typeName (program.typeNamed name) = Text.typeText name := by
  unfold typeNamed Text.typeText
  rw [typeName_arrayOf, typeName_baseTypeNamed]

end Program

end CallFlow
