/-
**Programs up to the numbers of their classes, methods and fields.**

An identifier is a position in a table, and which position that is depends on the order in which the
records were added. Two programs are the same for all that matters if bijections of the identifiers turn
the records of one into those of the other. Member signatures have no bijection of their own: they
correspond where they are spelled alike.

* `exists_moving_of_perm`: every entry of a list is moved to that of a permuted one.
* `Renumbering`: bijections of the identifiers of classes, methods and fields.
* `Program.Isomorphic`: the records of two programs correspond under a renumbering.
-/

import Mathlib.Data.List.Forall2
import Mathlib.Data.List.Nodup
import Mathlib.Logic.Equiv.Basic
import CallFlow.Program.TypeName

namespace CallFlow

/-! ### Moved lists -/

/-- Lists of distinct values, of which one has the values of the other one moved. -/
theorem perm_map_of_mem {α : Type} {move : Equiv.Perm α} {values moved : List α}
    (distinct : values.Nodup) (movedDistinct : moved.Nodup)
    (members : ∀ value, move value ∈ moved ↔ value ∈ values) : moved.Perm (values.map move) := by
  rw [List.perm_ext_iff_of_nodup movedDistinct (distinct.map move.injective)]
  intro value
  obtain ⟨original, rfl⟩ := move.surjective value
  rw [List.mem_map_of_injective move.injective, members]

/-- A permutation of the positions after the first one. -/
def afterFirst (move : Equiv.Perm Nat) : Equiv.Perm Nat where
  toFun
    | 0 => 0
    | index + 1 => move index + 1
  invFun
    | 0 => 0
    | index + 1 => move.symm index + 1
  left_inv index := by cases index <;> simp
  right_inv index := by cases index <;> simp

/-- Every entry of a list is moved to that of a permuted one. -/
theorem exists_moving_of_perm {α : Type} {first second : List α} (perm : first.Perm second) :
    ∃ move : Equiv.Perm Nat, ∀ index : Nat, second[move index]? = first[index]? := by
  induction perm with
  | nil => exact ⟨Equiv.refl Nat, fun index => rfl⟩
  | cons value _ hyp =>
    obtain ⟨move, moved⟩ := hyp
    refine ⟨afterFirst move, fun index => ?_⟩
    cases index with
    | zero => rfl
    | succ index => exact moved index
  | swap left right rest =>
    refine ⟨Equiv.swap 0 1, fun index => ?_⟩
    obtain _ | _ | index := index
    · rfl
    · rfl
    · rw [Equiv.swap_apply_of_ne_of_ne (by omega) (by omega)]
      rfl
  | trans _ _ hyp otherHyp =>
    obtain ⟨move, moved⟩ := hyp
    obtain ⟨otherMove, otherMoved⟩ := otherHyp
    exact ⟨move.trans otherMove, fun index => (otherMoved (move index)).trans (moved index)⟩

/-! ### Renumberings -/

/-- Bijections of the identifiers of classes, methods and fields. -/
structure Renumbering where
  classes : Equiv.Perm ClassId
  methods : Equiv.Perm MethodId
  fields : Equiv.Perm FieldId

variable (numbers : Renumbering)

/-- A type with its class renumbered. -/
def Ty.renumbered : Ty → Ty
  | .primitive name => .primitive name
  | .object declared => .object (numbers.classes declared)
  | .array element => .array element.renumbered
  | .unknown name => .unknown name

/-- A class with the identifiers that it mentions renumbered. -/
def Class.renumbered (info : Class) : Class :=
  { info with
    superclass := info.superclass.map numbers.classes
    interfaces := info.interfaces.map numbers.classes
    methods := info.methods.map numbers.methods
    fields := info.fields.map numbers.fields }

/-- A field with the identifiers that it mentions renumbered. -/
def Field.renumbered (field : Field) : Field :=
  { field with owner := numbers.classes field.owner, type := field.type.renumbered numbers }

namespace Program

variable (first second : Program)

/-- Two members are spelled alike. -/
def SameMember (member other : MemberId) : Prop :=
  ∃ text, first.member? member = some text ∧ second.member? other = some text

/-- Two statements correspond. -/
inductive SameStatement : Statement → Statement → Prop where
  | new (allocated : ClassId) : SameStatement (.new allocated) (.new (numbers.classes allocated))
  | newArray (element : Ty) : SameStatement (.newArray element) (.newArray (element.renumbered numbers))
  | store (field : FieldId) : SameStatement (.store field) (.store (numbers.fields field))
  | load (field : FieldId) : SameStatement (.load field) (.load (numbers.fields field))
  | invoke (kind : CallKind) (owner : ClassId) {member other : MemberId}
      (spelled : first.SameMember second member other) :
      SameStatement (.invoke ⟨kind, ⟨owner, member⟩⟩) (.invoke ⟨kind, ⟨numbers.classes owner, other⟩⟩)
  | other : SameStatement .other .other

/-- Two methods correspond, statement by statement. -/
structure SameMethod (method other : Method) : Prop where
  owner : other.owner = numbers.classes method.owner
  name : other.name = method.name
  member : first.SameMember second method.member other.member
  params : other.params = method.params.map (Ty.renumbered numbers)
  result : other.result = method.result.map (Ty.renumbered numbers)
  isStatic : other.isStatic = method.isStatic
  isAbstract : other.isAbstract = method.isAbstract
  body : List.Forall₂ (first.SameStatement numbers second) method.body other.body

/-- Two programs are the same up to a renumbering, in which classes keep their names. An identifier outside
its table is renumbered to one outside. -/
structure Isomorphic : Prop where
  named : ∀ name, second.classNamed? name = (first.classNamed? name).map numbers.classes
  classes : ∀ id, second.class? (numbers.classes id) = (first.class? id).map (Class.renumbered numbers)
  fields : ∀ id, second.field? (numbers.fields id) = (first.field? id).map (Field.renumbered numbers)
  methods : ∀ id, Option.Rel (first.SameMethod numbers second) (first.method? id)
    (second.method? (numbers.methods id))
  entry : second.entry = first.entry.map numbers.methods

variable {first second numbers}

/-- A name stands for the renumbered type if the classes keep their names. -/
theorem typeNamed_renumbered
    (named : ∀ name, second.classNamed? name = (first.classNamed? name).map numbers.classes)
    (text : String) : second.typeNamed text = (first.typeNamed text).renumbered numbers := by
  have base (name : String) :
      second.baseTypeNamed name = (first.baseTypeNamed name).renumbered numbers := by
    unfold baseTypeNamed
    rw [named]
    split
    · rfl
    · cases first.classNamed? name <;> rfl
  have wrapped (count : Nat) (type : Ty) :
      arrayOf count (type.renumbered numbers) = (arrayOf count type).renumbered numbers := by
    induction count with
    | zero => rfl
    | succ count hyp => exact congrArg Ty.array hyp
  unfold typeNamed
  dsimp only
  rw [base, wrapped]

end Program

end CallFlow
