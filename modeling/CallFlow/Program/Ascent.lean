/-
**Walking up the superclass chain.**

A member or a field is searched on a class, then on its superclass, and so on: the nearest
declaration wins. Superclasses may form a cycle, and on a cycle without a declaration the walk would
never end. A chain longer than the number of classes has met some class twice, so a walk of that
many steps that has found nothing and has not ended never will.

* `Program.ascend`: the walk, with that bound on its steps.
* `Program.lookupField`: the field that a class name and a field name refer to.
-/

import CallFlow.Program.Basic

namespace CallFlow

/-- What makes a question about a program unanswerable. -/
inductive Fault where
  /-- An identifier is not inside its table. -/
  | outOfRange
  /-- A walk up the superclasses runs around a cycle for ever. -/
  | endlessWalk
  deriving DecidableEq, Repr, Inhabited

namespace Program

variable (program : Program)

/-- Walks up from a class, at most so many classes, to the first one that has what is looked for. -/
def ascendWithin {α : Type} (find : ClassId → Class → Option α) :
    Nat → ClassId → Except Fault (Option α)
  | 0, _ => .error .endlessWalk
  | steps + 1, id =>
    match program.class? id with
    | none => .error .outOfRange
    | some info =>
      match find id info, info.superclass with
      | some found, _ => .ok (some found)
      | none, none => .ok none
      | none, some superclass => ascendWithin find steps superclass

/-- Walks up from a class to the first one that has what is looked for. -/
def ascend {α : Type} (find : ClassId → Class → Option α) (id : ClassId) :
    Except Fault (Option α) :=
  program.ascendWithin find (program.classes.size + 1) id

/-- The first field of a class with a name. -/
def ownField? (info : Class) (name : String) : Option FieldId :=
  info.fields.find? fun id => (program.field? id).any fun field => field.name = name

/-- The field with a name in the nearest class, upwards from a class, that declares one. -/
def lookupField (id : ClassId) (name : String) : Except Fault (Option FieldId) :=
  program.ascend (fun _ info => program.ownField? info name) id

end Program

end CallFlow
