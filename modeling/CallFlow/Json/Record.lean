/-
**JSON records.**

A record has named fields, each with a shape of its own. It is written as an object, with the fields
in any order, or as a list, with the values in the order of the fields. In an object no field may
stand twice and no other name may appear; a list may end early before fields that allow it.

* `Json.Layout`: the fields of a record and how their values are read.
* `Json.Layout.record`: reads either form and gives the values found.
-/

import CallFlow.Json.Literal

namespace CallFlow.Json

/-- The fields of a record. -/
structure Layout where
  Field : Type
  decideField : DecidableEq Field
  /-- The type of the values of a field. -/
  Value : Field → Type
  /-- The fields in the order of the list form. -/
  fields : List Field
  name : Field → String
  /-- Whether the list form may end before a field. -/
  mayBeMissing : Field → Bool
  /-- Reads a value, given how many lists and objects may still be open at once. -/
  read : (field : Field) → Nat → Reader (Value field)

namespace Layout

variable (layout : Layout)

/-- The values of the fields found so far. -/
def Draft : Type := (field : layout.Field) → Option (layout.Value field)

/-- No field is found yet. -/
def blank : layout.Draft := fun _ => none

/-- One more field is found. -/
def put (draft : layout.Draft) (field : layout.Field) (value : layout.Value field) : layout.Draft :=
  fun other =>
    match layout.decideField field other with
    | .isTrue same => some (same ▸ value)
    | .isFalse _ => draft other

/-- The field with a name. -/
def named? (name : String) : Option layout.Field :=
  layout.fields.find? fun field => layout.name field = name

/-- Reads the members of an object, in at most so many rounds. -/
def membersWithin (depth : Nat) : Rounds → Bool → layout.Draft → Reader layout.Draft
  | [], _, _ => fail .unfinished
  | _ :: rounds, first, draft => do
    if ← moreMembers first then
      match layout.named? (← quoted) with
      | none => fail .misshapen
      | some field =>
        if (draft field).isSome then fail .misshapen
        else
          colon
          let value ← layout.read field depth
          membersWithin depth rounds false (layout.put draft field value)
    else pure draft

/-- Reads the values of a list for given fields. -/
def valuesFor (depth : Nat) : List layout.Field → Bool → layout.Draft → Reader layout.Draft
  | [], _, draft => pure draft
  | field :: others, first, draft => do
    if ← moreElements first then
      let value ← layout.read field depth
      valuesFor depth others false (layout.put draft field value)
    else if layout.mayBeMissing field then valuesFor depth others first draft
    else fail .misshapen

/-- Reads a record in either form. The values found must make up a whole record, which is looked at
before the object or the list is closed. -/
def record {α : Type} (whole : layout.Draft → Option α) (depth : Nat) : Reader α := do
  let finish (draft : layout.Draft) (mark : Char) : Reader α :=
    match whole draft with
    | none => fail .misshapen
    | some value => do
      close mark
      pure value
  match ← next? with
  | some '\x7b' => inside depth fun depth => do
    finish (← layout.membersWithin depth (← rounds) true layout.blank) '\x7d'
  | some '[' => inside depth fun depth => do
    finish (← layout.valuesFor depth layout.fields true layout.blank) ']'
  | _ => refuse

end Layout

end CallFlow.Json
