/-
**Descriptions as JSON.**

The record layouts of programs, classes, fields and methods. Every field but the names, the type of
a field and the classes of a program may be missing.

* `Description.ofText`: reads the description of a program.
-/

import CallFlow.Description.Statement
import CallFlow.Json.Record

namespace CallFlow.Description

open Json

/-! ### Fields -/

/-- The fields of a field record. -/
inductive FieldKey where
  | name
  | type
  deriving DecidableEq, Repr

/-- How a field is written. -/
def fieldLayout : Layout where
  Field := FieldKey
  decideField := inferInstance
  Value _ := String
  fields := [.name, .type]
  name
    | .name => "name"
    | .type => "type"
  mayBeMissing _ := false
  read _ _ := string

/-- The field that the values found make up. -/
def fieldOf (draft : fieldLayout.Draft) : Option Field := do
  let name ← draft FieldKey.name
  let type ← draft FieldKey.type
  pure { name, type }

/-! ### Methods -/

/-- The fields of a method record. -/
inductive MethodKey where
  | name
  | params
  | result
  | isStatic
  | isAbstract
  | body
  deriving DecidableEq, Repr

/-- What the value of a field of a method record is. -/
abbrev MethodKey.Value : MethodKey → Type
  | .name => String
  | .params => List String
  | .result => Option String
  | .isStatic | .isAbstract => Bool
  | .body => List Statement

/-- How a method is written. -/
def methodLayout : Layout where
  Field := MethodKey
  decideField := inferInstance
  Value := MethodKey.Value
  fields := [.name, .params, .result, .isStatic, .isAbstract, .body]
  name
    | .name => "name"
    | .params => "params"
    | .result => "return"
    | .isStatic => "static"
    | .isAbstract => "abstract"
    | .body => "body"
  mayBeMissing
    | .name => false
    | _ => true
  read
    | .name, _ => string
    | .params, depth => list (fun _ => string) depth
    | .result, _ => optionalString
    | .isStatic, _ | .isAbstract, _ => boolean
    | .body, depth => list statement depth

/-- The method that the values found make up. -/
def methodOf (draft : methodLayout.Draft) : Option Method := do
  let name ← draft MethodKey.name
  pure
    { name
      params := (draft MethodKey.params).getD []
      result := (draft MethodKey.result).getD none
      isStatic := (draft MethodKey.isStatic).getD false
      isAbstract := (draft MethodKey.isAbstract).getD false
      body := (draft MethodKey.body).getD [] }

/-! ### Classes -/

/-- The fields of a class record. -/
inductive ClassKey where
  | name
  | superclass
  | interfaces
  | isAbstract
  | isInterface
  | fields
  | methods
  deriving DecidableEq, Repr

/-- What the value of a field of a class record is. -/
abbrev ClassKey.Value : ClassKey → Type
  | .name => String
  | .superclass => Option String
  | .interfaces => List String
  | .isAbstract | .isInterface => Bool
  | .fields => List Field
  | .methods => List Method

/-- How a class is written. -/
def classLayout : Layout where
  Field := ClassKey
  decideField := inferInstance
  Value := ClassKey.Value
  fields := [.name, .superclass, .interfaces, .isAbstract, .isInterface, .fields, .methods]
  name
    | .name => "name"
    | .superclass => "super"
    | .interfaces => "interfaces"
    | .isAbstract => "abstract"
    | .isInterface => "interface"
    | .fields => "fields"
    | .methods => "methods"
  mayBeMissing
    | .name => false
    | _ => true
  read
    | .name, _ => string
    | .superclass, _ => optionalString
    | .interfaces, depth => list (fun _ => string) depth
    | .isAbstract, _ | .isInterface, _ => boolean
    | .fields, depth => list (fieldLayout.record fieldOf) depth
    | .methods, depth => list (methodLayout.record methodOf) depth

/-- The class that the values found make up. -/
def classOf (draft : classLayout.Draft) : Option Class := do
  let name ← draft ClassKey.name
  pure
    { name
      superclass := (draft ClassKey.superclass).getD none
      interfaces := (draft ClassKey.interfaces).getD []
      isAbstract := (draft ClassKey.isAbstract).getD false
      isInterface := (draft ClassKey.isInterface).getD false
      fields := (draft ClassKey.fields).getD []
      methods := (draft ClassKey.methods).getD [] }

/-! ### Programs -/

/-- The fields of a program record. -/
inductive ProgramKey where
  | entry
  | classes
  deriving DecidableEq, Repr

/-- What the value of a field of a program record is. -/
abbrev ProgramKey.Value : ProgramKey → Type
  | .entry => Option String
  | .classes => List Class

/-- How a program is written. -/
def programLayout : Layout where
  Field := ProgramKey
  decideField := inferInstance
  Value := ProgramKey.Value
  fields := [.entry, .classes]
  name
    | .entry => "entry"
    | .classes => "classes"
  mayBeMissing _ := false
  read
    | .entry, _ => optionalString
    | .classes, depth => list (classLayout.record classOf) depth

/-- The description that the values found make up. -/
def programOf (draft : programLayout.Draft) : Option Description := do
  let classes ← draft ProgramKey.classes
  pure { entry := (draft ProgramKey.entry).getD none, classes }

/-- The number of lists and objects that may be open at once. -/
def depthLimit : Nat := 127

/-- Reads the description of a program and the end of the text behind it. -/
def program : Reader Description := do
  let description ← programLayout.record programOf depthLimit
  match ← next? with
  | none => pure description
  | some _ => fail .malformed

/-- The description that a text gives. -/
def ofText (text : String) : Except Problem Description :=
  (program.run text.toList).map Prod.fst

end CallFlow.Description
