/-
**Scopes and granularities.**

Instantiated classes are tracked per scope. A granularity says which scope a method and a field
report to: all to one scope, one scope for each class, or one for each method or field. The coarser
the granularity, the fewer sets there are and the less precise is the graph.

* `Variant.granularity`: the granularities of the six named analyses.
* `Variant.ofName`: the analysis that a text names.
-/

import CallFlow.Program.Basic

namespace CallFlow

/-- Under what instantiated classes are tracked. -/
inductive Scope where
  | global
  | method (id : MethodId)
  | field (id : FieldId)
  | declaring (id : ClassId)
  deriving DecidableEq, Repr, Inhabited

/-- Scopes are ordered: the global one, methods, fields, classes. -/
instance : OrderKey Scope where
  key
    | .global => [0, 0]
    | .method id => [1, id.index]
    | .field id => [2, id.index]
    | .declaring id => [3, id.index]
  width := 2
  length_key := by rintro (_ | _ | _ | _) <;> rfl
  key_injective := by rintro (_ | ⟨⟨_⟩⟩ | ⟨⟨_⟩⟩ | ⟨⟨_⟩⟩) (_ | ⟨⟨_⟩⟩ | ⟨⟨_⟩⟩ | ⟨⟨_⟩⟩) equal <;> simp_all

/-- The scopes that methods and fields report to. -/
structure Granularity where
  methodScope : MethodId → Scope
  fieldScope : FieldId → Scope
  /-- If not, every concrete class counts as instantiated and nothing flows. -/
  tracksInstantiation : Bool
  /-- Whether a new array instantiates the class of its elements. -/
  countsArrays : Bool

namespace Granularity

/-- How finely methods, or fields, are told apart. -/
inductive Grain where
  | whole
  | byClass
  | single
  deriving DecidableEq, Repr, Inhabited

/-- The scopes of the methods of a program at a grain. -/
def Grain.methodScope (program : Program) : Grain → MethodId → Scope
  | .whole, _ => .global
  | .byClass, id => (program.method? id).elim .global fun method => .declaring method.owner
  | .single, id => .method id

/-- The scopes of the fields of a program at a grain. -/
def Grain.fieldScope (program : Program) : Grain → FieldId → Scope
  | .whole, _ => .global
  | .byClass, id => (program.field? id).elim .global fun field => .declaring field.owner
  | .single, id => .field id

/-- The granularity that tells methods and fields apart at two grains. -/
def ofGrains (program : Program) (methods fields : Grain) (tracks countsArrays : Bool) :
    Granularity :=
  ⟨methods.methodScope program, fields.fieldScope program, tracks, countsArrays⟩

end Granularity

/-- The named analyses: class hierarchy analysis, rapid type analysis and the family of separate
type analyses. -/
inductive Variant where
  | cha
  | rta
  | xta
  | fta
  | mta
  | cta
  deriving DecidableEq, Repr, Inhabited

namespace Variant

/-- All analyses. -/
def all : List Variant := [.cha, .rta, .xta, .fta, .mta, .cta]

/-- The name of an analysis. -/
def name : Variant → String
  | .cha => "cha"
  | .rta => "rta"
  | .xta => "xta"
  | .fta => "fta"
  | .mta => "mta"
  | .cta => "cta"

/-- The analysis with exactly a name. -/
def withName? (text : String) : Option Variant := all.find? fun variant => variant.name = text

/-- A text that names no analysis. -/
structure Unknown where
  text : String
  deriving DecidableEq, Repr, Inhabited

/-- What is said about a text that names no analysis. -/
def Unknown.message (unknown : Unknown) : String :=
  "unknown call graph variant: " ++ unknown.text

/-- The analysis that a text names; the case of ASCII letters does not count. -/
def ofName (text : String) : Except Unknown Variant :=
  match all.find? fun variant => variant.name.toList = text.toList.map Char.toLower with
  | some variant => .ok variant
  | none => .error ⟨text⟩

/-- The scopes of an analysis: `cha` tracks nothing, `rta` has one scope and counts arrays, `xta`
tells all methods and fields apart, `fta` groups the fields by class, `mta` the methods, `cta`
both. -/
def granularity (program : Program) : Variant → Granularity
  | .cha => .ofGrains program .whole .whole false false
  | .rta => .ofGrains program .whole .whole true true
  | .xta => .ofGrains program .single .single true false
  | .fta => .ofGrains program .single .byClass true false
  | .mta => .ofGrains program .byClass .single true false
  | .cta => .ofGrains program .byClass .byClass true false

end Variant

end CallFlow
