/-
**Programs.**

A program is four tables (classes, methods, fields, member signatures) and perhaps an entry method.
An identifier is a position in its table; a table only grows, so an identifier keeps its meaning.

* `Program.class?`, `Program.method?`, `Program.field?`, `Program.member?`: what an identifier
  stands for, if it is inside its table.
* `Program.callSites`: the call sites of a method, in the order of its body.
-/

import CallFlow.Order.Key

namespace CallFlow

/-! ### Identifiers -/

/-- The position of a class in its program. -/
structure ClassId where
  index : Nat
  deriving DecidableEq, Repr, Inhabited

/-- The position of a method in its program. -/
structure MethodId where
  index : Nat
  deriving DecidableEq, Repr, Inhabited

/-- The position of a field in its program. -/
structure FieldId where
  index : Nat
  deriving DecidableEq, Repr, Inhabited

/-- The position of a member signature, such as `m(A,int)`, in its program. -/
structure MemberId where
  index : Nat
  deriving DecidableEq, Repr, Inhabited

/-- A statement of a method body, by its method and its position there. -/
structure Site where
  method : MethodId
  index : Nat
  deriving DecidableEq, Repr, Inhabited

instance : OrderKey ClassId where
  key id := [id.index]
  width := 1
  length_key _ := rfl
  key_injective := by rintro ⟨_⟩ ⟨_⟩ equal; simpa using equal

instance : OrderKey MethodId where
  key id := [id.index]
  width := 1
  length_key _ := rfl
  key_injective := by rintro ⟨_⟩ ⟨_⟩ equal; simpa using equal

instance : OrderKey FieldId where
  key id := [id.index]
  width := 1
  length_key _ := rfl
  key_injective := by rintro ⟨_⟩ ⟨_⟩ equal; simpa using equal

instance : OrderKey MemberId where
  key id := [id.index]
  width := 1
  length_key _ := rfl
  key_injective := by rintro ⟨_⟩ ⟨_⟩ equal; simpa using equal

/-- Sites are ordered by method, then by position. -/
instance : OrderKey Site where
  key site := [site.method.index, site.index]
  width := 2
  length_key _ := rfl
  key_injective := by rintro ⟨⟨_⟩, _⟩ ⟨⟨_⟩, _⟩ equal; simpa using equal

/-! ### Types, calls and statements -/

/-- A declared type. -/
inductive Ty where
  | primitive (name : String)
  | object (declared : ClassId)
  | array (element : Ty)
  /-- A type whose class is no part of the program. -/
  | unknown (name : String)
  deriving DecidableEq, Repr, Inhabited

/-- The class of a type that is a class. -/
def Ty.asClass : Ty → Option ClassId
  | .object declared => some declared
  | _ => none

/-- The class of a type that is a class or an array with elements of a class, at any depth. -/
def Ty.baseClass : Ty → Option ClassId
  | .array element => element.baseClass
  | type => type.asClass

/-- How a call statement finds the method that it calls. -/
inductive CallKind where
  | static
  | special
  | virtual
  | interface
  | dynamic
  /-- An instruction that is not known; no graph is built once one is reached. -/
  | other
  deriving DecidableEq, Repr, Inhabited

/-- The declared target of a call: a class and a member signature. -/
structure Target where
  owner : ClassId
  member : MemberId
  deriving DecidableEq, Repr, Inhabited

/-- Targets are ordered by class, then by member. -/
instance : OrderKey Target where
  key target := [target.owner.index, target.member.index]
  width := 2
  length_key _ := rfl
  key_injective := by rintro ⟨⟨_⟩, ⟨_⟩⟩ ⟨⟨_⟩, ⟨_⟩⟩ equal; simpa using equal

/-- A call statement. -/
structure Call where
  kind : CallKind
  target : Target
  deriving DecidableEq, Repr, Inhabited

/-- The statements that matter to a call graph. -/
inductive Statement where
  | new (allocated : ClassId)
  | newArray (element : Ty)
  | store (field : FieldId)
  | load (field : FieldId)
  | invoke (call : Call)
  | other
  deriving DecidableEq, Repr, Inhabited

/-- The call of a call statement. -/
def Statement.call? : Statement → Option Call
  | .invoke call => some call
  | _ => none

/-! ### Tables -/

/-- A class or an interface. -/
structure Class where
  name : String
  superclass : Option ClassId := none
  interfaces : List ClassId := []
  isAbstract : Bool := false
  isInterface : Bool := false
  methods : List MethodId := []
  fields : List FieldId := []
  deriving DecidableEq, Repr, Inhabited

/-- Whether objects of exactly this class can exist. -/
def Class.isConcrete (info : Class) : Bool := !info.isAbstract && !info.isInterface

/-- The superclass, if there is one, and the interfaces. -/
def Class.directSupertypes (info : Class) : List ClassId :=
  info.superclass.toList ++ info.interfaces

/-- A method and its body. -/
structure Method where
  owner : ClassId
  name : String
  member : MemberId
  params : List Ty
  result : Option Ty
  isStatic : Bool := false
  isAbstract : Bool := false
  body : List Statement := []
  deriving DecidableEq, Repr, Inhabited

/-- The positions of the call statements of a body with their calls, in order. -/
def Method.calls (method : Method) : List (Nat × Call) :=
  method.body.zipIdx.filterMap fun (statement, index) => statement.call?.map (index, ·)

/-- A field. -/
structure Field where
  owner : ClassId
  name : String
  type : Ty
  deriving DecidableEq, Repr, Inhabited

/-- A program. -/
structure Program where
  classes : Array Class := #[]
  methods : Array Method := #[]
  fields : Array Field := #[]
  /-- The member signatures, each once. -/
  members : Array String := #[]
  entry : Option MethodId := none
  deriving DecidableEq, Repr, Inhabited

namespace Program

variable (program : Program)

/-- The class with an identifier. -/
def class? (id : ClassId) : Option Class := program.classes[id.index]?

/-- The method with an identifier. -/
def method? (id : MethodId) : Option Method := program.methods[id.index]?

/-- The field with an identifier. -/
def field? (id : FieldId) : Option Field := program.fields[id.index]?

/-- The member signature with an identifier. -/
def member? (id : MemberId) : Option String := program.members[id.index]?

/-- The identifiers of all classes, ascending. -/
def classIds : List ClassId := (List.range program.classes.size).map ClassId.mk

/-- The identifiers of all methods, ascending. -/
def methodIds : List MethodId := (List.range program.methods.size).map MethodId.mk

/-- The identifiers of all fields, ascending. -/
def fieldIds : List FieldId := (List.range program.fields.size).map FieldId.mk

/-- Whether a class is concrete. -/
def isConcrete (id : ClassId) : Bool := (program.class? id).any Class.isConcrete

/-- Whether a method is abstract. -/
def isAbstract (id : MethodId) : Bool := (program.method? id).any Method.isAbstract

/-- Whether a method is static. -/
def isStatic (id : MethodId) : Bool := (program.method? id).any Method.isStatic

/-- The call at a site of a method of the program, if a call statement stands there. -/
def call? (site : Site) : Option Call :=
  (program.method? site.method).bind fun method => (method.body[site.index]?).bind (·.call?)

/-- The call sites of a method, in the order of its body. -/
def callSites (id : MethodId) : List Site :=
  ((program.method? id).elim [] Method.calls).map fun (index, _) => ⟨id, index⟩

/-- A call stands at every call site of a method, and nowhere else. -/
theorem mem_callSites {method : MethodId} {site : Site} :
    site ∈ program.callSites method ↔
      site.method = method ∧ ∃ call, program.call? site = some call := by
  unfold callSites call?
  rw [List.mem_map]
  constructor
  · rintro ⟨⟨index, call⟩, member, rfl⟩
    cases found : program.method? method with
    | none => rw [found] at member; cases member
    | some info =>
      rw [found] at member
      obtain ⟨⟨statement, position⟩, stands, same⟩ := List.mem_filterMap.mp member
      obtain ⟨_, isCall, paired⟩ := Option.map_eq_some_iff.mp same
      cases paired
      refine ⟨rfl, call, ?_⟩
      rw [Option.bind_some, List.mem_zipIdx_iff_getElem?.mp stands, Option.bind_some]
      exact isCall
  · rintro ⟨rfl, call, isCall⟩
    obtain ⟨info, found, inBody⟩ := Option.bind_eq_some_iff.mp isCall
    obtain ⟨statement, stands, same⟩ := Option.bind_eq_some_iff.mp inBody
    refine ⟨(site.index, call), ?_, rfl⟩
    rw [found]
    refine List.mem_filterMap.mpr ⟨(statement, site.index), ?_, ?_⟩
    · exact List.mem_zipIdx_iff_getElem?.mpr stands
    · show statement.call?.map (fun call => (site.index, call)) = _
      rw [same]
      rfl

/-- The call sites of a method stand in the order of its body, each once. -/
theorem pairwise_callSites (method : MethodId) :
    (program.callSites method).Pairwise fun first second => first.index < second.index := by
  unfold callSites
  rw [List.pairwise_map]
  cases program.method? method with
  | none => exact .nil
  | some info =>
    show info.calls.Pairwise fun first second => first.1 < second.1
    unfold Method.calls
    rw [List.pairwise_filterMap]
    have positions : (info.body.zipIdx.map Prod.snd).Pairwise (· < ·) := by
      rw [List.zipIdx_map_snd]
      exact List.pairwise_lt_range'
    rw [List.pairwise_map] at positions
    refine positions.imp fun {first second} before left leftCall right rightCall => ?_
    obtain ⟨_, _, rfl⟩ := Option.map_eq_some_iff.mp leftCall
    obtain ⟨_, _, rfl⟩ := Option.map_eq_some_iff.mp rightCall
    exact before

end Program

end CallFlow
