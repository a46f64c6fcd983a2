/-
**From descriptions to programs.**

A description becomes a program in passes: classes, then their supertypes, fields and methods, then
the bodies, then the entry. So every name may be used before the place where it is declared. The
first name without a declaration, in this order, is reported.

* `Description.LoadError`: what can be wrong, and its wording.
* `Description.resolve`: the program of a description.
-/

import CallFlow.Description.Basic
import CallFlow.Program.Ascent
import CallFlow.Program.CallKind
import CallFlow.Program.Edit
import CallFlow.Program.TypeName

namespace CallFlow

namespace Description

/-- What can be wrong with the names of a description. -/
inductive LoadError where
  | duplicateClass (name : String)
  | unknownClass (name referrer : String)
  /-- A reference to a field without a dot. -/
  | malformedField (reference : String)
  | unknownField (reference : String)
  | unknownMethod (name : String)
  /-- The search for a field runs around a cycle of superclasses. -/
  | endlessField (reference : String)
  | inMethod (method : String) (cause : LoadError)
  deriving DecidableEq, Repr, Inhabited

/-- What a load error says. -/
def LoadError.message : LoadError → String
  | .duplicateClass name => "duplicate class " ++ name
  | .unknownClass name referrer => "unknown class " ++ name ++ " referenced by " ++ referrer
  | .malformedField reference =>
    "field reference " ++ reference ++ " is not of the form Class.field"
  | .unknownField reference => "unknown field " ++ reference
  | .unknownMethod name => "unknown method " ++ name
  | .endlessField reference => "the search for field " ++ reference ++ " does not end"
  | .inMethod method cause => "in method " ++ method ++ ": " ++ cause.message

/-- The outermost part of what a load error says. -/
def LoadError.headline : LoadError → String
  | .inMethod method _ => "in method " ++ method
  | error => error.message

/-! ### Names -/

/-- The class with a name that something refers to. -/
def classReferred (program : Program) (name referrer : String) : Except LoadError ClassId :=
  match program.classNamed? name with
  | some id => .ok id
  | none => .error (.unknownClass name referrer)

/-- The field that a reference `Class.field` means. The class name ends at the last dot. -/
def fieldReferred (program : Program) (reference : String) : Except LoadError FieldId := do
  match Text.splitAtLast '.' reference.toList with
  | none => .error (.malformedField reference)
  | some (owner, name) =>
    let owner ← classReferred program (String.ofList owner) reference
    match program.lookupField owner (String.ofList name) with
    | .ok (some field) => .ok field
    | .ok none => .error (.unknownField reference)
    | .error _ => .error (.endlessField reference)

/-- The method with a full name, in which blanks do not count. -/
def methodReferred (program : Program) (name : String) : Except LoadError MethodId :=
  match program.methodNamed? (Text.removeBlanks name) with
  | some method => .ok method
  | none => .error (.unknownMethod name)

/-! ### Passes -/

/-- Adds the classes by name. No name may stand twice. -/
def addClasses (classes : List Class) (program : Program) : Except LoadError Program :=
  classes.foldlM (fun program info =>
    if (program.classNamed? info.name).isSome then .error (.duplicateClass info.name)
    else .ok (program.addClass info.name).1) program

/-- Sets the supertypes and flags of a class. -/
def setSupertypes (program : Program) (id : ClassId) (info : Class) : Except LoadError Program := do
  let superclass ← info.superclass.mapM fun name => classReferred program name info.name
  let interfaces ← info.interfaces.mapM fun name => classReferred program name info.name
  pure (program.updateClass id fun known =>
    { known with
      superclass := superclass
      interfaces := interfaces
      isAbstract := info.isAbstract
      isInterface := info.isInterface })

/-- Adds the fields of a class. -/
def addFields (program : Program) (id : ClassId) (info : Class) : Program :=
  info.fields.foldl (fun program field =>
    (program.addField id field.name (program.typeNamed field.type)).1) program

/-- The result type of a method: none for `void`. -/
def resultType (program : Program) (result : Option String) : Option Ty :=
  (result.filter fun name => name ≠ "void").map program.typeNamed

/-- Adds a method without its body. -/
def addMethod (program : Program) (id : ClassId) (method : Method) : Program :=
  let (program, added) := program.addMethod id method.name
    (method.params.map program.typeNamed) (resultType program method.result)
  program.updateMethod added fun known =>
    { known with isStatic := method.isStatic, isAbstract := method.isAbstract }

/-- Adds the methods of a class without their bodies. -/
def addMethods (program : Program) (id : ClassId) (info : Class) : Program :=
  info.methods.foldl (fun program method => addMethod program id method) program

/-- The statement that a description of one means, and the program with the member signature that
a call mentions. -/
def resolveStatement (program : Program) :
    Statement → Except LoadError (Program × CallFlow.Statement)
  | .new name => do
    pure (program, .new (← classReferred program name "new"))
  | .newArray element => pure (program, .newArray (program.typeNamed element))
  | .store field => do
    pure (program, .store (← fieldReferred program field))
  | .load field => do
    pure (program, .load (← fieldReferred program field))
  | .invoke kind className method => do
    let owner ← classReferred program className "invoke"
    let (program, member) := program.addMember (Text.removeBlanks method)
    pure (program, .invoke ⟨CallKind.ofName kind, ⟨owner, member⟩⟩)
  | .other => pure (program, .other)

/-- Appends a statement to a method. -/
def addStatement (id : MethodId) (program : Program) (statement : Statement) :
    Except LoadError Program :=
  match resolveStatement program statement with
  | .ok (program, resolved) => .ok (program.addStatement id resolved)
  | .error cause => .error (.inMethod (program.methodName id) cause)

/-- Appends the statements of a method. -/
def addBody (program : Program) (id : MethodId) (method : Method) : Except LoadError Program :=
  method.body.foldlM (addStatement id) program

/-- Sets the entry method. -/
def setEntry (entry : Option String) (program : Program) : Except LoadError Program :=
  match entry with
  | none => .ok program
  | some name => (methodReferred program name).map fun method => { program with entry := method }

/-! ### The whole -/

/-- The classes of a description with their identifiers. -/
def numberedClasses (description : Description) : List (Class × ClassId) :=
  description.classes.zipIdx.map fun (info, index) => (info, ⟨index⟩)

/-- The methods of a description, class by class, with their identifiers. -/
def numberedMethods (description : Description) : List (Method × MethodId) :=
  (description.classes.flatMap Class.methods).zipIdx.map fun (method, index) => (method, ⟨index⟩)

/-- The program of a description. -/
def resolve (description : Description) : Except LoadError Program := do
  let classes := numberedClasses description
  let program ← addClasses description.classes {}
  let program ← classes.foldlM (fun program (info, id) => setSupertypes program id info) program
  let program := classes.foldl (fun program (info, id) => addFields program id info) program
  let program := classes.foldl (fun program (info, id) => addMethods program id info) program
  let program ← (numberedMethods description).foldlM
    (fun program (method, id) => addBody program id method) program
  setEntry description.entry program

end Description

end CallFlow
