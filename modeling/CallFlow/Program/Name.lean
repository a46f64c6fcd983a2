/-
**Names in a program.**

The full name of a method is `Class.name(parameters)`, of a field `Class.name`, of a call site the
full name of its method and its position. An identifier outside its table has no name; where a text
is needed all the same, the missing part is left out.

* `Program.methodNamed?`: the method with a full name. The class name ends at the last dot before
  the first bracket, so class names may hold dots.
-/

import CallFlow.Program.Basic
import CallFlow.Text.Split

namespace CallFlow

namespace Program

variable (program : Program)

/-! ### From identifiers to names -/

/-- The name of a class. -/
def className (id : ClassId) : String := (program.class? id).elim "" Class.name

/-- The text of a member signature. -/
def memberName (id : MemberId) : String := (program.member? id).getD ""

/-- The text of a type. -/
def typeName : Ty → String
  | .primitive name | .unknown name => name
  | .object declared => program.className declared
  | .array element => typeName element ++ "[]"

/-- The signature of a method with a name and parameter types. -/
def signature (name : String) (params : List Ty) : String :=
  name ++ "(" ++ ",".intercalate (params.map program.typeName) ++ ")"

/-- The text of a call target. -/
def targetName (target : Target) : String :=
  program.className target.owner ++ "." ++ program.memberName target.member

/-- The full name of a method. -/
def methodName (id : MethodId) : String :=
  (program.method? id).elim "" fun method => program.targetName ⟨method.owner, method.member⟩

/-- The full name of a field. -/
def fieldName (id : FieldId) : String :=
  (program.field? id).elim "" fun field => program.className field.owner ++ "." ++ field.name

/-- The name of a call site. -/
def siteName (site : Site) : String :=
  program.methodName site.method ++ "#" ++ toString site.index

/-! ### From names to identifiers -/

/-- The class with a name. -/
def classNamed? (name : String) : Option ClassId :=
  (program.classes.findIdx? fun info => info.name = name).map ClassId.mk

/-- The member signature with a text. -/
def memberNamed? (text : String) : Option MemberId :=
  (program.members.findIdx? fun known => known = text).map MemberId.mk

/-- The first method of a class with a member signature. -/
def declared? (owner : ClassId) (member : MemberId) : Option MethodId :=
  (program.class? owner).bind fun info =>
    info.methods.find? fun id => (program.method? id).any fun method => method.member = member

/-- The parts of a full method name: the class name and the member signature. -/
def splitMethodName (name : String) : Option (String × String) :=
  let (upToBracket, fromBracket) := name.toList.span fun char => char ≠ '('
  if fromBracket.isEmpty then none
  else (Text.splitAtLast '.' upToBracket).map fun (owner, simple) =>
    (String.ofList owner, String.ofList (simple ++ fromBracket))

/-- The method with a full name. -/
def methodNamed? (name : String) : Option MethodId := do
  let (ownerName, signature) ← splitMethodName name
  let owner ← program.classNamed? ownerName
  let member ← program.memberNamed? signature
  program.declared? owner member

end Program

end CallFlow
