/-
**Identifiers that may be out of range.**

The same questions and changes as elsewhere, for identifiers of any origin: one that is not inside
its table gives no answer. What is not looked at may be out of range.

* `Program.hasType`: whether a type mentions only classes of the program.
* `Program.usedMembers?`: the member signatures up to the last one that a method or a call uses.
-/

import CallFlow.Hierarchy.Dispatch
import CallFlow.Program.Edit

namespace CallFlow

namespace Program

variable (program : Program)

/-- Whether the class that a type mentions, if it mentions one, is a class of the program. -/
def hasType (type : Ty) : Bool :=
  type.baseClass.all fun declared => (program.class? declared).isSome

/-! ### Changes -/

/-- The program with a changed class. -/
def updateClass? (id : ClassId) (change : Class → Class) : Option Program :=
  if (program.class? id).isSome then some (program.updateClass id change) else none

/-- The program with a changed method. -/
def updateMethod? (id : MethodId) (change : Method → Method) : Option Program :=
  if (program.method? id).isSome then some (program.updateMethod id change) else none

/-- The program with one more field. The type is not looked at. -/
def addField? (owner : ClassId) (name : String) (type : Ty) : Option (Program × FieldId) :=
  if (program.class? owner).isSome then some (program.addField owner name type) else none

/-- The program with one more method. The result type is not looked at. -/
def addMethod? (owner : ClassId) (name : String) (params : List Ty) (result : Option Ty) :
    Option (Program × MethodId) :=
  if (program.class? owner).isSome && params.all program.hasType then
    some (program.addMethod owner name params result)
  else none

/-- The program with one more statement, and the position of the statement in its method. The
statement is not looked at. -/
def addStatement? (id : MethodId) (statement : Statement) : Option (Program × Nat) :=
  (program.method? id).map fun method => (program.addStatement id statement, method.body.length)

/-! ### Names -/

/-- The text of a type. -/
def typeName? (type : Ty) : Option String :=
  if program.hasType type then some (program.typeName type) else none

/-- The full name of a method. -/
def methodName? (id : MethodId) : Option String :=
  if (program.method? id).isSome then some (program.methodName id) else none

/-- The full name of a field. -/
def fieldName? (id : FieldId) : Option String :=
  if (program.field? id).isSome then some (program.fieldName id) else none

/-- The name of a site of a method. The position is not looked at. -/
def siteName? (site : Site) : Option String :=
  if (program.method? site.method).isSome then some (program.siteName site) else none

/-! ### Calls -/

/-- The call at a site of a method, if there is one at the position. -/
def callAt? (site : Site) : Option (Option Call) :=
  if (program.method? site.method).isSome then some (program.call? site) else none

/-- The call sites of a method. -/
def callSites? (id : MethodId) : Option (List Site) :=
  if (program.method? id).isSome then some (program.callSites id) else none

/-- The member signatures that methods declare and calls mention. -/
def mentionedMembers : List MemberId :=
  program.methods.toList.flatMap fun method =>
    method.member :: method.calls.map fun (_, call) => call.target.member

/-- The member signatures from the first one up to the last one mentioned. -/
def usedMembers? : Option (List String) :=
  let count := program.mentionedMembers.foldl (fun count id => max count (id.index + 1)) 0
  if count ≤ program.members.size then some (program.members.toList.take count) else none

end Program

namespace Hierarchy

variable (hierarchy : Hierarchy)

/-- Whether the first class is a subtype of the second one, which may be any. -/
def isSubtype? (lower upper : ClassId) : Option Bool :=
  if (hierarchy.program.class? lower).isSome then some (hierarchy.isSubtype lower upper) else none

/-- All subtypes of a class, and its concrete subtypes. -/
def subtypes? (upper : ClassId) : Option (List ClassId × List ClassId) :=
  if (hierarchy.program.class? upper).isSome then
    some (hierarchy.subtypes upper, hierarchy.concreteSubtypes upper)
  else none

end Hierarchy

end CallFlow
