/-
**Sequences of operations on a program.**

A program is built by operations, one after the other: something is added, or what a class or a method
says about itself is changed. An operation that looks at an identifier outside its table fails, and
nothing is done after it.

* `Operation`: what can be done to a program.
* `Program.perform`, `Program.performAll`: the program afterwards, and what is handed out.
-/

import CallFlow.Program.Checked

namespace CallFlow

/-- What a class says about itself, apart from its name and what it owns. -/
inductive ClassChange where
  | superclass (next : Option ClassId)
  | interfaces (next : List ClassId)
  | isAbstract (value : Bool)
  | isInterface (value : Bool)
  deriving DecidableEq, Repr, Inhabited

/-- The changed class. -/
def ClassChange.apply : ClassChange → Class → Class
  | .superclass next, info => { info with superclass := next }
  | .interfaces next, info => { info with interfaces := next }
  | .isAbstract value, info => { info with isAbstract := value }
  | .isInterface value, info => { info with isInterface := value }

/-- The flags of a method. -/
inductive MethodChange where
  | isStatic (value : Bool)
  | isAbstract (value : Bool)
  deriving DecidableEq, Repr, Inhabited

/-- The changed method. -/
def MethodChange.apply : MethodChange → Method → Method
  | .isStatic value, method => { method with isStatic := value }
  | .isAbstract value, method => { method with isAbstract := value }

/-- An operation on a program. -/
inductive Operation where
  | addClass (name : String)
  | addMember (text : String)
  | addField (owner : ClassId) (name : String) (type : Ty)
  | addMethod (owner : ClassId) (name : String) (params : List Ty) (result : Option Ty)
  | addStatement (method : MethodId) (statement : Statement)
  | setEntry (entry : MethodId)
  | changeClass (id : ClassId) (change : ClassChange)
  | changeMethod (id : MethodId) (change : MethodChange)
  deriving DecidableEq, Repr, Inhabited

/-- What an operation hands out: an identifier, the position of a statement, or nothing. -/
inductive Handed where
  | classId (id : ClassId)
  | memberId (id : MemberId)
  | fieldId (id : FieldId)
  | methodId (id : MethodId)
  | position (index : Nat)
  | nothing
  deriving DecidableEq, Repr, Inhabited

/-- Performs one operation after the other, as long as none fails; what they hand out is listed in their
order. -/
def performEach {α : Type} (perform : α → Operation → Option (α × Handed)) :
    α → List Operation → Option (α × List Handed)
  | state, [] => some (state, [])
  | state, operation :: operations => do
    let (next, handed) ← perform state operation
    let (last, others) ← performEach perform next operations
    pure (last, handed :: others)

namespace Program

variable (program : Program)

/-- The program after an operation, unless the operation fails, and what is handed out. -/
def perform : Operation → Option (Program × Handed)
  | .addClass name =>
    let (next, id) := program.addClass name
    some (next, .classId id)
  | .addMember text =>
    let (next, id) := program.addMember text
    some (next, .memberId id)
  | .addField owner name type =>
    (program.addField? owner name type).map fun (next, id) => (next, .fieldId id)
  | .addMethod owner name params result =>
    (program.addMethod? owner name params result).map fun (next, id) => (next, .methodId id)
  | .addStatement method statement =>
    (program.addStatement? method statement).map fun (next, index) => (next, .position index)
  | .setEntry entry => some ({ program with entry := some entry }, .nothing)
  | .changeClass id change => (program.updateClass? id change.apply).map fun next => (next, .nothing)
  | .changeMethod id change =>
    (program.updateMethod? id change.apply).map fun next => (next, .nothing)

/-- The program after a sequence of operations. -/
def performAll : List Operation → Option (Program × List Handed) := performEach perform program

end Program

end CallFlow
