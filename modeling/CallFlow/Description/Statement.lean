/-
**Statements as JSON.**

A statement is an object with a member `op`, at any place, that names the operation, and one member
for each operand; other members do not count. Or it is a list of the operation and its operands. The
whole statement is read before the operands are looked at.

* `Description.Operation.operands`: the names of the operands of an operation, in order.
* `Description.statement`: reads a statement.
-/

import CallFlow.Description.Basic
import CallFlow.Json.Literal

namespace CallFlow.Description

open Json

/-- The operations of statements. -/
inductive Operation where
  | new
  | newArray
  | store
  | load
  | invoke
  | other
  deriving DecidableEq, Repr, Inhabited

namespace Operation

/-- All operations. -/
def all : List Operation := [.new, .newArray, .store, .load, .invoke, .other]

/-- The name of an operation. -/
def name : Operation → String
  | .new => "new"
  | .newArray => "new_array"
  | .store => "store"
  | .load => "load"
  | .invoke => "invoke"
  | .other => "other"

/-- The operation with a name. -/
def named? (text : String) : Option Operation := all.find? fun operation => operation.name = text

/-- The names of the operands of an operation, in order. -/
def operands : Operation → List String
  | .new => ["class"]
  | .newArray => ["element"]
  | .store | .load => ["field"]
  | .invoke => ["kind", "class", "method"]
  | .other => []

/-- The statement of an operation with its operands, if there are as many as it takes. -/
def withOperands? : Operation → List String → Option Statement
  | .new, [className] => some (.new className)
  | .newArray, [element] => some (.newArray element)
  | .store, [field] => some (.store field)
  | .load, [field] => some (.load field)
  | .invoke, [kind, className, method] => some (.invoke kind className method)
  | .other, [] => some .other
  | _, _ => none

end Operation

/-- Reads the name of an operation. -/
def operation : Reader Operation := do
  match Operation.named? (← string) with
  | some found => pure found
  | none => fail .misshapen

/-- The value of the only member with a name, if there is one and it is a string. -/
def operand? (members : List (String × Option String)) (name : String) : Option String :=
  match members.filter fun pair => pair.1 = name with
  | [(_, some text)] => some text
  | _ => none

/-- The statement of an operation with its operands among the members of an object. -/
def ofMembers? (operation : Operation) (members : List (String × Option String)) :
    Option Statement :=
  (operation.operands.mapM (operand? members)).bind operation.withOperands?

/-- The statement of an operation with its operands as a list. -/
def ofElements? (operation : Operation) (elements : List (Option String)) : Option Statement :=
  (elements.mapM id).bind operation.withOperands?

/-- Reads the members of a statement, in at most so many rounds: the operation and the others. -/
def membersWithin (depth : Nat) :
    Rounds → Bool → Option Operation → Reader (Option Operation × List (String × Option String))
  | [], _, _ => fail .unfinished
  | _ :: rounds, first, found => do
    if ← moreMembers first then
      let name ← quoted
      if name = "op" then
        if found.isSome then fail .misshapen
        else
          colon
          let operation ← operation
          membersWithin depth rounds false (some operation)
      else
        colon
        let value ← loose depth
        let (found, others) ← membersWithin depth rounds false found
        pure (found, (name, value) :: others)
    else pure (found, [])

/-- Gives a statement, if there is one. -/
def whole (statement : Option Statement) : Reader Statement :=
  match statement with
  | some statement => pure statement
  | none => fail .misshapen

/-- Reads a statement. The number says how many lists and objects may still be open at once. -/
def statement (depth : Nat) : Reader Statement := do
  match ← next? with
  | some '\x7b' => inside depth fun depth => do
    match ← membersWithin depth (← rounds) true none with
    | (none, _) => fail .misshapen
    | (some operation, members) =>
      close '\x7d'
      whole (ofMembers? operation members)
  | some '[' => inside depth fun depth => do
    if ← moreElements true then
      let operation ← operation
      let elements ← elementsWithin (loose depth) (← rounds) false
      close ']'
      whole (ofElements? operation elements)
    else fail .misshapen
  | _ => refuse

end CallFlow.Description
