/-
**Types by name.**

Blanks at the ends of a type name do not count, and neither do blanks between its pairs of brackets;
a pair of brackets itself is written without a blank. What is left names a primitive type, a class
of the program or an unknown class.

* `Text.peelBrackets`: the pairs of brackets at the end of a name.
* `Program.typeNamed`: the type that a name stands for.
-/

import CallFlow.Program.Name
import CallFlow.Text.Blank

namespace CallFlow

/-- Takes the pairs of brackets, and the blanks around them, off reversed text; gives the number of
pairs and the rest. -/
def Text.peelBrackets : List Char → Nat × List Char
  | [] => (0, [])
  | char :: rest =>
    if Text.isBlank char then peelBrackets rest
    else
      match char, rest with
      | ']', '[' :: inner =>
        let (count, base) := peelBrackets inner
        (count + 1, base)
      | _, _ => (0, char :: rest)

namespace Program

/-- The names of the primitive types. -/
def primitiveNames : List String :=
  ["boolean", "byte", "char", "short", "int", "long", "float", "double"]

/-- The type that a name without brackets stands for. -/
def baseTypeNamed (program : Program) (name : String) : Ty :=
  if name ∈ primitiveNames then .primitive name
  else
    match program.classNamed? name with
    | some declared => .object declared
    | none => .unknown name

/-- The type of arrays, of so many dimensions, of a type. -/
def arrayOf : Nat → Ty → Ty
  | 0, type => type
  | count + 1, type => .array (arrayOf count type)

/-- The type that a name stands for. -/
def typeNamed (program : Program) (name : String) : Ty :=
  let (count, base) := Text.peelBrackets name.toList.reverse
  arrayOf count (program.baseTypeNamed (String.ofList (Text.trimStart base.reverse)))

end Program

end CallFlow
