/-
**JSON documents and their indented text.**

A document is laid out with an indentation of two blanks a level; lists and objects without elements
stay on one line. In a text, the quote, the backslash and the control characters are escaped and all
else stands for itself.

* `Json.quote`: a text as a JSON string.
* `Json.Document.pretty`: the indented text of a document.
-/

namespace CallFlow.Json

/-- A JSON document without fractions, signs and truth values. -/
inductive Document where
  | text (value : String)
  | number (value : Nat)
  | list (elements : List Document)
  | object (members : List (String × Document))
  deriving Repr, Inhabited

/-- The hexadecimal digit for a number below sixteen. -/
def hexDigit (value : Nat) : Char := Nat.digitChar value

/-- A character as it stands in a JSON string. -/
def escape (char : Char) : List Char :=
  match char with
  | '"' => ['\\', '"']
  | '\\' => ['\\', '\\']
  | '\x08' => ['\\', 'b']
  | '\x0c' => ['\\', 'f']
  | '\n' => ['\\', 'n']
  | '\r' => ['\\', 'r']
  | '\t' => ['\\', 't']
  | _ =>
    if char.toNat < 0x20 then
      ['\\', 'u', '0', '0', hexDigit (char.toNat / 16), hexDigit (char.toNat % 16)]
    else [char]

/-- A text as a JSON string. -/
def quote (text : String) : String :=
  String.ofList ('"' :: (text.toList.flatMap escape ++ ['"']))

/-- A new line and the indentation of a level. -/
def newLine (level : Nat) : String := "\n" ++ String.ofList (List.replicate (2 * level) ' ')

/-- Lines between an opening and a closing mark, one level deeper than the marks. -/
def block (level : Nat) (opening closing : String) (lines : List String) : String :=
  if lines.isEmpty then opening ++ closing
  else
    opening ++ newLine (level + 1) ++ ("," ++ newLine (level + 1)).intercalate lines ++
      newLine level ++ closing

mutual

/-- The indented text of a document at a level. -/
def Document.layOut (level : Nat) : Document → String
  | .text value => quote value
  | .number value => toString value
  | .list elements => block level "[" "]" (layOutElements (level + 1) elements)
  | .object members => block level "\x7b" "\x7d" (layOutMembers (level + 1) members)

/-- The texts of the elements of a list. -/
def layOutElements (level : Nat) : List Document → List String
  | [] => []
  | element :: rest => element.layOut level :: layOutElements level rest

/-- The texts of the members of an object. -/
def layOutMembers (level : Nat) : List (String × Document) → List String
  | [] => []
  | (name, value) :: rest =>
    (quote name ++ ": " ++ value.layOut level) :: layOutMembers level rest

end

/-- The indented text of a document. -/
def Document.pretty (document : Document) : String := document.layOut 0

end CallFlow.Json
