/-
**JSON strings, words and any other values.**

* `Json.readEscape`: the character behind a backslash. A character outside the basic plane is two
  escapes of surrogates, and a surrogate alone is no character.
* `Json.string`, `Json.boolean`, `Json.optionalString`: values of one shape.
* `Json.refuse`: reads a value of another shape as far as its first character tells what it is.
* `Json.loose`: reads any value and keeps it if it is a string.
-/

import CallFlow.Json.Number

namespace CallFlow.Json

/-! ### Strings -/

/-- The value of a hexadecimal digit. -/
def hexValue? (char : Char) : Option Nat :=
  if char.isDigit then some (char.toNat - '0'.toNat)
  else if 'a' ≤ char ∧ char ≤ 'f' then some (char.toNat - 'a'.toNat + 10)
  else if 'A' ≤ char ∧ char ≤ 'F' then some (char.toNat - 'A'.toNat + 10)
  else none

/-- The length of characters in UTF-8. -/
def byteLength : List Char → Nat
  | [] => 0
  | char :: rest => char.utf8Size + byteLength rest

/-- Reads four hexadecimal digits. With fewer than four bytes left the text ends too early, whatever
the bytes are. -/
def readUnit (chars : List Char) : Except Problem (Nat × List Char) :=
  match chars with
  | a :: b :: c :: d :: rest =>
    match hexValue? a, hexValue? b, hexValue? c, hexValue? d with
    | some a, some b, some c, some d => .ok (((a * 16 + b) * 16 + c) * 16 + d, rest)
    | _, _, _, _ => .error .malformed
  | short => .error (if byteLength short < 4 then .unfinished else .malformed)

/-- Whether a code unit is the first half of a pair of surrogates. -/
def isHighSurrogate (unit : Nat) : Bool := 0xD800 ≤ unit && unit < 0xDC00

/-- Whether a code unit is the second half of a pair of surrogates. -/
def isLowSurrogate (unit : Nat) : Bool := 0xDC00 ≤ unit && unit < 0xE000

/-- Reads the second half of a pair of surrogates and gives the character of the pair. -/
def readPair (high : Nat) (chars : List Char) : Except Problem (Char × List Char) :=
  match chars with
  | [] => .error .unfinished
  | '\\' :: [] => .error .unfinished
  | '\\' :: 'u' :: rest => do
    let (low, rest) ← readUnit rest
    if isLowSurrogate low then
      pure (Char.ofNat (0x10000 + (high - 0xD800) * 0x400 + (low - 0xDC00)), rest)
    else .error .malformed
  | _ => .error .malformed

/-- Reads what stands behind a backslash. -/
def readEscape (chars : List Char) : Except Problem (Char × List Char) :=
  match chars with
  | [] => .error .unfinished
  | '"' :: rest => .ok ('"', rest)
  | '\\' :: rest => .ok ('\\', rest)
  | '/' :: rest => .ok ('/', rest)
  | 'b' :: rest => .ok ('\x08', rest)
  | 'f' :: rest => .ok ('\x0c', rest)
  | 'n' :: rest => .ok ('\n', rest)
  | 'r' :: rest => .ok ('\x0d', rest)
  | 't' :: rest => .ok ('\t', rest)
  | 'u' :: rest => do
    let (unit, rest) ← readUnit rest
    if isLowSurrogate unit then .error .malformed
    else if isHighSurrogate unit then readPair unit rest
    else pure (Char.ofNat unit, rest)
  | _ => .error .malformed

/-- Reads the characters of a string up to its closing quote, behind those read before and in
reverse, in at most so many rounds. -/
def charactersWithin : Rounds → List Char → List Char → Except Problem (List Char × List Char)
  | [], _, _ => .error .unfinished
  | _ :: rounds, before, chars =>
    match chars with
    | [] => .error .unfinished
    | '"' :: rest => .ok (before, rest)
    | '\\' :: rest =>
      match readEscape rest with
      | .ok (char, rest) => charactersWithin rounds (char :: before) rest
      | .error problem => .error problem
    | char :: rest =>
      if char.toNat < 0x20 then .error .malformed
      else charactersWithin rounds (char :: before) rest

/-- Reads a string, its opening quote included. -/
def quoted : Reader String := fun chars =>
  (charactersWithin chars [] chars.tail).map fun (reversed, rest) =>
    (String.ofList reversed.reverse, rest)

/-! ### Values of one shape -/

/-- Reads the value that starts with a character, unless it is a list or an object. -/
def simpleValue (first : Char) : Reader Unit := do
  if first = 'n' then expect "null".toList
  else if first = 't' then expect "true".toList
  else if first = 'f' then expect "false".toList
  else if first = '-' ∨ first.isDigit then discard number
  else if first = '"' then discard quoted
  else fail .malformed

/-- Refuses the value that follows. Whether there is one, and whether it is JSON, is looked at
first; of a list or an object only the opening mark. -/
def refuse {α : Type} : Reader α := do
  match ← next? with
  | none => fail .unfinished
  | some char =>
    if char = '[' ∨ char = '\x7b' then fail .misshapen
    else
      simpleValue char
      fail .misshapen

/-- Reads a string. -/
def string : Reader String := do
  if (← next?) = some '"' then quoted else refuse

/-- Reads a string or the word `null`. -/
def optionalString : Reader (Option String) := do
  if (← next?) = some 'n' then
    expect "null".toList
    pure none
  else pure (some (← string))

/-- Reads a truth value. -/
def boolean : Reader Bool := do
  match ← next? with
  | some 't' =>
    expect "true".toList
    pure true
  | some 'f' =>
    expect "false".toList
    pure false
  | _ => refuse

/-- Reads a list of values of one shape. -/
def list {α : Type} (element : Nat → Reader α) (depth : Nat) : Reader (List α) := do
  if (← next?) = some '[' then inside depth fun depth => elements (element depth) else refuse

/-! ### Values of any shape -/

/-- Reads the members of an object, in at most so many rounds. -/
def membersWithin {α : Type} (value : Reader α) : Rounds → Bool → Reader (List (String × α))
  | [], _ => fail .unfinished
  | _ :: rounds, first => do
    if ← moreMembers first then
      let name ← quoted
      colon
      let content ← value
      let others ← membersWithin value rounds false
      pure ((name, content) :: others)
    else pure []

/-- Reads the members of an object and the mark that ends it. -/
def members {α : Type} (value : Reader α) : Reader (List (String × α)) := do
  let found ← membersWithin value (← rounds) true
  close '\x7d'
  pure found

/-- Reads any value, given how to read a list and an object, and keeps it if it is a string. -/
def looseWith (list object : Reader Unit) : Reader (Option String) := do
  match ← next? with
  | none => fail .unfinished
  | some char =>
    if char = '"' then pure (some (← quoted))
    else
      if char = '[' then list else if char = '\x7b' then object else simpleValue char
      pure none

/-- Reads any value and keeps it if it is a string. The number says how many lists and objects may
still be open at once. -/
def loose : Nat → Reader (Option String)
  | 0 => looseWith (fail .malformed) (fail .malformed)
  | depth + 1 =>
    looseWith (do take; discard (elements (loose depth)))
      (do take; discard (members (loose depth)))

end CallFlow.Json
