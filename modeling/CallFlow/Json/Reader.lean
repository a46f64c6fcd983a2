/-
**Reading JSON text.**

A text is read once, from its start to its end, and the first problem met decides what is wrong with
it: the text ends too early, it is not JSON, or it is JSON of another shape than the one asked for.

* `Json.Reader`: takes characters off the front of a text and gives a value or a problem.
* `Json.moreElements`, `Json.moreMembers`: whether a list or an object goes on.
-/

namespace CallFlow.Json

/-- What is wrong with a text. -/
inductive Problem where
  /-- The text ends too early. -/
  | unfinished
  /-- The text is not JSON. -/
  | malformed
  /-- The text is JSON so far, but not of the shape that is asked for. -/
  | misshapen
  deriving DecidableEq, Repr, Inhabited

/-- Takes characters off the front of a text and gives a value, or meets a problem. -/
abbrev Reader (α : Type) := StateT (List Char) (Except Problem) α

/-- Meets a problem. -/
def fail {α : Type} (problem : Problem) : Reader α := fun _ => .error problem

/-- Whether a character may stand between the parts of a JSON text. -/
def isSpace (char : Char) : Bool := char = ' ' || char = '\t' || char = '\n' || char = '\x0d'

/-- Passes over blanks and shows the next character, without taking it. -/
def next? : Reader (Option Char) := fun chars =>
  let rest := chars.dropWhile isSpace
  .ok (rest.head?, rest)

/-- Takes one character. -/
def take : Reader Unit := fun chars => .ok ((), chars.tail)

/-- Takes exactly the given characters. -/
def expect : List Char → Reader Unit
  | [] => pure ()
  | char :: more => fun
    | [] => .error .unfinished
    | other :: rest => if other = char then expect more rest else .error .malformed

/-- The rounds of a loop: one for each character left. A loop that takes a character in each round
is at the end of the text when it runs out of rounds. -/
abbrev Rounds := List Char

/-- As many rounds as characters are left. -/
def rounds : Reader Rounds := get

/-! ### Lists and objects -/

/-- Whether another element follows in a list, behind its comma. -/
def moreElements (first : Bool) : Reader Bool := do
  match ← next? with
  | none => fail .unfinished
  | some ']' => pure false
  | some char =>
    if first then pure true
    else if char = ',' then
      take
      match ← next? with
      | none => fail .unfinished
      | some ']' => fail .malformed
      | some _ => pure true
    else fail .malformed

/-- Whether another member follows in an object, behind its comma. -/
def moreMembers (first : Bool) : Reader Bool := do
  match ← next? with
  | none => fail .unfinished
  | some '\x7d' => pure false
  | some char =>
    if first then if char = '"' then pure true else fail .malformed
    else if char = ',' then
      take
      match ← next? with
      | none => fail .unfinished
      | some '"' => pure true
      | some _ => fail .malformed
    else fail .malformed

/-- Takes the mark that ends a list or an object. -/
def close (mark : Char) : Reader Unit := do
  match ← next? with
  | none => fail .unfinished
  | some char => if char = mark then take else fail .malformed

/-- Takes the colon between the name and the value of a member. -/
def colon : Reader Unit := close ':'

/-- Reads the elements of a list, in at most so many rounds. -/
def elementsWithin {α : Type} (element : Reader α) : Rounds → Bool → Reader (List α)
  | [], _ => fail .unfinished
  | _ :: rounds, first => do
    if ← moreElements first then
      let value ← element
      let others ← elementsWithin element rounds false
      pure (value :: others)
    else pure []

/-- Reads the elements of a list and the mark that ends it. -/
def elements {α : Type} (element : Reader α) : Reader (List α) := do
  let values ← elementsWithin element (← rounds) true
  close ']'
  pure values

/-- Runs a reader inside a list or an object that opens here. The number says how many may still be
open at once; one too many is no JSON. -/
def inside {α : Type} (depth : Nat) (body : Nat → Reader α) : Reader α :=
  match depth with
  | 0 => fail .malformed
  | depth + 1 => do
    take
    body depth

end CallFlow.Json
