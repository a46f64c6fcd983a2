/-
**JSON numbers.**

A number is read as a significand and a power of ten. As many digits count as fit into 64 bits;
digits of the whole part beyond them only raise the power. A number is refused if, as a binary
floating-point number of double precision, it would be infinite.

* `Json.toDouble`: the nearest number with 53 significant bits, a tie going to the even one.
* `Json.Decimal.isInfinite`: when the product of significand and power is out of range.
-/

import CallFlow.Json.Reader

namespace CallFlow.Json

/-- A significand and a power of ten. -/
structure Decimal where
  significand : Nat
  exponent : Int
  deriving DecidableEq, Repr, Inhabited

/-- The nearest number with 53 significant bits; a tie goes to the even one. -/
def toDouble (value : Nat) : Nat :=
  let shift := value.log2 + 1 - 53
  let kept := value >>> shift
  let rest := value - kept <<< shift
  let half := 1 <<< shift / 2
  let up := rest > half || (rest = half && kept % 2 = 1)
  if shift = 0 then value else (if up then kept + 1 else kept) <<< shift

/-- Whether the product of a significand and a power of ten, both rounded first, rounds to
infinity. Powers above the 308th are refused without looking at the product. -/
def Decimal.isInfinite (number : Decimal) : Bool :=
  number.significand ≠ 0 &&
    match number.exponent with
    | .ofNat power =>
      power > 308 || toDouble number.significand * toDouble (Nat.pow 10 power) ≥
        Nat.pow 2 1024 - Nat.pow 2 970
    | .negSucc _ => false

/-- The value of a digit. -/
def digitValue (char : Char) : Nat := char.toNat - '0'.toNat

/-- Appends digits to a significand as long as it fits into 64 bits, and gives the digits left. -/
def appendDigits (significand : Nat) : List Char → Nat × List Char
  | [] => (significand, [])
  | char :: rest =>
    let longer := significand * 10 + digitValue char
    if longer < 2 ^ 64 then appendDigits longer rest else (significand, char :: rest)

/-- Takes the digits at the front. -/
def digits : Reader (List Char) := fun chars =>
  .ok (chars.takeWhile Char.isDigit, chars.dropWhile Char.isDigit)

/-- Takes the digits at the front, of which there must be one. -/
def someDigits : Reader (List Char) := do
  match ← digits, ← get with
  | [], [] => fail .unfinished
  | [], _ :: _ => fail .malformed
  | found, _ => pure found

/-- The number that digits stand for. -/
def digitsValue (chars : List Char) : Nat :=
  chars.foldl (fun value char => value * 10 + digitValue char) 0

/-- Reads the part of a number after the mark `e`. -/
def exponent : Reader Int := do
  match ← get with
  | '+' :: _ =>
    take
    pure (.ofNat (digitsValue (← someDigits)))
  | '-' :: _ =>
    take
    pure (-.ofNat (digitsValue (← someDigits)))
  | _ => pure (.ofNat (digitsValue (← someDigits)))

/-- Reads the fraction of a number, if there is one. -/
def fraction (whole : Decimal) : Reader Decimal := do
  match ← get with
  | '.' :: _ =>
    take
    let found ← someDigits
    let (significand, unused) := appendDigits whole.significand found
    pure ⟨significand, whole.exponent - (found.length - unused.length : Nat)⟩
  | _ => pure whole

/-- Reads the power of ten of a number, if there is one. -/
def power (number : Decimal) : Reader Decimal := do
  match ← get with
  | 'e' :: _ | 'E' :: _ =>
    take
    pure { number with exponent := number.exponent + (← exponent) }
  | _ => pure number

/-- Reads the whole part of a number: a zero stands alone. -/
def whole : Reader Decimal := do
  match ← someDigits with
  | '0' :: _ :: _ => fail .malformed
  | found =>
    let (significand, unused) := appendDigits 0 found
    pure ⟨significand, unused.length⟩

/-- Reads a number without its sign. -/
def magnitude : Reader Decimal := do
  let number ← power (← fraction (← whole))
  if number.isInfinite then fail .malformed else pure number

/-- Reads a number. -/
def number : Reader Decimal := do
  match ← get with
  | '-' :: _ =>
    take
    magnitude
  | _ => magnitude

end CallFlow.Json
