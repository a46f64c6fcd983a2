/-
**Blanks.**

The characters of the Unicode property `White_Space`, and the two ways names are freed of them:
signatures lose every blank, type names only the blanks at their ends.

* `Text.isBlank`: whether a character is a blank.
* `Text.removeBlanks`: a text without any blank.
* `Text.trim`: a text without the blanks at its two ends.
-/

namespace CallFlow.Text

/-- The ranges of code points with the property `White_Space`, first and last of each. -/
def blankRanges : List (Nat × Nat) :=
  [(0x09, 0x0D), (0x20, 0x20), (0x85, 0x85), (0xA0, 0xA0), (0x1680, 0x1680), (0x2000, 0x200A),
    (0x2028, 0x2029), (0x202F, 0x202F), (0x205F, 0x205F), (0x3000, 0x3000)]

/-- Whether a character has the property `White_Space`. -/
def isBlank (char : Char) : Bool :=
  blankRanges.any fun range => range.1 ≤ char.toNat && char.toNat ≤ range.2

/-- Twenty-five characters are blanks. -/
example : (blankRanges.map fun range => range.2 + 1 - range.1).sum = 25 := by decide

/-! ### Characters without blanks -/

/-- The characters without the blanks before the first other one. -/
def trimStart (chars : List Char) : List Char := chars.dropWhile isBlank

/-- The characters without the blanks after the last other one. -/
def trimEnd (chars : List Char) : List Char := (trimStart chars.reverse).reverse

/-- A text without the blanks at its two ends. -/
def trim (text : String) : String := String.ofList (trimEnd (trimStart text.toList))

/-- A text without any blank. -/
def removeBlanks (text : String) : String :=
  String.ofList (text.toList.filter fun char => !isBlank char)

theorem toList_removeBlanks (text : String) :
    (removeBlanks text).toList = text.toList.filter fun char => !isBlank char :=
  String.toList_ofList

end CallFlow.Text
