/-
**Paths.**

A path is a sequence of names between slashes. Empty names do not count, and neither does a single
dot, unless it comes first.

* `Path.isDash`: whether a path is a dash, however it is spelled.
-/

namespace CallFlow

/-- A path of names. -/
structure Path where
  /-- Whether the path starts at the root. -/
  isAbsolute : Bool
  parts : List String
  /-- Whether the spelling ends as that of a directory. -/
  endsOpen : Bool
  deriving DecidableEq, Repr, Inhabited

namespace Path

/-- The names between the slashes of a path. -/
def segments (text : String) : List String := (text.splitOn "/")

/-- The path that a text spells. -/
def ofString (text : String) : Path where
  isAbsolute := text.toList.head? = some '/'
  parts :=
    match segments text with
    | "." :: rest => "." :: rest.filter fun part => part ≠ "" && part ≠ "."
    | all => all.filter fun part => part ≠ "" && part ≠ "."
  endsOpen := (segments text).getLast? = some "" || (segments text).getLast? = some "."

/-- Whether a path is a dash. -/
def isDash (path : Path) : Bool := !path.isAbsolute && path.parts = ["-"]

/-- The names of a path without the leading dot. -/
def steps (path : Path) : List String := path.parts.filter fun part => part ≠ "."

end Path

end CallFlow
