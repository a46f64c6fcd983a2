/-
**Command line arguments.**

Every option has a long name and may stand once. A value follows as the next argument or behind an
equals sign; as an argument of its own it starts with no dash, unless it is just a dash. The
arguments are read in order, and the first one that is wrong decides.

* `Arguments.read`: the request that arguments make, if they make one.
-/

import CallFlow.Report.Basic

namespace CallFlow

/-- What a call graph is built from and where the report goes. -/
structure Options where
  input : String
  variant : Variant := .xta
  entry : Option String := none
  format : Report.Format := .json
  output : Option String := none
  quiet : Bool := false
  timing : Bool := false
  verbose : Bool := false
  deriving DecidableEq, Repr, Inhabited

/-- What is asked for on the command line. -/
inductive Request where
  | showVersion
  | build (options : Options)
  deriving DecidableEq, Repr, Inhabited

namespace Arguments

/-- The options found so far. -/
structure Draft where
  input : Option String := none
  variant : Option Variant := none
  entry : Option String := none
  format : Option Report.Format := none
  output : Option String := none
  quiet : Bool := false
  timing : Bool := false
  verbose : Bool := false
  deriving DecidableEq, Repr, Inhabited

/-- The options that make up a request: an input there must be. -/
def Draft.finish (draft : Draft) : Option Request :=
  draft.input.map fun input => .build
    { input
      variant := draft.variant.getD .xta
      entry := draft.entry
      format := draft.format.getD .json
      output := draft.output
      quiet := draft.quiet
      timing := draft.timing
      verbose := draft.verbose }

/-- The form with a name. -/
def formatNamed? : String → Option Report.Format
  | "json" => some .json
  | "text" => some .text
  | _ => none

/-- The options that take a value. -/
inductive ValueOption where
  | input
  | variant
  | entry
  | format
  | output
  deriving DecidableEq, Repr, Inhabited

/-- The option with a name, if it takes a value. -/
def ValueOption.named? : String → Option ValueOption
  | "input" => some .input
  | "variant" => some .variant
  | "entry" => some .entry
  | "format" => some .format
  | "output" => some .output
  | _ => none

/-- A path that is given must not be empty. -/
def pathGiven (value : String) : Option String := if value.isEmpty then none else some value

/-- Puts a value into a place that must be free. -/
def fill {α : Type} (place : Option α) (value : Option α) : Option (Option α) :=
  if place.isSome then none else value.map some

/-- Sets an option that takes a value. -/
def Draft.set (draft : Draft) (value : String) : ValueOption → Option Draft
  | .input => (fill draft.input (pathGiven value)).map fun input => { draft with input }
  | .variant =>
    (fill draft.variant (Variant.withName? value)).map fun variant => { draft with variant }
  | .entry => (fill draft.entry (some value)).map fun entry => { draft with entry }
  | .format => (fill draft.format (formatNamed? value)).map fun format => { draft with format }
  | .output => (fill draft.output (pathGiven value)).map fun output => { draft with output }

/-- Sets an option without a value, if a name is that of one. -/
def Draft.setFlag (draft : Draft) : String → Option Draft
  | "quiet" => if draft.quiet then none else some { draft with quiet := true }
  | "timing" => if draft.timing then none else some { draft with timing := true }
  | "verbose" => if draft.verbose then none else some { draft with verbose := true }
  | _ => none

/-- Whether an argument can be the value of the option before it. -/
def isValue (argument : String) : Bool :=
  argument = "-" || argument.toList.head? ≠ some '-'

/-- The name of a long option and the value behind its equals sign. -/
def splitLong (argument : String) : String × Option String :=
  let (name, rest) := (argument.toList.drop 2).span fun char => char ≠ '='
  (String.ofList name, if rest.isEmpty then none else some (String.ofList rest.tail))

/-- What an argument says that is no value. -/
inductive Meaning where
  | wrong
  | version
  /-- The options found, with one more. -/
  | options (draft : Draft)
  /-- An option whose value must follow. -/
  | awaiting (option : ValueOption)
  deriving DecidableEq, Repr, Inhabited

/-- The meaning of an option with the value behind its equals sign, if there is one. -/
def meaningOfLong (draft : Draft) (name : String) (attached : Option String) : Meaning :=
  match ValueOption.named? name, attached with
  | some option, some value => ((draft.set value option).map .options).getD .wrong
  | some option, none => .awaiting option
  | none, some _ => .wrong
  | none, none =>
    if name = "version" then .version else ((draft.setFlag name).map .options).getD .wrong

/-- The meaning of an argument that is no value. -/
def meaning (draft : Draft) (argument : String) : Meaning :=
  if "--".toList.isPrefixOf argument.toList then
    let (name, attached) := splitLong argument
    meaningOfLong draft name attached
  else if "-V".toList.isPrefixOf argument.toList then .version
  else .wrong

/-- Reads arguments from first to last; an option may wait for its value. Behind two dashes alone
nothing may follow. -/
def readFrom (draft : Draft) (awaiting : Option ValueOption) : List String → Option Request
  | [] => if awaiting.isSome then none else draft.finish
  | argument :: rest =>
    match awaiting with
    | some option =>
      if isValue argument then
        (draft.set argument option).bind fun draft => readFrom draft none rest
      else none
    | none =>
      if argument = "--" then if rest.isEmpty then draft.finish else none
      else
        match meaning draft argument with
        | .wrong => none
        | .version => some .showVersion
        | .options draft => readFrom draft none rest
        | .awaiting option => readFrom draft (some option) rest

/-- The request that arguments make, if they make one. -/
def read (arguments : List String) : Option Request := readFrom {} none arguments

end Arguments

end CallFlow
