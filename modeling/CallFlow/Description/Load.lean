/-
**Loading programs.**

A program is loaded from the text of its description, or from a file that holds this text.

* `Program.ofText`: the program of a text.
* `Program.ofFile`: the program of the contents of a file.
-/

import CallFlow.Description.Reader
import CallFlow.Description.Resolve

namespace CallFlow

/-- Why a text gives no program. -/
inductive TextError where
  | json (problem : Json.Problem)
  | load (error : Description.LoadError)
  deriving DecidableEq, Repr, Inhabited

/-- What a text error says. -/
def TextError.message : TextError → String
  | .json _ => "invalid program description"
  | .load error => error.message

/-- The program that a text describes. -/
def Program.ofText (text : String) : Except TextError Program :=
  match Description.ofText text with
  | .error problem => .error (.json problem)
  | .ok description =>
    match description.resolve with
    | .error error => .error (.load error)
    | .ok program => .ok program

/-- A text has the program of its description, or its error. -/
theorem Program.ofText_of_described {text : String} {description : Description}
    (described : Description.ofText text = .ok description) :
    Program.ofText text = description.resolve.mapError .load := by
  unfold Program.ofText
  rw [described]
  dsimp only
  cases description.resolve <;> rfl

/-- What the name of a file leads to. -/
inductive FileContents where
  | missing
  /-- A file that cannot be read, such as a directory. -/
  | unreadable
  | bytes (value : ByteArray)
  deriving Inhabited

/-- Why a file gives no program. -/
inductive FileError where
  | missing
  | unreadable
  /-- The bytes are not UTF-8. -/
  | notText
  | text (error : TextError)
  deriving DecidableEq, Repr, Inhabited

/-- The outermost part of what a file error says. -/
def FileError.headline (file : String) : FileError → String
  | .missing | .unreadable | .notText => "failed to read " ++ file
  | .text _ => "failed to load " ++ file

/-- What a file error says, with its causes. -/
def FileError.message (file : String) (error : FileError) : String :=
  match error with
  | .text cause => error.headline file ++ ": " ++ cause.message
  | _ => error.headline file

/-- The program that the contents of a file describe. -/
def Program.ofFile : FileContents → Except FileError Program
  | .missing => .error .missing
  | .unreadable => .error .unreadable
  | .bytes value =>
    match String.fromUTF8? value with
    | none => .error .notText
    | some text =>
      match Program.ofText text with
      | .ok program => .ok program
      | .error error => .error (.text error)

end CallFlow
