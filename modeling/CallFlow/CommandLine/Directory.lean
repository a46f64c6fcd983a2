/-
**A directory of text files.**

What the command line needs to know of the directory that it runs in: the files below it, by the
names on the way to them, and their texts. Every name on the way to a file is a directory. Of what
lies outside only the null device is known, which is empty and takes any text.

* `Directory.contents`: what a path leads to.
* `Directory.write?`: the directory after a file has been written.
-/

import CallFlow.CommandLine.Path
import CallFlow.Description.Load

namespace CallFlow

/-- The files below a directory. -/
structure Directory where
  files : List (List String × String)
  deriving Inhabited

namespace Directory

/-- What stands at a place. -/
inductive Entry where
  | nothing
  | folder
  | file (text : String)
  deriving DecidableEq, Repr, Inhabited

/-- The directory with files at the places that paths lead to. -/
def ofFiles (files : List (String × String)) : Directory :=
  ⟨files.map fun (name, text) => ((Path.ofString name).steps, text)⟩

variable (directory : Directory)

/-- What stands at the end of a way of names. -/
def entryAt (place : List String) : Entry :=
  match directory.files.lookup place with
  | some text => .file text
  | none =>
    if place.isEmpty || directory.files.any fun file => place.isPrefixOf file.1 then .folder
    else .nothing

/-- The place where names lead from a place; each but the last must lead to a directory. -/
def follow (place : List String) : List String → Option (List String)
  | [] => some place
  | part :: rest =>
    if directory.entryAt place = .folder then
      if part = ".." then if place.isEmpty then none else follow place.dropLast rest
      else follow (place ++ [part]) rest
    else none

/-- The place that a path leads to, if it stays below the directory. -/
def placeOf? (path : Path) : Option (List String) :=
  if path.isAbsolute then none else directory.follow [] path.steps

/-- Whether a path leads to the null device. -/
def isNullDevice (path : Path) : Bool :=
  path.isAbsolute && path.parts = ["dev", "null"] && !path.endsOpen

/-- What a path leads to. -/
def contents (name : String) : FileContents :=
  let path := Path.ofString name
  match directory.placeOf? path with
  | none =>
    if isNullDevice path then .bytes ByteArray.empty
    else if path.steps.all fun part => part = ".." then .unreadable
    else .missing
  | some place =>
    match directory.entryAt place with
    | .nothing => .missing
    | .folder => .unreadable
    | .file text => if path.endsOpen then .missing else .bytes text.toUTF8

/-- The text of a file. -/
def text? (name : String) : Option String :=
  match (directory.placeOf? (Path.ofString name)).map directory.entryAt with
  | some (.file text) => some text
  | _ => none

/-- The directory after a file has been written, if it can be: the file must lie in a directory and
must not be a directory itself. -/
def write? (name text : String) : Option Directory :=
  let path := Path.ofString name
  match directory.placeOf? path with
  | none => if isNullDevice path then some directory else none
  | some place =>
    if path.endsOpen || directory.entryAt place = .folder then none
    else some ⟨(place, text) :: directory.files.filter fun file => file.1 ≠ place⟩

end Directory

end CallFlow
