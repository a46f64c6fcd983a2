/-
**Running a request.**

A program is loaded, its call graph built, and the report written where it is asked for. The file to
write to is opened only when the report is ready, so a failure leaves no file behind.

* `CommandLine.build`: the run, over any way to read and write files.
* `CommandLine.runIn`: the run in a directory that is known as a whole.
-/

import CallFlow.CommandLine.Arguments
import CallFlow.CommandLine.Directory

namespace CallFlow.CommandLine

/-- How files are read and written. -/
structure FileAccess (m : Type → Type) where
  contents : String → m FileContents
  /-- Writes a text and tells whether the file could be opened. -/
  write : String → String → m Bool

/-- Why a run fails. -/
inductive RunError where
  | inputNotFound (input : String)
  | file (input : String) (error : FileError)
  | entry (error : Description.LoadError)
  | noEntry (input : String)
  | build (variant : Variant) (error : BuildError)
  | outputNotOpened (output : String)
  deriving DecidableEq, Repr, Inhabited

/-- The outermost part of what a run error says. -/
def RunError.headline : RunError → String
  | .inputNotFound input => "input not found: " ++ input
  | .file input error => error.headline input
  | .entry error => error.headline
  | .noEntry input => input ++ " declares no entry method; pass --entry"
  | .build variant _ => "failed to build " ++ variant.name ++ " call graph"
  | .outputNotOpened output => "failed to open " ++ output

/-- What the line about the time taken tells besides the time. -/
structure Timing where
  variant : Variant
  reachable : Nat
  edges : Nat
  deriving DecidableEq, Repr, Inhabited

/-- The line about the time taken. -/
def Timing.line (timing : Timing) (milliseconds : String) : String :=
  "timing: total_ms=" ++ milliseconds ++ " variant=" ++ timing.variant.name ++ " reachable=" ++
    toString timing.reachable ++ " edges=" ++ toString timing.edges

/-- What a successful run shows. -/
structure Shown where
  output : String
  timing : Option Timing
  deriving DecidableEq, Repr, Inhabited

/-- The program of a file, which must exist. -/
def loadInput (input : String) (contents : FileContents) : Except RunError Program :=
  match Program.ofFile contents with
  | .ok program => .ok program
  | .error .missing => .error (.inputNotFound input)
  | .error error => .error (.file input error)

/-- The entry method asked for, or else the one of the program. -/
def chooseEntry (options : Options) (program : Program) : Except RunError MethodId :=
  match options.entry with
  | some name =>
    match Description.methodReferred program name with
    | .ok method => .ok method
    | .error error => .error (.entry error)
  | none =>
    match program.entry with
    | some method => .ok method
    | none => .error (.noEntry options.input)

/-- The report that is asked for, on what a file holds. -/
def report (options : Options) (contents : FileContents) : Except RunError Report := do
  let program ← loadInput options.input contents
  let entry ← chooseEntry options program
  match buildGraph program (options.variant.granularity program) entry with
  | .ok output => pure (Report.ofOutput program options.variant output)
  | .error error => .error (.build options.variant error)

/-- The file that the report goes to; none if it is shown. -/
def destination (options : Options) : Option String :=
  options.output.filter fun output => !(Path.ofString output).isDash

/-- The line about the time taken, if it is asked for. -/
def timing (options : Options) (report : Report) : Option Timing :=
  if options.timing && !options.quiet then
    some ⟨options.variant, report.reachable.length, report.edges.length⟩
  else none

/-- Builds a call graph and writes the report. -/
def build {m : Type → Type} [Monad m] (files : FileAccess m) (options : Options) :
    m (Except RunError Shown) := do
  match report options (← files.contents options.input) with
  | .error error => pure (.error error)
  | .ok report =>
    let text := report.render options.format
    match destination options with
    | none => pure (.ok ⟨text, timing options report⟩)
    | some output =>
      if ← files.write output text then pure (.ok ⟨"", timing options report⟩)
      else pure (.error (.outputNotOpened output))

/-- The text that is shown for the version. -/
def versionText : String := "xta-callgraph 0.1.0\n"

/-- What a run leaves to be seen: an exit code and what is shown. -/
structure Execution where
  code : Nat
  output : String := ""
  error : Option RunError := none
  timing : Option Timing := none
  deriving DecidableEq, Repr, Inhabited

/-- What can be seen of a finished run. -/
def Execution.ofResult : Except RunError Shown → Execution
  | .ok shown => { code := 0, output := shown.output, timing := shown.timing }
  | .error error => { code := 1, error }

/-- Runs with arguments: a wrong argument ends the run before anything is read. -/
def execute {m : Type → Type} [Monad m] (files : FileAccess m) (arguments : List String) :
    m Execution :=
  match Arguments.read arguments with
  | none => pure { code := 2 }
  | some .showVersion => pure { code := 0, output := versionText }
  | some (.build options) => Execution.ofResult <$> build files options

/-- The lines about the outcome of a run: an error, or the time taken. -/
def Execution.messages (execution : Execution) (milliseconds : String) : List String :=
  (execution.error.map fun error => "Error: " ++ error.headline).toList ++
    (execution.timing.map fun timing => timing.line milliseconds).toList

/-- The files of a directory that is known as a whole. -/
def directoryAccess : FileAccess (StateM Directory) where
  contents name := do return (← get).contents name
  write name text := do
    match (← get).write? name text with
    | some written =>
      set written
      pure true
    | none => pure false

/-- Runs in a directory; gives what can be seen of the run and the directory afterwards. -/
def runIn (directory : Directory) (arguments : List String) : Execution × Directory :=
  (execute directoryAccess arguments).run directory

end CallFlow.CommandLine
