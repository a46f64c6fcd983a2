/-
**The command line program.**

Reads the arguments, reads and writes files, and shows what a run leaves to be seen.
-/

import CallFlow.CommandLine.Run

namespace CallFlow.CommandLine

/-- The files of the system. -/
def systemAccess : FileAccess IO where
  contents name := do
    try
      return .bytes (← IO.FS.readBinFile name)
    catch
      | .noFileOrDirectory .. => return .missing
      | _ => return .unreadable
  write name text := do
    try
      IO.FS.writeFile name text
      return true
    catch _ => return false

end CallFlow.CommandLine

open CallFlow CommandLine in
/-- Runs the program with the arguments that it is given. -/
def main (arguments : List String) : IO UInt32 := do
  let start ← IO.monoMsNow
  let execution ← execute systemAccess arguments
  IO.print execution.output
  let elapsed := (← IO.monoMsNow) - start
  for line in execution.messages (toString elapsed) do
    IO.eprintln line
  return execution.code.toUInt32
