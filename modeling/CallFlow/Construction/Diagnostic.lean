/-
**Diagnostics of a construction.**

What happens while a graph is built is recorded in terms of identifiers; a record is put into words,
with the names of the program, when it is read.
-/

import CallFlow.Program.CallKind
import CallFlow.Program.Name

namespace CallFlow

/-- Something worth recording. -/
inductive Diagnostic where
  | processing (method : MethodId)
  /-- An allocation of a class that has no objects. -/
  | ignoredAllocation (allocated : ClassId)
  | newEdge (site : Site) (callee : MethodId)
  /-- A parked call whose receiver class has arrived. -/
  | replaying (site : Site) (callee : MethodId)
  | unresolvedDynamic (site : Site)
  /-- A call whose target has no declaration that is not abstract. -/
  | missingDeclaration (site : Site) (target : Target)
  /-- A static call of an instance method or a special call of a static method. -/
  | kindMismatch (site : Site) (callee : MethodId) (kind : CallKind)
  | finished (entry : MethodId) (reachable edges facts : Nat)
  deriving DecidableEq, Repr, Inhabited

namespace Diagnostic

/-- How important a diagnostic is. -/
inductive Level where
  | trace
  | debug
  | info
  deriving DecidableEq, Repr, Inhabited

/-- The name of a level. -/
def Level.name : Level → String
  | .trace => "trace"
  | .debug => "debug"
  | .info => "info"

/-- The importance of a diagnostic. -/
def level : Diagnostic → Level
  | .processing .. | .newEdge .. => .trace
  | .finished .. => .info
  | _ => .debug

/-- What a diagnostic says. -/
def message : Diagnostic → String
  | .processing .. => "processing method"
  | .ignoredAllocation .. => "ignoring allocation of non-instantiable class"
  | .newEdge .. => "new call edge"
  | .replaying .. => "replaying pending call edge"
  | .unresolvedDynamic .. => "cannot resolve dynamic call site"
  | .missingDeclaration .. => "no concrete declaration for call target"
  | .kindMismatch .. => "call kind disagrees with the callee's static flag"
  | .finished .. => "call graph construction finished"

/-- A detail of a diagnostic. -/
inductive Detail where
  | text (value : String)
  | count (value : Nat)
  deriving DecidableEq, Repr, Inhabited

/-- The details of a diagnostic by name, in the words of a program. -/
def details (program : Program) : Diagnostic → List (String × Detail)
  | .processing method => [("method", .text (program.methodName method))]
  | .ignoredAllocation allocated => [("class", .text (program.className allocated))]
  | .newEdge site callee | .replaying site callee =>
    [("site", .text (program.siteName site)), ("callee", .text (program.methodName callee))]
  | .unresolvedDynamic site => [("site", .text (program.siteName site))]
  | .missingDeclaration site target =>
    [("site", .text (program.siteName site)),
      ("target", .text (program.memberName target.member))]
  | .kindMismatch site callee kind =>
    [("site", .text (program.siteName site)), ("callee", .text (program.methodName callee)),
      ("kind", .text kind.name)]
  | .finished entry reachable edges facts =>
    [("entry", .text (program.methodName entry)), ("reachable", .count reachable),
      ("edges", .count edges), ("facts", .count facts)]

end Diagnostic

end CallFlow
