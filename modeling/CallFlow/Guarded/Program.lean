/-
**Guarded reading.**

Elsewhere an identifier that is not inside its table is passed over: what it stands for counts as
absent, or its name as empty. Here every table is read through a guard: an identifier outside its table
is a fault, and nothing after it is evaluated. The questions are the same, so where there is no such
fault the answers are.

* `Guarded.readClass`, `Guarded.readMethod`, `Guarded.readField`, `Guarded.readMember`: the only ways to
  a table.
* `Guarded.methodName`, `Guarded.details`: names and diagnostics.
-/

import CallFlow.Construction.Diagnostic
import CallFlow.Program.Ascent

namespace CallFlow

namespace Guarded

/-- What stands at a place, or a fault if the table has no such place. -/
def fetch {α : Type} : Option α → Except Fault α
  | some found => .ok found
  | none => .error .outOfRange

variable (program : Program)

/-- The class with an identifier. -/
def readClass (id : ClassId) : Except Fault Class := fetch (program.class? id)

/-- The method with an identifier. -/
def readMethod (id : MethodId) : Except Fault Method := fetch (program.method? id)

/-- The field with an identifier. -/
def readField (id : FieldId) : Except Fault Field := fetch (program.field? id)

/-- The member signature with an identifier. -/
def readMember (id : MemberId) : Except Fault String := fetch (program.member? id)

/-! ### Calls -/

/-- Whether a method is abstract. -/
def isAbstract (id : MethodId) : Except Fault Bool := do
  let method ← readMethod program id
  pure method.isAbstract

/-- The call at a site of a method, if a call statement stands there. -/
def call (site : Site) : Except Fault (Option Call) := do
  let method ← readMethod program site.method
  pure ((method.body[site.index]?).bind (·.call?))

/-- The call sites of a method. -/
def callSites (id : MethodId) : Except Fault (List Site) := do
  let method ← readMethod program id
  pure (method.calls.map fun (index, _) => ⟨id, index⟩)

/-! ### Names -/

/-- The text of a call target. -/
def targetName (target : Target) : Except Fault String := do
  let owner ← readClass program target.owner
  let member ← readMember program target.member
  pure (owner.name ++ "." ++ member)

/-- The full name of a method. -/
def methodName (id : MethodId) : Except Fault String := do
  let method ← readMethod program id
  targetName program ⟨method.owner, method.member⟩

/-- The name of a call site. -/
def siteName (site : Site) : Except Fault String := do
  let name ← methodName program site.method
  pure (name ++ "#" ++ toString site.index)

/-- The details of a diagnostic. -/
def details : Diagnostic → Except Fault (List (String × Diagnostic.Detail))
  | .processing method => do
    let name ← methodName program method
    pure [("method", .text name)]
  | .ignoredAllocation allocated => do
    let info ← readClass program allocated
    pure [("class", .text info.name)]
  | .newEdge site callee | .replaying site callee => do
    let siteText ← siteName program site
    let calleeText ← methodName program callee
    pure [("site", .text siteText), ("callee", .text calleeText)]
  | .unresolvedDynamic site => do
    let siteText ← siteName program site
    pure [("site", .text siteText)]
  | .missingDeclaration site target => do
    let siteText ← siteName program site
    let member ← readMember program target.member
    pure [("site", .text siteText), ("target", .text member)]
  | .kindMismatch site callee kind => do
    let siteText ← siteName program site
    let calleeText ← methodName program callee
    pure [("site", .text siteText), ("callee", .text calleeText), ("kind", .text kind.name)]
  | .finished entry reachable edges facts => do
    let entryText ← methodName program entry
    pure [("entry", .text entryText), ("reachable", .count reachable), ("edges", .count edges),
      ("facts", .count facts)]

end Guarded

end CallFlow
