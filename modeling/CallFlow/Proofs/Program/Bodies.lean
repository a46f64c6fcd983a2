/-
**Other statements at the same places.**

Every statement of a program is exchanged for another one. Classes, fields and the heads of methods
stay, so the hierarchy gives the same answers. If a call statement is exchanged for a call statement
and every other one for one that is no call, then calls stand at the same sites.

* `Program.mapBodies`: the program with the exchanged statements.
* `Program.sameHeads_mapBodies`: only bodies are changed.
* `Program.call?_mapBodies`, `Program.callSites_mapBodies`: calls stand at the same sites.
* `Hierarchy.of?_mapBodies`: the hierarchy is that of the program.
* `Program.callsOnly`: the program with nothing but its calls, which are those of the program.
-/

import CallFlow.Proofs.Program.SameHeads

namespace CallFlow

/-- The method with exchanged statements. -/
def Method.mapBody (change : Statement → Statement) (method : Method) : Method :=
  { method with body := method.body.map change }

/-- The program with exchanged statements. -/
def Program.mapBodies (change : Statement → Statement) (program : Program) : Program :=
  { program with methods := program.methods.map (Method.mapBody change) }

/-- The call statements stand at the same positions. -/
theorem Method.calls_mapBody {change : Statement → Statement} {onCall : Call → Call}
    (exchanges : ∀ statement, (change statement).call? = statement.call?.map onCall)
    (method : Method) :
    (method.mapBody change).calls = method.calls.map fun (index, call) => (index, onCall call) := by
  unfold Method.calls Method.mapBody
  rw [List.zipIdx_map, List.filterMap_map, List.map_filterMap]
  congr
  funext ⟨statement, index⟩
  show (change statement).call?.map (fun call => (index, call)) =
    (statement.call?.map fun call => (index, call)).map fun (index, call) => (index, onCall call)
  rw [exchanges, Option.map_map, Option.map_map]
  rfl

namespace Program

variable (program : Program) {change : Statement → Statement}

theorem method?_mapBodies (id : MethodId) :
    (program.mapBodies change).method? id = (program.method? id).map (Method.mapBody change) := by
  unfold method? mapBodies
  exact Array.getElem?_map

/-- **Only bodies are changed.** -/
theorem sameHeads_mapBodies : program.SameHeads (program.mapBodies change) where
  classes := rfl
  fields := rfl
  heads := by
    show (program.methods.map (Method.mapBody change)).toList.map Method.withoutBody = _
    rw [Array.toList_map, List.map_map]
    rfl

section Calls

variable {onCall : Call → Call}
  (exchanges : ∀ statement, (change statement).call? = statement.call?.map onCall)
include exchanges

/-- **Calls stand at the same sites.** -/
theorem call?_mapBodies (site : Site) :
    (program.mapBodies change).call? site = (program.call? site).map onCall := by
  unfold call?
  rw [method?_mapBodies]
  cases program.method? site.method with
  | none => rfl
  | some method =>
    show ((method.body.map change)[site.index]?).bind (·.call?) =
      ((method.body[site.index]?).bind (·.call?)).map onCall
    rw [List.getElem?_map]
    cases method.body[site.index]? with
    | none => rfl
    | some statement => exact exchanges statement

theorem callSites_mapBodies (id : MethodId) :
    (program.mapBodies change).callSites id = program.callSites id := by
  unfold callSites
  rw [method?_mapBodies]
  cases program.method? id with
  | none => rfl
  | some method =>
    show (method.mapBody change).calls.map _ = method.calls.map _
    rw [Method.calls_mapBody exchanges, List.map_map]
    rfl

end Calls

theorem methodName_mapBodies (id : MethodId) :
    (program.mapBodies change).methodName id = program.methodName id := by
  unfold methodName
  rw [method?_mapBodies]
  cases program.method? id <;> rfl

/-- Errors are put into the same words. -/
theorem message_mapBodies (error : BuildError) :
    error.message (program.mapBodies change) = error.message program := by
  have siteName : (program.mapBodies change).siteName = program.siteName := by
    funext site
    unfold siteName
    rw [methodName_mapBodies]
  unfold BuildError.message
  rw [siteName]

end Program

/-! ### Its hierarchy -/

namespace Hierarchy

variable {change : Statement → Statement}

/-- The hierarchy of the program with exchanged statements has the same supertypes. -/
def mapBodies (change : Statement → Statement) (hierarchy : Hierarchy) : Hierarchy where
  program := hierarchy.program.mapBodies change
  edgesInRange := hierarchy.edgesInRange
  table := hierarchy.table
  table_eq := by
    rw [(Program.sameHeads_mapBodies _).supertypesOf]
    exact hierarchy.table_eq

/-- There is a hierarchy of the program with exchanged statements if there is one of the program. -/
theorem of?_mapBodies (program : Program) :
    of? (program.mapBodies change) = (of? program).map (mapBodies change) := by
  cases found : of? program with
  | some hierarchy =>
    obtain rfl := program_of? found
    exact of?_program (hierarchy.mapBodies change)
  | none =>
    unfold of? at found ⊢
    split at found
    · cases found
    · next outside => exact dif_neg outside

end Hierarchy

/-! ### Nothing but calls -/

/-- The statement if it is a call, and else one without any effect. -/
def Statement.callOnly : Statement → Statement
  | .invoke call => .invoke call
  | _ => .other

theorem Statement.call?_callOnly (statement : Statement) :
    statement.callOnly.call? = statement.call?.map id := by
  cases statement <;> rfl

namespace Program

variable (program : Program)

/-- The program in which every statement other than a call has no effect. -/
def callsOnly : Program := program.mapBodies Statement.callOnly

theorem call?_callsOnly (site : Site) : program.callsOnly.call? site = program.call? site :=
  (program.call?_mapBodies Statement.call?_callOnly site).trans (congrFun Option.map_id _)

theorem callSites_callsOnly (id : MethodId) : program.callsOnly.callSites id = program.callSites id :=
  program.callSites_mapBodies Statement.call?_callOnly id

end Program

end CallFlow
