/-
**The same rules.**

The rules of a construction ask the hierarchy and the heads of methods; bodies are looked at in two
places only, where a method is processed and where the call at a site is read. So in programs that
differ in bodies only all other rules act in the same way, and a step is the same if the bodies that it
looks at are.

* `Program.SameHeads.link`, `Program.SameHeads.resolveDeclared`,
  `Program.SameHeads.resolveVirtual`: linking and resolving a call.
* `Program.SameHeads.draw`, `Program.SameHeads.absorb`: drawing consequences and taking in a statement.
* `Program.SameHeads.step`: a whole step.
-/

import CallFlow.Proofs.Construction.Operation
import CallFlow.Proofs.Program.SameHeads

namespace CallFlow.Program

/-! ### Bodies -/

section Bodies

variable {first second : Program}

/-- The call at a site stands in the body. -/
theorem call?_of_body {site : Site} (body : second.body site.method = first.body site.method) :
    second.call? site = first.call? site := by
  have atBody (program : Program) : program.call? site =
      ((program.body site.method)[site.index]?).bind Statement.call? := by
    unfold call? Program.body
    cases program.method? site.method <;> rfl
  rw [atBody, atBody, body]

/-- The call sites of a method stand in its body. -/
theorem callSites_of_body {method : MethodId} (body : second.body method = first.body method) :
    second.callSites method = first.callSites method := by
  have atBody (program : Program) : program.callSites method =
      ((program.body method).zipIdx.filterMap fun entry =>
        entry.1.call?.map (entry.2, ·)).map fun call => ⟨method, call.1⟩ := by
    unfold callSites Program.body
    cases program.method? method <;> rfl
  rw [atBody, atBody, body]

/-- A method is its head and its body. -/
theorem SameHeads.method?_of_body (same : first.SameHeads second) {method : MethodId}
    (body : second.body method = first.body method) : second.method? method = first.method? method := by
  have whole (program : Program) : program.method? method =
      ((program.method? method).map Method.withoutBody).map fun head =>
        { head with body := program.body method } := by
    unfold Program.body
    cases program.method? method <;> rfl
  rw [whole second, whole first, same.map_withoutBody_method?, body]

end Bodies

namespace SameHeads

open Construction

variable {first second : Hierarchy} (same : first.program.SameHeads second.program)
  (granularity : Granularity)
include same

/-! ### Edges and facts -/

theorem seed : Construction.seed ⟨second, granularity⟩ = Construction.seed ⟨first, granularity⟩ := by
  funext caller callee state
  unfold Construction.seed
  rw [same.acceptsArgument granularity, same.returns granularity]
  rfl

theorem connect :
    Construction.connect ⟨second, granularity⟩ = Construction.connect ⟨first, granularity⟩ := by
  funext site call callee state
  unfold Construction.connect
  rw [same.seed granularity]

/-- **A call is linked in the same way.** -/
theorem link : Construction.link ⟨second, granularity⟩ = Construction.link ⟨first, granularity⟩ := by
  funext site call callee receiver state
  unfold Construction.link
  rw [same.connect granularity]
  rfl

theorem consequences :
    Setting.consequences ⟨second, granularity⟩ = Setting.consequences ⟨first, granularity⟩ := by
  funext state scope id
  unfold Setting.consequences Setting.flowsAt
  rw [same.acceptsArgument granularity, same.returns granularity, same.fieldAccepts granularity]
  rfl

/-- **The consequences of a fact are the same** if the calls that wait for it are. -/
theorem draw {state : State} {scope : Scope} {id : ClassId}
    (calls : ∀ waiting ∈ state.parked.waiting id scope,
      second.program.call? waiting.1 = first.program.call? waiting.1) :
    Construction.draw ⟨second, granularity⟩ scope id state =
      Construction.draw ⟨first, granularity⟩ scope id state := by
  have replayed : replayAll ⟨second, granularity⟩ scope id state =
      replayAll ⟨first, granularity⟩ scope id state := by
    unfold replayAll
    refine List.foldl_ext _ _ _ fun reached waiting member => ?_
    have call : (Setting.mk second granularity).program.call? waiting.1 =
        (Setting.mk first granularity).program.call? waiting.1 := calls waiting member
    unfold replay
    simp only [call, same.link granularity]
  rw [draw_eq, draw_eq, replayed, same.consequences granularity]

/-! ### Call sites -/

theorem resolveDeclared : Construction.resolveDeclared ⟨second, granularity⟩ =
    Construction.resolveDeclared ⟨first, granularity⟩ := by
  have isAbstract : (Setting.mk second granularity).program.isAbstract =
      (Setting.mk first granularity).program.isAbstract := same.isAbstract
  have isStatic : (Setting.mk second granularity).program.isStatic =
      (Setting.mk first granularity).program.isStatic := same.isStatic
  funext site call state
  unfold Construction.resolveDeclared checkStatic
  rw [same.link granularity, same.resolve, isAbstract, isStatic]

theorem ask (cache : TargetCache) : cache.ask second = cache.ask first := by
  funext target
  unfold TargetCache.ask
  rw [same.receivers]

theorem resolveVirtual : Construction.resolveVirtual ⟨second, granularity⟩ =
    Construction.resolveVirtual ⟨first, granularity⟩ := by
  funext site call state
  unfold Construction.resolveVirtual
  rw [same.link granularity, same.ask]
  rfl

/-- **A call site is resolved in the same way** if the same call stands there. -/
theorem resolveSite {site : Site} (call : second.program.call? site = first.program.call? site) :
    Construction.resolveSite ⟨second, granularity⟩ site =
      Construction.resolveSite ⟨first, granularity⟩ site := by
  funext state
  unfold Construction.resolveSite
  rw [same.resolveDeclared granularity, same.resolveVirtual granularity,
    show (Setting.mk second granularity).program.call? site =
      (Setting.mk first granularity).program.call? site from call]

/-! ### Methods -/

theorem absorb :
    Construction.absorb ⟨second, granularity⟩ = Construction.absorb ⟨first, granularity⟩ := by
  have isConcrete : (Setting.mk second granularity).program.isConcrete =
      (Setting.mk first granularity).program.isConcrete := same.isConcrete
  funext scope state statement
  unfold Construction.absorb allocate addStore addLoad
  rw [same.holdsObjects granularity, same.fieldAccepts granularity, isConcrete]
  rfl

theorem operandsInRange : Construction.operandsInRange ⟨second, granularity⟩ =
    Construction.operandsInRange ⟨first, granularity⟩ := by
  have class? : (Setting.mk second granularity).program.class? =
      (Setting.mk first granularity).program.class? := same.class?
  have field? : (Setting.mk second granularity).program.field? =
      (Setting.mk first granularity).program.field? := same.field?
  funext statement
  unfold Construction.operandsInRange
  rw [class?, field?]

/-- **A body is taken in in the same way.** -/
theorem absorbBody :
    Construction.absorbBody ⟨second, granularity⟩ = Construction.absorbBody ⟨first, granularity⟩ := by
  funext method body state
  unfold Construction.absorbBody
  rw [same.absorb granularity, same.operandsInRange granularity]
  rfl

/-- A method with the same body is processed in the same way. -/
theorem processMethod {method : MethodId} (body : second.program.body method = first.program.body method) :
    Construction.processMethod ⟨second, granularity⟩ method =
      Construction.processMethod ⟨first, granularity⟩ method := by
  have method? : (Setting.mk second granularity).program.method? method =
      (Setting.mk first granularity).program.method? method := same.method?_of_body body
  have callSites : (Setting.mk second granularity).program.callSites method =
      (Setting.mk first granularity).program.callSites method := callSites_of_body body
  funext state
  unfold Construction.processMethod
  rw [method?, callSites, same.absorbBody granularity]

/-! ### Steps -/

/-- **A step is the same** if the calls that it replays or resolves are, and if the method that it
processes is processed in the same way. -/
theorem step {state : State}
    (replayed : ∀ parked ∈ state.parked,
      second.program.call? parked.site = first.program.call? parked.site)
    (resolved : ∀ site sites, state.events = [] → state.sites = site :: sites →
      second.program.call? site = first.program.call? site)
    (processed : ∀ method methods, state.events = [] → state.sites = [] →
      state.methods = method :: methods →
      Construction.processMethod ⟨second, granularity⟩ method =
        Construction.processMethod ⟨first, granularity⟩ method) :
    Construction.step ⟨second, granularity⟩ state = Construction.step ⟨first, granularity⟩ state := by
  unfold Construction.step
  cases waiting : state.events with
  | cons fact events =>
    obtain ⟨scope, id⟩ := fact
    have drawn : Construction.draw ⟨second, granularity⟩ scope id { state with events } =
        Construction.draw ⟨first, granularity⟩ scope id { state with events } :=
      same.draw granularity fun _ member => replayed _ (Parked.mem_waiting.mp member)
    simp only [drawn]
  | nil =>
    cases next : state.sites with
    | cons site sites =>
      simp only [same.resolveSite granularity (resolved site sites waiting next)]
    | nil =>
      cases queue : state.methods with
      | cons method methods => simp only [processed method methods waiting next queue]
      | nil => rfl

end SameHeads

end CallFlow.Program
