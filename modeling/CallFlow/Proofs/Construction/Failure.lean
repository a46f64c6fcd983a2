/-
**Why a construction fails.**

In a program whose identifiers are in range, a construction can only fail at a call site: because the
hierarchy has no answer, or because the instruction is unknown. The hierarchy answers all calls if the
walks of the program end. It also answers those that another construction has resolved.

* `Construction.Malformed`: the next thing to do is a call site with an unknown instruction.
* `Construction.step_error`: no other step fails, if the hierarchy answers the calls found so far.
* `Construction.construct_outcome`: a construction finishes or comes to such a call site, in a program
  whose walks end.
* `Construction.construct_of_closed`: it finishes inside a closed solution in which every call can be
  resolved.
-/

import CallFlow.Proofs.Construction.Bound

namespace CallFlow.Construction

variable {setting : Setting} {entry : MethodId} {past : List State} {state : State}

/-- The next thing to do is a call site with an unknown instruction. -/
structure Malformed (setting : Setting) (state : State) (site : Site) : Prop where
  drained : state.events = []
  next : ∃ sites, state.sites = site :: sites
  unknown : ∃ call, setting.program.call? site = some call ∧ call.kind = .other

/-- A construction fails at a call site with an unknown instruction. -/
theorem Malformed.stuck {site : Site} (malformed : Malformed setting state site) :
    step setting state = some (.error (.malformedCallKind site)) := by
  obtain ⟨drained, ⟨sites, next⟩, call, isCall, kind⟩ := malformed
  unfold step
  rw [drained, next]
  unfold resolveSite
  simp only [isCall, kind]

/-! ### Single questions -/

section Answers

variable {site : Site} {call : Call} (answers : setting.hierarchy.Answers call)
include answers

theorem exists_resolveDeclared (direct : call.kind = .static ∨ call.kind = .special) :
    ∃ next, resolveDeclared setting site call state = .ok next := by
  obtain ⟨found, resolved⟩ := answers.declared direct
  unfold resolveDeclared
  rw [resolved]
  simp only
  split <;> exact ⟨_, rfl⟩

/-- The receivers of the target of a call are found, in memory or in the hierarchy. -/
theorem exists_ask (virtual : call.kind.isVirtual = true) :
    ∃ answer, state.cache.ask setting.hierarchy call.target = .ok answer := by
  obtain ⟨receivers, looked⟩ := answers.received virtual
  unfold TargetCache.ask
  split
  · exact ⟨_, rfl⟩
  · rw [looked]
    exact ⟨_, rfl⟩

theorem exists_resolveVirtual (virtual : call.kind.isVirtual = true) :
    ∃ next, resolveVirtual setting site call state = .ok next := by
  obtain ⟨answer, asked⟩ : ∃ answer, state.cache.ask setting.hierarchy call.target = .ok answer :=
    exists_ask answers virtual
  unfold resolveVirtual
  rw [asked]
  simp only
  split <;> exact ⟨_, rfl⟩

end Answers

/-- A call site that the hierarchy answers fails to resolve only if its instruction is unknown. -/
theorem resolveSite_error {site : Site} {error : BuildError}
    (answers : ∀ call, setting.program.call? site = some call → setting.hierarchy.Answers call)
    (failed : resolveSite setting site state = .error error) :
    (∃ call, setting.program.call? site = some call ∧ call.kind = .other) ∧
      error = .malformedCallKind site := by
  unfold resolveSite at failed
  split at failed
  · cases failed
  · next call isCall =>
    have declared (direct : call.kind = .static ∨ call.kind = .special) :
        resolveDeclared setting site call state ≠ .error error := by
      obtain ⟨next, resolved⟩ := exists_resolveDeclared (answers call isCall) direct
      rw [resolved]
      exact nofun
    have virtual (receives : call.kind.isVirtual = true) :
        resolveVirtual setting site call state ≠ .error error := by
      obtain ⟨next, resolved⟩ := exists_resolveVirtual (answers call isCall) receives
      rw [resolved]
      exact nofun
    split at failed
    · next kind => exact absurd failed (declared (.inl kind))
    · next kind => exact absurd failed (declared (.inr kind))
    · next kind => exact absurd failed (virtual (by rw [kind]; rfl))
    · next kind => exact absurd failed (virtual (by rw [kind]; rfl))
    · cases failed
    · next kind =>
      cases failed
      exact ⟨⟨call, isCall, kind⟩, rfl⟩

/-- In a state in which nothing is left every call of a reachable method has been resolved: its
instruction is known, and the hierarchy has answered. -/
theorem resolvable_of_idle (reaches : Reaches setting entry past state) (idle : step setting state = none)
    {site : Site} {call : Call} (reachable : site.method ∈ state.graph.reachable)
    (isCall : setting.program.call? site = some call) :
    call.kind ≠ .other ∧ setting.hierarchy.Answers call := by
  have handled := handled_of_idle reaches idle reachable isCall
  exact ⟨handled.recognised, handled.answers⟩

/-! ### Whole constructions -/

section Outcomes

variable (inRange : setting.program.InRange)
include inRange

/-- A method of the program is processed without failure. -/
theorem exists_processMethod {method : MethodId}
    (isMethod : (setting.program.method? method).isSome = true) :
    ∃ next, processMethod setting method state = .ok next := by
  unfold processMethod
  split
  · exact ⟨_, rfl⟩
  · cases found : setting.program.method? method with
    | none => rw [found] at isMethod; cases isMethod
    | some info =>
      simp only
      unfold absorbBody
      rw [if_pos (inRange.operands rfl found)]
      split <;> exact ⟨_, rfl⟩

variable (isMethod : (setting.program.method? entry).isSome = true)
include isMethod

/-- **No step fails but at a call site with an unknown instruction**, if the hierarchy answers the calls
of the methods found so far. -/
theorem step_error (reaches : Reaches setting entry past state)
    (answers : ∀ site call, site.method ∈ state.graph.reachable →
      setting.program.call? site = some call → setting.hierarchy.Answers call)
    {error : BuildError} (stuck : step setting state = some (.error error)) :
    ∃ site, Malformed setting state site ∧ error = .malformedCallKind site := by
  rcases step_cases stuck with ⟨scope, id, events, waiting, failed⟩ |
    ⟨site, sites, drained, waiting, failed⟩ | ⟨method, methods, drained, idle, waiting, failed⟩
  · cases failed
  · have reachable := reaches.coherent.sites site (waiting ▸ List.mem_cons_self)
    obtain ⟨unknown, same⟩ := resolveSite_error (answers site · reachable) failed.symm
    exact ⟨site, ⟨drained, ⟨sites, waiting⟩, unknown⟩, same⟩
  · have arrives : Arrives state method := .inr (waiting ▸ List.mem_cons_self)
    have known := (reaches.within (closed_everything isMethod)).reachable method arrives
    obtain ⟨next, processed⟩ : ∃ next, processMethod setting method { state with methods } = .ok next :=
      exists_processMethod inRange (setting.program.mem_methodIds.mp known)
    rw [processed] at failed
    cases failed

/-- **A construction finishes or comes to a call site with an unknown instruction**, if the hierarchy
answers the calls of all methods in a closed solution. -/
theorem construct_outcome_of_closed {solution : Solution} (closed : Closed setting entry solution)
    (answers : ∀ site call, site.method ∈ solution.reachable →
      setting.program.call? site = some call → setting.hierarchy.Answers call) :
    ∃ past, Reaches setting entry past (construct setting entry).state ∧
      ((construct setting entry).ending = .finished ∧
          step setting (construct setting entry).state = none ∨
        ∃ site, Malformed setting (construct setting entry).state site ∧
          (construct setting entry).ending = .failed (.malformedCallKind site)) := by
  obtain ⟨past, reaches, ends⟩ := construct_ends isMethod
  refine ⟨past, reaches, ?_⟩
  generalize (construct setting entry).ending = ending at ends ⊢
  cases ends with
  | finished idle => exact .inl ⟨rfl, idle⟩
  | failed stuck =>
    have within := reaches.within closed
    obtain ⟨site, malformed, rfl⟩ := step_error inRange isMethod reaches
      (fun site call reachable => answers site call (within.reachable site.method (.inl reachable)))
      stuck
    exact .inr ⟨site, malformed, rfl⟩
  | exhausted all busy => exact all.elim

variable (setting) in
/-- **In a program whose walks end a construction finishes or comes to a call site with an unknown
instruction.** -/
theorem construct_outcome (walksEnd : setting.program.WalksEnd) :
    ∃ past, Reaches setting entry past (construct setting entry).state ∧
      ((construct setting entry).ending = .finished ∧
          step setting (construct setting entry).state = none ∨
        ∃ site, Malformed setting (construct setting entry).state site ∧
          (construct setting entry).ending = .failed (.malformedCallKind site)) :=
  construct_outcome_of_closed inRange isMethod (closed_everything isMethod)
    fun _ _ _ isCall => Hierarchy.answers_of_walksEnd walksEnd isCall (inRange.call isCall).1

variable (setting) in
/-- **A construction finishes inside a closed solution** if the instructions of all calls of reachable
methods are known and the hierarchy answers them. -/
theorem construct_of_closed {solution : Solution} (closed : Closed setting entry solution)
    (resolvable : ∀ site call, site.method ∈ solution.reachable →
      setting.program.call? site = some call → call.kind ≠ .other ∧ setting.hierarchy.Answers call) :
    (construct setting entry).ending = .finished ∧
      (construct setting entry).state.solution ≤ solution := by
  obtain ⟨past, reaches, outcome⟩ := construct_outcome_of_closed inRange isMethod closed
    fun site call reachable isCall => (resolvable site call reachable isCall).2
  have within := reaches.within closed
  rcases outcome with ⟨finished, _⟩ | ⟨site, malformed, _⟩
  · exact ⟨finished, fun method reachable => within.reachable method (.inl reachable), within.edges,
      within.facts⟩
  · obtain ⟨_, ⟨sites, next⟩, call, isCall, kind⟩ := malformed
    have reachable := reaches.coherent.sites site (next ▸ List.mem_cons_self)
    exact absurd kind
      (resolvable site call (within.reachable site.method (.inl reachable)) isCall).1

end Outcomes

end CallFlow.Construction
