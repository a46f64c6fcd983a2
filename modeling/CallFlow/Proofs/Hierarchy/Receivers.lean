/-
**The receivers of a virtual target.**

The receivers of a target are looked up one subtype after the other, and a single lookup that does
not end spoils the whole answer.

* `Hierarchy.mem_receivers`: the receivers are the concrete subtypes on which the call reaches a
  method, each with that method.
* `Hierarchy.exists_receivers`: there is an answer if every single lookup has one.
* `Hierarchy.Answers`: what is asked of the hierarchy for one call has an answer.
-/

import CallFlow.Hierarchy.Dispatch
import CallFlow.Program.CallKind

namespace CallFlow

section Traversal

variable {ε α β : Type} {f : α → Except ε β}

/-- A traversal that succeeds collects the results of the elements. -/
theorem mem_of_mapM_ok {inputs : List α} {results : List β} (succeeded : inputs.mapM f = .ok results)
    {result : β} : result ∈ results ↔ ∃ input ∈ inputs, f input = .ok result := by
  induction inputs generalizing results with
  | nil =>
    rw [List.mapM_nil] at succeeded
    cases succeeded
    simp
  | cons input rest hyp =>
    rw [List.mapM_cons] at succeeded
    cases first : f input with
    | error fault =>
      rw [first] at succeeded
      cases succeeded
    | ok value =>
      cases others : rest.mapM f with
      | error fault =>
        rw [first, others] at succeeded
        cases succeeded
      | ok values =>
        rw [first, others] at succeeded
        cases succeeded
        simp [hyp others, first, eq_comm]

theorem exists_mapM_ok {inputs : List α} (each : ∀ input ∈ inputs, ∃ result, f input = .ok result) :
    ∃ results, inputs.mapM f = .ok results := by
  induction inputs with
  | nil => exact ⟨[], rfl⟩
  | cons input rest hyp =>
    obtain ⟨value, first⟩ := each input List.mem_cons_self
    obtain ⟨values, others⟩ := hyp fun other member => each other (List.mem_cons_of_mem _ member)
    exact ⟨value :: values, by rw [List.mapM_cons, first, others]; rfl⟩

end Traversal

namespace Hierarchy

variable {hierarchy : Hierarchy} {target : Target}

theorem map_dispatch_eq_ok {id : ClassId} {member : MemberId} {found : Option (ClassId × MethodId)} :
    ((hierarchy.dispatch id member).map fun method => method.map fun method => (id, method)) =
      .ok found ↔ ∃ method, hierarchy.dispatch id member = .ok method ∧
        found = method.map fun method => (id, method) := by
  cases hierarchy.dispatch id member with
  | error fault => simp [Except.map]
  | ok method => simp [Except.map, eq_comm]

/-- The receivers come from a traversal of the concrete subtypes. -/
theorem exists_mapM_of_receivers {receivers : List (ClassId × MethodId)}
    (looked : hierarchy.receivers target = .ok receivers) :
    ∃ reached, ((hierarchy.concreteSubtypes target.owner).mapM fun id =>
        (hierarchy.dispatch id target.member).map fun method =>
          method.map fun method => (id, method)) = .ok reached ∧
      receivers = reached.filterMap id := by
  unfold Hierarchy.receivers at looked
  split at looked
  · cases looked
  · cases traversed : (hierarchy.concreteSubtypes target.owner).mapM fun id =>
        (hierarchy.dispatch id target.member).map fun method =>
          method.map fun method => (id, method) with
    | error fault =>
      rw [traversed] at looked
      cases looked
    | ok reached =>
      rw [traversed] at looked
      cases looked
      exact ⟨reached, rfl, rfl⟩

/-- **The receivers of a target** are the concrete subtypes of its class on which the call reaches a
method, each with that method. -/
theorem mem_receivers {receivers : List (ClassId × MethodId)}
    (looked : hierarchy.receivers target = .ok receivers) {id : ClassId} {callee : MethodId} :
    (id, callee) ∈ receivers ↔ id ∈ hierarchy.concreteSubtypes target.owner ∧
      hierarchy.dispatch id target.member = .ok (some callee) := by
  obtain ⟨reached, traversed, rfl⟩ := exists_mapM_of_receivers looked
  rw [List.mem_filterMap]
  constructor
  · rintro ⟨found, member, same⟩
    obtain ⟨lower, subtype, paired⟩ := (mem_of_mapM_ok traversed).mp member
    obtain ⟨method, dispatched, rfl⟩ := map_dispatch_eq_ok.mp paired
    cases method with
    | none => cases same
    | some method =>
      cases same
      exact ⟨subtype, dispatched⟩
  · rintro ⟨subtype, dispatched⟩
    exact ⟨some (id, callee), (mem_of_mapM_ok traversed).mpr
      ⟨id, subtype, map_dispatch_eq_ok.mpr ⟨some callee, dispatched, rfl⟩⟩, rfl⟩

/-- **There is an answer** if the class of the target is a class of the program and every lookup on
a concrete subtype has one. -/
theorem exists_receivers (inRange : (hierarchy.program.class? target.owner).isSome = true)
    (each : ∀ id ∈ hierarchy.concreteSubtypes target.owner,
      ∃ method, hierarchy.dispatch id target.member = .ok method) :
    ∃ receivers, hierarchy.receivers target = .ok receivers := by
  have reaches : ∀ id ∈ hierarchy.concreteSubtypes target.owner, ∃ found,
      ((hierarchy.dispatch id target.member).map fun method =>
        method.map fun method => (id, method)) = .ok found := by
    intro id member
    obtain ⟨method, dispatched⟩ := each id member
    exact ⟨_, map_dispatch_eq_ok.mpr ⟨method, dispatched, rfl⟩⟩
  obtain ⟨reached, traversed⟩ := exists_mapM_ok reaches
  refine ⟨reached.filterMap id, ?_⟩
  have present : ¬ (hierarchy.program.class? target.owner).isNone = true := by
    rw [Option.isNone_iff_eq_none]
    exact Option.isSome_iff_ne_none.mp inRange
  unfold Hierarchy.receivers
  rw [if_neg present, traversed]
  rfl

variable (hierarchy) in
/-- What is asked for a call has an answer: the declaration that it names or the receivers of its
target. -/
structure Answers (call : Call) : Prop where
  declared : call.kind = .static ∨ call.kind = .special →
    ∃ found, hierarchy.resolve call.target = .ok found
  received : call.kind.isVirtual = true →
    ∃ receivers, hierarchy.receivers call.target = .ok receivers

/-- Nothing is asked for a dynamic call. -/
theorem Answers.of_dynamic {call : Call} (dynamic : call.kind = .dynamic) :
    hierarchy.Answers call where
  declared direct := by
    rw [dynamic] at direct
    rcases direct with same | same <;> cases same
  received virtual := by
    rw [dynamic] at virtual
    cases virtual

end Hierarchy

end CallFlow
