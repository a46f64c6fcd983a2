/-
**Parked calls.**

A virtual call on a receiver class that is not yet instantiated in the scope of its caller is
parked, and taken out again when the class arrives there.

* `Parked.mem_park`: parking adds the entry and nothing else.
* `Parked.mem_remaining`, `Parked.size_remaining`: taking removes the entries of one class and scope
  and no others.
-/

import CallFlow.Flow.Scope
import CallFlow.Order.SortedSet

namespace CallFlow

/-- A call that waits for a receiver class in a scope. -/
structure ParkedCall where
  receiver : ClassId
  scope : Scope
  site : Site
  callee : MethodId
  deriving DecidableEq, Repr, Inhabited

/-- Parked calls are ordered by receiver and scope, then by site and callee. -/
instance : OrderKey ParkedCall where
  key call := OrderKey.key ((call.receiver, call.scope), (call.site, call.callee))
  width := OrderKey.width ((ClassId × Scope) × (Site × MethodId))
  length_key _ := OrderKey.length_key _
  key_injective := by
    rintro ⟨_, _, _, _⟩ ⟨_, _, _, _⟩ equal
    have same := OrderKey.key_injective equal
    simp only [Prod.mk.injEq] at same
    obtain ⟨⟨rfl, rfl⟩, rfl, rfl⟩ := same
    rfl

/-- The calls that wait. -/
abbrev Parked := SortedSet ParkedCall

namespace Parked

/-- The parked calls with one more. -/
def park (parked : Parked) (call : ParkedCall) : Parked := parked.insert call

/-- The sites and callees that wait for a class in a scope, ascending. -/
def waiting (parked : Parked) (receiver : ClassId) (scope : Scope) : List (Site × MethodId) :=
  parked.toList.filterMap fun call =>
    if call.receiver = receiver ∧ call.scope = scope then some (call.site, call.callee) else none

/-- The parked calls without those that wait for a class in a scope. -/
def remaining (parked : Parked) (receiver : ClassId) (scope : Scope) : Parked :=
  parked.filter fun call => !decide (call.receiver = receiver ∧ call.scope = scope)

theorem mem_park {parked : Parked} {call other : ParkedCall} :
    other ∈ parked.park call ↔ other = call ∨ other ∈ parked := SortedSet.mem_insert

theorem mem_waiting {parked : Parked} {receiver : ClassId} {scope : Scope} {site : Site}
    {callee : MethodId} :
    (site, callee) ∈ parked.waiting receiver scope ↔ ⟨receiver, scope, site, callee⟩ ∈ parked := by
  simp only [waiting, List.mem_filterMap, SortedSet.mem_toList, Option.ite_none_right_eq_some,
    Option.some.injEq, Prod.mk.injEq]
  constructor
  · rintro ⟨⟨_, _, _, _⟩, member, ⟨rfl, rfl⟩, rfl, rfl⟩
    exact member
  · exact fun member => ⟨_, member, ⟨rfl, rfl⟩, rfl, rfl⟩

theorem mem_remaining {parked : Parked} {receiver : ClassId} {scope : Scope} {call : ParkedCall} :
    call ∈ parked.remaining receiver scope ↔
      call ∈ parked ∧ ¬ (call.receiver = receiver ∧ call.scope = scope) := by
  simp only [remaining, SortedSet.mem_filter, Bool.not_eq_eq_eq_not, Bool.not_true,
    decide_eq_false_iff_not]

/-- As many calls are taken as do not remain. -/
theorem size_remaining (parked : Parked) (receiver : ClassId) (scope : Scope) :
    (parked.waiting receiver scope).length + (parked.remaining receiver scope).size =
      parked.size := by
  have waits (call : ParkedCall) :
      (if call.receiver = receiver ∧ call.scope = scope then some (call.site, call.callee)
        else none).isSome = decide (call.receiver = receiver ∧ call.scope = scope) := by
    split <;> simp_all
  unfold waiting remaining SortedSet.filter SortedSet.size
  simp only [List.length_filterMap_eq_countP, waits, ← List.countP_eq_length_filter]
  rw [List.length_eq_countP_add_countP fun call =>
    decide (call.receiver = receiver ∧ call.scope = scope)]
  simp

end Parked

end CallFlow
