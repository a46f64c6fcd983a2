/-
**Remembered call targets.**

The receivers of a virtual target are looked up once and remembered, and so are the methods that
have been linked for it. Linking a method for a target that was never looked up makes the target
known with no receivers: later questions about it are answered from what is remembered.

* `TargetCache.ask`: the receivers of a target, remembered or looked up.
* `TargetCache.linkedTargets`: the methods linked for each target, ascending.
-/

import CallFlow.Hierarchy.Dispatch

namespace CallFlow

/-- What is remembered about virtual targets. -/
structure TargetCache where
  /-- The receivers of the targets that are known. -/
  known : List (Target × List (ClassId × MethodId)) := []
  /-- The methods linked for each target. -/
  linked : SortedSet (Target × MethodId) := ∅
  /-- How many questions were answered from memory. -/
  hits : Nat := 0
  /-- How many questions were looked up. -/
  misses : Nat := 0
  deriving Inhabited

/-- A key is looked up behind the entries of other keys. -/
theorem lookup_cons_of_ne {α β : Type} [DecidableEq α] {key other : α} (different : key ≠ other)
    (value : β) (pairs : List (α × β)) :
    ((other, value) :: pairs).lookup key = pairs.lookup key := by
  rw [List.lookup_cons, beq_eq_false_iff_ne.mpr different]

namespace TargetCache

variable (cache : TargetCache)

/-- The receivers of a target, from memory if it is known. -/
def ask (hierarchy : Hierarchy) (target : Target) :
    Except Fault (List (ClassId × MethodId) × TargetCache) :=
  match cache.known.lookup target with
  | some receivers => .ok (receivers, { cache with hits := cache.hits + 1 })
  | none => (hierarchy.receivers target).map fun receivers =>
      (receivers,
        { cache with known := (target, receivers) :: cache.known, misses := cache.misses + 1 })

/-- Remembers that a method has been linked for a target. -/
def record (target : Target) (callee : MethodId) : TargetCache :=
  { cache with
    known := if (cache.known.lookup target).isSome then cache.known else (target, []) :: cache.known
    linked := cache.linked.insert (target, callee) }

/-- What is known stays known when a method is linked. -/
theorem isSome_record {target other : Target} {callee : MethodId}
    (known : (cache.known.lookup other).isSome = true) :
    (((cache.record target callee).known).lookup other).isSome = true := by
  unfold record
  split
  · exact known
  · by_cases same : other = target
    · simp [same]
    · rw [lookup_cons_of_ne same]
      exact known

/-- A question is answered from memory, or looked up and then remembered. -/
theorem ask_cases {asked : TargetCache} {hierarchy : Hierarchy} {target : Target}
    {receivers : List (ClassId × MethodId)}
    (answer : cache.ask hierarchy target = .ok (receivers, asked)) :
    (cache.known.lookup target = some receivers ∧ asked = { cache with hits := cache.hits + 1 }) ∨
      (cache.known.lookup target = none ∧ hierarchy.receivers target = .ok receivers ∧
        asked = { cache with
          known := (target, receivers) :: cache.known, misses := cache.misses + 1 }) := by
  unfold ask at answer
  split at answer
  · next found =>
    cases answer
    exact .inl ⟨found, rfl⟩
  · next unknown =>
    cases looked : hierarchy.receivers target with
    | error fault => rw [looked] at answer; cases answer
    | ok list =>
      rw [looked] at answer
      cases answer
      exact .inr ⟨unknown, rfl, rfl⟩

/-- What is known stays known when a target is asked for, and the target becomes known. -/
theorem isSome_ask {asked : TargetCache} {hierarchy : Hierarchy} {target other : Target}
    {receivers : List (ClassId × MethodId)}
    (answer : cache.ask hierarchy target = .ok (receivers, asked))
    (known : (cache.known.lookup other).isSome = true ∨ other = target) :
    (asked.known.lookup other).isSome = true := by
  rcases cache.ask_cases answer with ⟨found, rfl⟩ | ⟨unknown, _, rfl⟩
  · rcases known with known | rfl
    · exact known
    · rw [found]
      rfl
  · by_cases same : other = target
    · simp [same]
    · rw [lookup_cons_of_ne same]
      exact known.resolve_right same

/-- The methods linked for a target, ascending. -/
def linkedFor (target : Target) : List MethodId :=
  cache.linked.toList.filterMap fun pair => if pair.1 = target then some pair.2 else none

/-- The targets with a linked method, ascending, each with its linked methods, ascending. -/
def linkedTargets : List (Target × List MethodId) :=
  (SortedSet.ofList (cache.linked.toList.map Prod.fst)).toList.map fun target =>
    (target, cache.linkedFor target)

/-- The number of methods linked, over all targets. -/
def linkedCount : Nat := cache.linked.size

end TargetCache

end CallFlow
