/-
**What the target cache answers.**

The cache has one entry for a target, and both a question and a link make it. A question makes it
with the receivers that are looked up, a link without any. So the first use of a target decides what
every later question about it is answered: if the target was linked before it was asked for, the
receivers are never looked up and the answer is empty.

* `TargetCache.Use`, `TargetCache.useAll`: questions and links, in any order.
* `TargetCache.Remembers`: what a cache holds after them, kept by one more use.
* `Hierarchy.mem_receivers_iff_below`: the receivers that a look-up gives.
* `TargetCache.useAll_answers`: what a question is answered and what is reported as linked.
-/

import Mathlib.Data.List.Dedup
import CallFlow.Hierarchy.TargetCache
import CallFlow.Proofs.Hierarchy.Defaults
import CallFlow.Proofs.Hierarchy.Receivers

namespace CallFlow

open OrderKey (Before)

/-! ### The receivers of a target -/

namespace Hierarchy

variable {hierarchy : Hierarchy} {target : Target} {receivers : List (ClassId × MethodId)}

/-- A traversal finds the receivers in the order of the classes. -/
theorem map_fst_sublist_of_mapM {member : MemberId} {ids : List ClassId}
    {reached : List (Option (ClassId × MethodId))}
    (traversed : (ids.mapM fun id => (hierarchy.dispatch id member).map fun method =>
      method.map fun method => (id, method)) = .ok reached) :
    ((reached.filterMap id).map Prod.fst).Sublist ids := by
  induction ids generalizing reached with
  | nil =>
    rw [List.mapM_nil] at traversed
    cases traversed
    exact .slnil
  | cons lower rest hyp =>
    rw [List.mapM_cons] at traversed
    cases dispatched : hierarchy.dispatch lower member with
    | error fault =>
      rw [dispatched] at traversed
      cases traversed
    | ok method =>
      rw [dispatched] at traversed
      cases others : rest.mapM fun id => (hierarchy.dispatch id member).map fun method =>
          method.map fun method => (id, method) with
      | error fault =>
        rw [others] at traversed
        cases traversed
      | ok found =>
        rw [others] at traversed
        cases traversed
        cases method with
        | none => exact (hyp others).cons lower
        | some method => exact (hyp others).cons_cons lower

/-- The receivers are found in the order of the subtypes. -/
theorem map_fst_receivers_sublist (looked : hierarchy.receivers target = .ok receivers) :
    (receivers.map Prod.fst).Sublist (hierarchy.concreteSubtypes target.owner) := by
  obtain ⟨reached, traversed, rfl⟩ := exists_mapM_of_receivers looked
  exact map_fst_sublist_of_mapM traversed

/-- The receivers are listed by ascending identifiers, each once. -/
theorem pairwise_receivers (looked : hierarchy.receivers target = .ok receivers) :
    receivers.Pairwise fun first second => Before first.1 second.1 := by
  have classes : hierarchy.program.classIds.Pairwise Before :=
    hierarchy.program.classIds_ascend.imp ClassId.before_iff.mpr
  rw [← List.pairwise_map]
  exact ((classes.filter _).filter _).sublist (map_fst_receivers_sublist looked)

/-- A receiver is a concrete subtype of the class of the target on which the call runs a method. -/
theorem mem_receivers_iff_below (looked : hierarchy.receivers target = .ok receivers) {id : ClassId}
    {callee : MethodId} : (id, callee) ∈ receivers ↔
      hierarchy.program.isConcrete id = true ∧
      Program.Below hierarchy.program id target.owner ∧
      hierarchy.dispatch id target.member = .ok (some callee) := by
  rw [mem_receivers looked, mem_concreteSubtypes, and_assoc]

end Hierarchy

namespace TargetCache

/-! ### What is reported as linked -/

section Linked

variable {cache : TargetCache} {target : Target} {callee : MethodId} {callees : List MethodId}

theorem mem_linkedFor : callee ∈ cache.linkedFor target ↔ (target, callee) ∈ cache.linked :=
  SortedSet.mem_filterMap_fst

/-- A question changes nothing about what is linked. -/
theorem linked_ask {asked : TargetCache} {hierarchy : Hierarchy}
    {receivers : List (ClassId × MethodId)}
    (answer : cache.ask hierarchy target = .ok (receivers, asked)) : asked.linked = cache.linked := by
  rcases cache.ask_cases answer with ⟨_, rfl⟩ | ⟨_, _, rfl⟩ <;> rfl

/-- The methods linked for a target are listed by ascending identifiers, each once. -/
theorem pairwise_linkedFor (target : Target) : (cache.linkedFor target).Pairwise Before := by
  unfold linkedFor
  rw [List.pairwise_filterMap]
  apply cache.linked.ascending.imp
  rintro ⟨firstTarget, first⟩ ⟨secondTarget, second⟩ before left leftSame right rightSame
  simp only [Option.ite_none_right_eq_some, Option.some.injEq] at leftSame rightSame
  obtain ⟨rfl, rfl⟩ := leftSame
  obtain ⟨rfl, rfl⟩ := rightSame
  exact OrderKey.before_snd before

/-- A target is reported with all the methods linked for it, if there are any. -/
theorem mem_linkedTargets : (target, callees) ∈ cache.linkedTargets ↔
    callees = cache.linkedFor target ∧ callees ≠ [] := by
  unfold linkedTargets
  simp only [List.mem_map, SortedSet.mem_toList, SortedSet.mem_ofList, Prod.exists, Prod.mk.injEq]
  constructor
  · rintro ⟨other, ⟨_, callee, member, rfl⟩, rfl, rfl⟩
    exact ⟨rfl, List.ne_nil_of_mem (mem_linkedFor.mpr member)⟩
  · rintro ⟨rfl, some⟩
    obtain ⟨callee, member⟩ := List.exists_mem_of_ne_nil _ some
    exact ⟨target, ⟨target, callee, mem_linkedFor.mp member, rfl⟩, rfl, rfl⟩

/-- **What is reported are the linked pairs**, by targets. -/
theorem exists_mem_linkedTargets :
    (∃ callees, (target, callees) ∈ cache.linkedTargets ∧ callee ∈ callees) ↔
      (target, callee) ∈ cache.linked := by
  simp only [mem_linkedTargets]
  constructor
  · rintro ⟨_, ⟨rfl, _⟩, member⟩
    exact mem_linkedFor.mp member
  · intro linked
    have member := mem_linkedFor.mpr linked
    exact ⟨_, ⟨rfl, List.ne_nil_of_mem member⟩, member⟩

/-- The targets are reported in ascending order, each once. -/
theorem pairwise_linkedTargets : (cache.linkedTargets.map Prod.fst).Pairwise Before := by
  unfold linkedTargets
  rw [List.map_map]
  show (List.map id _).Pairwise Before
  rw [List.map_id]
  exact (SortedSet.ofList _).ascending

end Linked

/-! ### Questions and links -/

/-- A use of the cache: a question about a target, or a method linked for it. -/
inductive Use where
  | ask (target : Target)
  | record (target : Target) (callee : MethodId)
  deriving DecidableEq, Repr, Inhabited

namespace Use

/-- The target that a use is about. -/
def target : Use → Target
  | .ask target | .record target _ => target

/-- The target and the method of a link. -/
def linked? : Use → Option (Target × MethodId)
  | .ask _ => none
  | .record target callee => some (target, callee)

end Use

/-- The cache after one use. A question without an answer fails. -/
def use (hierarchy : Hierarchy) (cache : TargetCache) : Use → Except Fault TargetCache
  | .ask target => (cache.ask hierarchy target).map Prod.snd
  | .record target callee => .ok (cache.record target callee)

/-- The cache after a list of uses, in order. -/
def useAll (hierarchy : Hierarchy) (uses : List Use) (cache : TargetCache) :
    Except Fault TargetCache :=
  uses.foldlM (use hierarchy) cache

/-- Whether a target is linked before it is asked for. -/
def linkedFirst (uses : List Use) (target : Target) : Bool :=
  (uses.find? fun use => use.target = target).any fun use => use.linked?.isSome

/-- What a question about a target is answered after a list of uses of a new cache. -/
def answer (hierarchy : Hierarchy) (uses : List Use) (target : Target) :
    Except Fault (List (ClassId × MethodId)) :=
  if linkedFirst uses target then .ok [] else hierarchy.receivers target

/-- The cache holds what was found at the first use of each target, and all linked pairs. -/
structure Remembers (hierarchy : Hierarchy) (uses : List Use) (cache : TargetCache) : Prop where
  known : ∀ target, (cache.known.lookup target).isSome = true ↔ ∃ use ∈ uses, use.target = target
  answers : ∀ target receivers, cache.known.lookup target = some receivers →
    answer hierarchy uses target = .ok receivers
  linked : ∀ target callee, (target, callee) ∈ cache.linked ↔ .record target callee ∈ uses

section Uses

variable {hierarchy : Hierarchy} {uses : List Use} {cache next : TargetCache} {target : Target}

/-- Later uses do not matter for a target that has been used. -/
theorem answer_append_of_used (more : List Use) (used : ∃ use ∈ uses, use.target = target) :
    answer hierarchy (uses ++ more) target = answer hierarchy uses target := by
  obtain ⟨use, member, same⟩ := used
  have found : (uses.find? fun use => use.target = target).isSome = true := by
    rw [List.find?_isSome]
    exact ⟨use, member, decide_eq_true same⟩
  unfold answer linkedFirst
  rw [List.find?_append, Option.or_of_isSome found]

/-- For a target that has not been used the next use decides. -/
theorem answer_append_of_unused {use : Use} (unused : ¬ ∃ use ∈ uses, use.target = target) :
    answer hierarchy (uses ++ [use]) target = answer hierarchy [use] target := by
  have nothing : (uses.find? fun use => use.target = target) = none := by
    rw [List.find?_eq_none]
    exact fun other member same => unused ⟨other, member, of_decide_eq_true same⟩
  unfold answer linkedFirst
  rw [List.find?_append, nothing, Option.none_or]

/-- A target that is not used is looked up. -/
theorem answer_of_unused (unused : ¬ ∃ use ∈ uses, use.target = target) :
    answer hierarchy uses target = hierarchy.receivers target := by
  have nothing : (uses.find? fun use => use.target = target) = none := by
    rw [List.find?_eq_none]
    exact fun other member same => unused ⟨other, member, of_decide_eq_true same⟩
  unfold answer linkedFirst
  rw [nothing]
  rfl

theorem Remembers.new (hierarchy : Hierarchy) : Remembers hierarchy [] {} where
  known target := by simp
  answers target receivers found := by cases found
  linked target callee := by simp

namespace Remembers

variable (remembers : Remembers hierarchy uses cache)
include remembers

/-- **A question is answered from the first use of its target**, and by a look-up if there is none. -/
theorem map_ask (target : Target) :
    (cache.ask hierarchy target).map Prod.fst = answer hierarchy uses target := by
  unfold ask
  cases found : cache.known.lookup target with
  | some receivers => exact (remembers.answers target receivers found).symm
  | none =>
    have unused : ¬ ∃ use ∈ uses, use.target = target := by
      rw [← remembers.known, found]
      exact nofun
    rw [answer_of_unused unused]
    cases hierarchy.receivers target <;> rfl

/-- An entry that is new in the cache is right after the use that has made it. -/
theorem answers_cons (use : Use) {receivers : List (ClassId × MethodId)}
    (fresh : cache.known.lookup use.target = none)
    (right : answer hierarchy [use] use.target = .ok receivers) (other : Target)
    (list : List (ClassId × MethodId))
    (found : ((use.target, receivers) :: cache.known).lookup other = some list) :
    answer hierarchy (uses ++ [use]) other = .ok list := by
  by_cases same : other = use.target
  · subst same
    rw [List.lookup_cons_self] at found
    cases found
    have unused : ¬ ∃ other ∈ uses, other.target = use.target := by
      rw [← remembers.known, fresh]
      exact nofun
    rw [answer_append_of_unused unused]
    exact right
  · rw [lookup_cons_of_ne same] at found
    have used := (remembers.known other).mp (by rw [found]; rfl)
    rw [answer_append_of_used [use] used]
    exact remembers.answers other list found

/-- An entry that the cache had stays right. -/
theorem answers_append (more : List Use) (other : Target) (list : List (ClassId × MethodId))
    (found : cache.known.lookup other = some list) :
    answer hierarchy (uses ++ more) other = .ok list := by
  rw [answer_append_of_used more ((remembers.known other).mp (by rw [found]; rfl))]
  exact remembers.answers other list found

/-- The targets known after one more use, with an entry for it. -/
theorem known_cons (use : Use) (receivers : List (ClassId × MethodId)) (other : Target) :
    (((use.target, receivers) :: cache.known).lookup other).isSome = true ↔
      ∃ earlier ∈ uses ++ [use], earlier.target = other := by
  by_cases same : other = use.target
  · subst same
    simp
  · rw [lookup_cons_of_ne same, remembers.known]
    simp [or_and_right, exists_or, Ne.symm same]

/-- The targets known after one more use of a known one. -/
theorem known_append (use : Use) {receivers : List (ClassId × MethodId)}
    (found : cache.known.lookup use.target = some receivers) (other : Target) :
    (cache.known.lookup other).isSome = true ↔
      ∃ earlier ∈ uses ++ [use], earlier.target = other := by
  rw [remembers.known]
  constructor
  · rintro ⟨earlier, member, same⟩
    exact ⟨earlier, List.mem_append_left _ member, same⟩
  · rintro ⟨earlier, member, rfl⟩
    rcases List.mem_append.mp member with old | new
    · exact ⟨earlier, old, rfl⟩
    · rw [List.mem_singleton.mp new, ← remembers.known, found]
      rfl

/-- A question keeps what the cache remembers. -/
theorem ask {receivers : List (ClassId × MethodId)}
    (asked : cache.ask hierarchy target = .ok (receivers, next)) :
    Remembers hierarchy (uses ++ [.ask target]) next := by
  have linked (target' : Target) (callee : MethodId) : (target', callee) ∈ cache.linked ↔
      .record target' callee ∈ uses ++ [.ask target] := by
    simp [remembers.linked]
  rcases cache.ask_cases asked with ⟨found, rfl⟩ | ⟨fresh, looked, rfl⟩
  · exact ⟨remembers.known_append (.ask target) found,
      remembers.answers_append [.ask target], linked⟩
  · have right : answer hierarchy [.ask target] target = .ok receivers := by
      simp [answer, linkedFirst, Use.target, Use.linked?, looked]
    exact ⟨remembers.known_cons (.ask target) _,
      remembers.answers_cons (.ask target) fresh right, linked⟩

/-- A link keeps what the cache remembers. -/
theorem record (target : Target) (callee : MethodId) :
    Remembers hierarchy (uses ++ [.record target callee]) (cache.record target callee) := by
  have linked (other : Target) (method : MethodId) :
      (other, method) ∈ (cache.record target callee).linked ↔
        .record other method ∈ uses ++ [.record target callee] := by
    show (other, method) ∈ cache.linked.insert (target, callee) ↔ _
    simp [remembers.linked, or_comm]
  unfold TargetCache.record at linked ⊢
  cases found : cache.known.lookup target with
  | some receivers =>
    simp only [Option.isSome_some, if_true] at linked ⊢
    exact ⟨remembers.known_append (.record target callee) found,
      remembers.answers_append [.record target callee], linked⟩
  | none =>
    simp only [Option.isSome_none, Bool.false_eq_true, if_false] at linked ⊢
    have right : answer hierarchy [.record target callee] target = .ok [] := by
      simp [answer, linkedFirst, Use.target, Use.linked?]
    exact ⟨remembers.known_cons (.record target callee) _,
      remembers.answers_cons (.record target callee) found right, linked⟩

/-- **One more use keeps what the cache remembers.** -/
theorem use {use : Use} (used : cache.use hierarchy use = .ok next) :
    Remembers hierarchy (uses ++ [use]) next := by
  cases use with
  | ask target =>
    have answered : (cache.ask hierarchy target).map Prod.snd = .ok next := used
    cases asked : cache.ask hierarchy target with
    | error fault =>
      rw [asked] at answered
      cases answered
    | ok answer =>
      rw [asked] at answered
      cases answered
      exact remembers.ask asked
  | record target callee =>
    cases used
    exact remembers.record target callee

/-- **After any uses** the cache remembers them. -/
theorem useAll {more : List Use} (used : useAll hierarchy more cache = .ok next) :
    Remembers hierarchy (uses ++ more) next := by
  induction more generalizing uses cache with
  | nil =>
    cases used
    rw [List.append_nil]
    exact remembers
  | cons first rest hyp =>
    unfold TargetCache.useAll at used
    rw [List.foldlM_cons] at used
    cases step : cache.use hierarchy first with
    | error fault =>
      rw [step] at used
      cases used
    | ok middle =>
      rw [step] at used
      have rest := hyp (remembers.use step) used
      rw [List.append_assoc] at rest
      exact rest

omit remembers in
/-- Uses succeed if every target that is asked for has its receivers. -/
theorem exists_useAll {more : List Use} (each : ∀ target, .ask target ∈ more →
      ∃ receivers, hierarchy.receivers target = .ok receivers) :
    ∃ next, TargetCache.useAll hierarchy more cache = .ok next := by
  induction more generalizing cache with
  | nil => exact ⟨cache, rfl⟩
  | cons first rest hyp =>
    obtain ⟨middle, step⟩ : ∃ middle, cache.use hierarchy first = .ok middle := by
      cases first with
      | record target callee => exact ⟨_, rfl⟩
      | ask target =>
        obtain ⟨receivers, looked⟩ := each target List.mem_cons_self
        show ∃ middle, (cache.ask hierarchy target).map Prod.snd = .ok middle
        unfold TargetCache.ask
        split
        · exact ⟨_, rfl⟩
        · rw [looked]
          exact ⟨_, rfl⟩
    obtain ⟨next, used⟩ := @hyp middle fun target member =>
      each target (List.mem_cons_of_mem _ member)
    refine ⟨next, ?_⟩
    unfold TargetCache.useAll
    rw [List.foldlM_cons, step]
    exact used

/-- As many methods are linked as there are different linked pairs. -/
theorem linkedCount_eq : cache.linkedCount = (uses.filterMap Use.linked?).dedup.length := by
  have sameMembers : ∀ pair, pair ∈ cache.linked.toList ↔
      pair ∈ (uses.filterMap Use.linked?).dedup := by
    rintro ⟨target, callee⟩
    rw [SortedSet.mem_toList, remembers.linked, List.mem_dedup, List.mem_filterMap]
    constructor
    · exact fun member => ⟨_, member, rfl⟩
    · rintro ⟨use, member, same⟩
      cases use with
      | ask => cases same
      | record =>
        cases same
        exact member
  exact ((List.perm_ext_iff_of_nodup cache.linked.nodup_toList
    (List.nodup_dedup _)).mpr sameMembers).length_eq

end Remembers

end Uses

/-- **What a new target cache answers after any uses.** They succeed if every target asked for has
receivers to be looked up. Then a question is answered with the receivers of its target, unless the
target was linked before it was asked for: then with nothing. The receivers are the concrete subtypes
of the class of the target on which the call runs a method, ascending. What is reported as linked are
the linked pairs, by ascending targets and with ascending methods, and they are counted once. -/
theorem useAll_answers (hierarchy : Hierarchy) (uses : List Use) :
    ((∀ target, .ask target ∈ uses → ∃ receivers, hierarchy.receivers target = .ok receivers) →
      ∃ cache, useAll hierarchy uses {} = .ok cache) ∧
    (∀ target receivers, hierarchy.receivers target = .ok receivers →
      receivers.Pairwise (fun first second => Before first.1 second.1) ∧
      ∀ id callee, (id, callee) ∈ receivers ↔ hierarchy.program.isConcrete id = true ∧
        Program.Below hierarchy.program id target.owner ∧
        hierarchy.dispatch id target.member = .ok (some callee)) ∧
    ∀ cache, useAll hierarchy uses {} = .ok cache →
      (∀ target, (cache.ask hierarchy target).map Prod.fst =
        if linkedFirst uses target then .ok [] else hierarchy.receivers target) ∧
      (cache.linkedTargets.map Prod.fst).Pairwise Before ∧
      (∀ target callees, (target, callees) ∈ cache.linkedTargets →
        callees ≠ [] ∧ callees.Pairwise Before) ∧
      (∀ target callee, (∃ callees, (target, callees) ∈ cache.linkedTargets ∧ callee ∈ callees) ↔
        .record target callee ∈ uses) ∧
      cache.linkedCount = (uses.filterMap Use.linked?).dedup.length := by
  refine ⟨Remembers.exists_useAll, fun target receivers looked =>
    ⟨Hierarchy.pairwise_receivers looked, fun id callee =>
      Hierarchy.mem_receivers_iff_below looked⟩, fun cache used => ?_⟩
  have remembers : Remembers hierarchy uses cache := (Remembers.new hierarchy).useAll used
  refine ⟨remembers.map_ask, pairwise_linkedTargets, fun target callees reported => ?_,
    fun target callee => ?_, remembers.linkedCount_eq⟩
  · obtain ⟨rfl, some⟩ := mem_linkedTargets.mp reported
    exact ⟨some, pairwise_linkedFor target⟩
  · rw [exists_mem_linkedTargets, remembers.linked]

/-- The area of shapes is looked up, linked and then answered from memory. -/
theorem useAll_answers_roundShapes :
    ∃ cache, useAll Hierarchy.roundShapes [.ask ⟨⟨0⟩, ⟨1⟩⟩, .record ⟨⟨0⟩, ⟨1⟩⟩ ⟨3⟩] {} = .ok cache ∧
      (cache.ask Hierarchy.roundShapes ⟨⟨0⟩, ⟨1⟩⟩).map Prod.fst = .ok [(⟨2⟩, ⟨3⟩)] ∧
      cache.linkedCount = 1 := by
  have looked : Hierarchy.roundShapes.receivers ⟨⟨0⟩, ⟨1⟩⟩ = .ok [(⟨2⟩, ⟨3⟩)] := rfl
  obtain ⟨succeeds, _, answers⟩ := useAll_answers Hierarchy.roundShapes
    [.ask ⟨⟨0⟩, ⟨1⟩⟩, .record ⟨⟨0⟩, ⟨1⟩⟩ ⟨3⟩]
  obtain ⟨cache, used⟩ := succeeds fun target asked => by
    simp only [List.mem_cons, Use.ask.injEq, reduceCtorEq, List.not_mem_nil, or_false] at asked
    exact ⟨_, asked ▸ looked⟩
  obtain ⟨ask, _, _, _, count⟩ := answers cache used
  exact ⟨cache, used, (ask _).trans looked, count⟩

/-- If the area of shapes is linked before it is asked for, circles are not found as receivers. -/
theorem ask_of_linkedFirst_roundShapes :
    Hierarchy.roundShapes.receivers ⟨⟨0⟩, ⟨1⟩⟩ = .ok [(⟨2⟩, ⟨3⟩)] ∧
      ∃ cache, useAll Hierarchy.roundShapes [.record ⟨⟨0⟩, ⟨1⟩⟩ ⟨3⟩] {} = .ok cache ∧
        (cache.ask Hierarchy.roundShapes ⟨⟨0⟩, ⟨1⟩⟩).map Prod.fst = .ok [] :=
  ⟨rfl, _, rfl, rfl⟩

end TargetCache

end CallFlow
