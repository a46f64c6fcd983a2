/-
**Ascending sets.**

A finite set is kept as the strictly ascending list of its members, so that a set has one form and
is walked in order.

* `SortedSet.ext_mem`: two sets with the same members are the same set.
* `SortedSet.mem_insert`, `SortedSet.mem_filter`, `SortedSet.mem_ofList`: what each operation
  holds.
* `SortedSet.size_insert`: a new member adds one to the size.
-/

import CallFlow.Order.Key

namespace CallFlow

open OrderKey

/-- A finite set, as the strictly ascending list of its members. -/
structure SortedSet (α : Type) [OrderKey α] where
  /-- The members in ascending order. -/
  toList : List α
  ascending : toList.Pairwise Before

namespace SortedSet

variable {α β : Type} [OrderKey α] [OrderKey β]

instance : Membership α (SortedSet α) where
  mem set value := value ∈ set.toList

instance decidableMem [DecidableEq α] (value : α) (set : SortedSet α) : Decidable (value ∈ set) :=
  inferInstanceAs (Decidable (value ∈ set.toList))

@[simp] theorem mem_toList {value : α} {set : SortedSet α} : value ∈ set.toList ↔ value ∈ set :=
  Iff.rfl

/-- The set without members. -/
def empty : SortedSet α := ⟨[], List.Pairwise.nil⟩

instance : EmptyCollection (SortedSet α) := ⟨empty⟩

instance : Inhabited (SortedSet α) := ⟨empty⟩

@[simp] theorem not_mem_empty (value : α) : value ∉ (∅ : SortedSet α) := List.not_mem_nil

/-- The number of members. -/
def size (set : SortedSet α) : Nat := set.toList.length

/-- Whether there is no member. -/
def isEmpty (set : SortedSet α) : Bool := set.toList.isEmpty

/-! ### Insertion -/

/-- Puts a value at its place in an ascending list, unless it is there already. -/
def insertInto (value : α) : List α → List α
  | [] => [value]
  | first :: rest =>
    if Before value first then value :: first :: rest
    else if Before first value then first :: insertInto value rest
    else first :: rest

theorem mem_insertInto {value other : α} {values : List α} :
    other ∈ insertInto value values ↔ other = value ∨ other ∈ values := by
  induction values with
  | nil => simp [insertInto]
  | cons first rest hyp =>
    simp only [insertInto]
    split
    · simp
    · next notBefore =>
      split
      · simp only [List.mem_cons, hyp]
        exact or_left_comm
      · next notAfter =>
        cases before_connected notBefore notAfter
        simp

theorem ascending_insertInto {value : α} {values : List α} (ascending : values.Pairwise Before) :
    (insertInto value values).Pairwise Before := by
  induction values with
  | nil => simp [insertInto]
  | cons first rest hyp =>
    obtain ⟨least, restAscending⟩ := List.pairwise_cons.mp ascending
    simp only [insertInto]
    split
    · next before =>
      refine List.pairwise_cons.mpr ⟨?_, ascending⟩
      intro other member
      rcases List.mem_cons.mp member with rfl | inRest
      · exact before
      · exact before_trans before (least other inRest)
    · split
      · next after =>
        refine List.pairwise_cons.mpr ⟨?_, hyp restAscending⟩
        intro other member
        rcases mem_insertInto.mp member with rfl | inRest
        · exact after
        · exact least other inRest
      · exact ascending

/-- The set with one more member, or the same set if the value is a member. -/
def insert (value : α) (set : SortedSet α) : SortedSet α :=
  ⟨insertInto value set.toList, ascending_insertInto set.ascending⟩

@[simp] theorem mem_insert {value other : α} {set : SortedSet α} :
    other ∈ set.insert value ↔ other = value ∨ other ∈ set := mem_insertInto

/-! ### One form for each set -/

/-- Two ascending lists with the same members are the same list. -/
theorem ascending_unique {first second : List α} (firstAscending : first.Pairwise Before)
    (secondAscending : second.Pairwise Before)
    (members : ∀ value, value ∈ first ↔ value ∈ second) : first = second := by
  induction first generalizing second with
  | nil =>
    cases second with
    | nil => rfl
    | cons head tail => exact absurd ((members head).mpr List.mem_cons_self) List.not_mem_nil
  | cons head tail hyp =>
    cases second with
    | nil => exact absurd ((members head).mp List.mem_cons_self) List.not_mem_nil
    | cons other rest =>
      obtain ⟨headLeast, tailAscending⟩ := List.pairwise_cons.mp firstAscending
      obtain ⟨otherLeast, restAscending⟩ := List.pairwise_cons.mp secondAscending
      have same : head = other := by
        rcases List.mem_cons.mp ((members head).mp List.mem_cons_self) with equal | inRest
        · exact equal
        · rcases List.mem_cons.mp ((members other).mpr List.mem_cons_self) with equal | inTail
          · exact equal.symm
          · exact absurd (before_trans (otherLeast head inRest) (headLeast other inTail))
              (before_irrefl other)
      subst same
      refine congrArg (head :: ·) (hyp tailAscending restAscending fun value => ?_)
      constructor
      · intro inTail
        rcases List.mem_cons.mp ((members value).mp (List.mem_cons_of_mem _ inTail)) with rfl | inRest
        · exact absurd (headLeast value inTail) (before_irrefl value)
        · exact inRest
      · intro inRest
        rcases List.mem_cons.mp ((members value).mpr (List.mem_cons_of_mem _ inRest)) with rfl | inTail
        · exact absurd (otherLeast value inRest) (before_irrefl value)
        · exact inTail

/-- A set is determined by its members. -/
theorem ext_mem {first second : SortedSet α} (members : ∀ value, value ∈ first ↔ value ∈ second) :
    first = second := by
  cases first
  cases second
  congr
  exact ascending_unique ‹_› ‹_› members

/-- A known member is not added again. -/
theorem insert_of_mem {value : α} {set : SortedSet α} (known : value ∈ set) :
    set.insert value = set :=
  ext_mem fun _ => mem_insert.trans (or_iff_right_of_imp fun equal => equal ▸ known)

/-- No member is listed twice. -/
theorem nodup_toList (set : SortedSet α) : set.toList.Nodup :=
  set.ascending.imp fun {first second} before (same : first = second) =>
    before_irrefl second (same ▸ before)

theorem size_insert {value : α} {set : SortedSet α} (fresh : value ∉ set) :
    (set.insert value).size = set.size + 1 := by
  have grown (values : List α) (absent : value ∉ values) :
      (insertInto value values).length = values.length + 1 := by
    induction values with
    | nil => rfl
    | cons first rest hyp =>
      simp only [insertInto]
      split
      · rfl
      · next notBefore =>
        split
        · simp [hyp fun member => absent (List.mem_cons_of_mem _ member)]
        · next notAfter =>
          cases before_connected notBefore notAfter
          exact absurd List.mem_cons_self absent
  exact grown set.toList fresh

/-! ### Selection and collection -/

/-- The members that pass a test. -/
def filter (test : α → Bool) (set : SortedSet α) : SortedSet α :=
  ⟨set.toList.filter test, set.ascending.filter test⟩

@[simp] theorem mem_filter {test : α → Bool} {set : SortedSet α} {value : α} :
    value ∈ set.filter test ↔ value ∈ set ∧ test value = true := List.mem_filter

/-- The second components that a set of pairs has for a first component. -/
theorem mem_filterMap_fst [DecidableEq α] {set : SortedSet (α × β)} {first : α} {second : β} :
    second ∈ (set.toList.filterMap fun pair => if pair.1 = first then some pair.2 else none) ↔
      (first, second) ∈ set := by
  simp only [List.mem_filterMap, mem_toList, Prod.exists, Option.ite_none_right_eq_some,
    Option.some.injEq]
  constructor
  · rintro ⟨_, _, member, rfl, rfl⟩
    exact member
  · exact fun member => ⟨first, second, member, rfl, rfl⟩

/-- Inserting the values of a list adds these values and nothing else. -/
theorem mem_foldl_insert {values : List α} {set : SortedSet α} {value : α} :
    value ∈ values.foldl (fun set value => set.insert value) set ↔ value ∈ set ∨ value ∈ values := by
  induction values generalizing set with
  | nil => simp
  | cons first rest hyp =>
    simp only [List.foldl_cons, hyp, mem_insert, List.mem_cons, or_comm, or_assoc, or_left_comm]

/-- Each new value of a list adds one to the size. -/
theorem size_foldl_insert {values : List α} {set : SortedSet α} (distinct : values.Nodup)
    (fresh : ∀ value ∈ values, value ∉ set) :
    (values.foldl (fun set value => set.insert value) set).size = set.size + values.length := by
  induction values generalizing set with
  | nil => rfl
  | cons first rest hyp =>
    obtain ⟨once, restDistinct⟩ := List.nodup_cons.mp distinct
    have restFresh : ∀ value ∈ rest, value ∉ set.insert first := by
      intro value member present
      rcases mem_insert.mp present with rfl | old
      · exact once member
      · exact fresh value (List.mem_cons_of_mem _ member) old
    rw [List.foldl_cons, hyp restDistinct restFresh, size_insert (fresh first List.mem_cons_self),
      List.length_cons, Nat.add_assoc, Nat.add_comm 1]

/-- The set of the values of a list. -/
def ofList (values : List α) : SortedSet α := values.foldl (fun set value => set.insert value) ∅

@[simp] theorem mem_ofList {values : List α} {value : α} : value ∈ ofList values ↔ value ∈ values := by
  simp [ofList, mem_foldl_insert]

/-- The result for the first member, in ascending order, that has one. -/
theorem findSome?_toList_eq_some {γ : Type} {find : α → Option γ} {set : SortedSet α} {result : γ}
    (found : set.toList.findSome? find = some result) :
    ∃ first ∈ set, find first = some result ∧
      ∀ other ∈ set, find other ≠ none → other = first ∨ Before first other := by
  obtain ⟨earlier, first, later, split, here, nothing⟩ := List.findSome?_eq_some_iff.mp found
  have ascending := set.ascending
  rw [split, List.pairwise_append, List.pairwise_cons] at ascending
  refine ⟨first, ?_, here, fun other member something => ?_⟩
  · rw [← mem_toList, split]
    exact List.mem_append_right _ List.mem_cons_self
  · rw [← mem_toList, split] at member
    rcases List.mem_append.mp member with before | after
    · exact absurd (nothing other before) something
    · exact (List.mem_cons.mp after).imp_right (ascending.2.1.1 other)

end SortedSet

end CallFlow
