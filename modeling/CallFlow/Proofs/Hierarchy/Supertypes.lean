/-
**The search for supertypes is exact.**

A class is put on the queue when it is seen for the first time, so the search takes no more classes
off the queue than there are. When the queue is empty, every edge from a class that has been seen
leads to a class that has been seen. Edges may form any shape.

* `Program.below_of_mem_search`: what the search finds can be reached.
* `Program.SearchBound`: what the search keeps, so that its steps are enough.
* `Program.search_closed`: with enough steps the search follows every edge of what it finds.
* `Program.mem_supertypesOf`: the supertypes are the classes that can be reached.
* `Hierarchy.isSubtype_iff`: the subtype test agrees with the relation.
-/

import CallFlow.Proofs.Program.InRange

namespace CallFlow

namespace Program

variable {program : Program}

theorem Below.trans {lower middle upper : ClassId} (first : Below program lower middle)
    (second : Below program middle upper) : Below program lower upper := by
  induction first with
  | refl id => exact second
  | step edge rest hyp => exact .step edge (hyp second)

/-- A class below another one is below the direct supertypes of that one. -/
theorem Below.tail {lower middle upper : ClassId} (first : Below program lower middle)
    (edge : upper ∈ program.directSupertypes middle) : Below program lower upper :=
  first.trans (.step edge (.refl upper))

/-- If the edges are in range, the classes above a class of the program are classes of the program. -/
theorem Below.isClass (inRange : program.EdgesInRange) {lower upper : ClassId}
    (below : Below program lower upper) (isClass : (program.class? lower).isSome = true) :
    (program.class? upper).isSome = true := by
  induction below with
  | refl => exact isClass
  | step edge rest hyp => exact hyp (inRange.isClass isClass edge)

/-! ### One step of the search -/

/-- The direct supertypes of a class that have not been seen. -/
def unseen (program : Program) (id : ClassId) (seen : SortedSet ClassId) : SortedSet ClassId :=
  (SortedSet.ofList (program.directSupertypes id)).filter fun next => next ∉ seen

/-- The classes seen after a class has been looked at. -/
def seenAfter (program : Program) (id : ClassId) (seen : SortedSet ClassId) : SortedSet ClassId :=
  (program.unseen id seen).toList.foldl (fun set next => set.insert next) seen

theorem search_succ_cons (steps : Nat) (id : ClassId) (queue : List ClassId)
    (seen : SortedSet ClassId) : program.search (steps + 1) (id :: queue) seen =
      program.search steps (queue ++ (program.unseen id seen).toList) (program.seenAfter id seen) :=
  rfl

theorem mem_unseen {id next : ClassId} {seen : SortedSet ClassId} :
    next ∈ program.unseen id seen ↔ next ∈ program.directSupertypes id ∧ next ∉ seen := by
  simp [unseen]

theorem mem_seenAfter {id next : ClassId} {seen : SortedSet ClassId} :
    next ∈ program.seenAfter id seen ↔ next ∈ seen ∨ next ∈ program.directSupertypes id := by
  unfold seenAfter
  rw [SortedSet.mem_foldl_insert, SortedSet.mem_toList, mem_unseen]
  by_cases present : next ∈ seen <;> simp [present]

theorem size_seenAfter (id : ClassId) (seen : SortedSet ClassId) :
    (program.seenAfter id seen).size = seen.size + (program.unseen id seen).toList.length :=
  SortedSet.size_foldl_insert (program.unseen id seen).nodup_toList fun _ member =>
    (mem_unseen.mp member).2

/-! ### The whole search -/

/-- **What the search finds can be reached**, if what it starts with can. -/
theorem below_of_mem_search {start : ClassId} {steps : Nat} {queue : List ClassId}
    {seen : SortedSet ClassId} (queued : ∀ id ∈ queue, Below program start id)
    (known : ∀ id ∈ seen, Below program start id) {upper : ClassId}
    (found : upper ∈ program.search steps queue seen) : Below program start upper := by
  induction steps generalizing queue seen with
  | zero => exact known upper found
  | succ steps hyp =>
    cases queue with
    | nil => exact known upper found
    | cons id queue =>
      rw [search_succ_cons] at found
      have first := queued id List.mem_cons_self
      refine hyp (fun next member => ?_) (fun next member => ?_) found
      · rcases List.mem_append.mp member with old | new
        · exact queued next (List.mem_cons_of_mem _ old)
        · exact first.tail (mem_unseen.mp new).1
      · rcases mem_seenAfter.mp member with old | new
        · exact known next old
        · exact first.tail new

/-- What the search keeps: only classes of the program have been seen, what is queued has been seen, and
the classes not yet seen and those queued do not outnumber the steps. -/
structure SearchBound (program : Program) (steps : Nat) (queue : List ClassId)
    (seen : SortedSet ClassId) : Prop where
  known : ∀ id ∈ seen, id ∈ program.classIds
  queued : ∀ id ∈ queue, id ∈ seen
  enough : program.classes.size + queue.length ≤ steps + seen.size

namespace SearchBound

theorem initial {id : ClassId} (isClass : id ∈ program.classIds) {steps : Nat}
    (enough : program.classes.size ≤ steps) :
    program.SearchBound steps [id] (SortedSet.empty.insert id) where
  known other member := by
    rw [(SortedSet.mem_insert.mp member).resolve_right (SortedSet.not_mem_empty other)]
    exact isClass
  queued other member := SortedSet.mem_insert.mpr (.inl (List.mem_singleton.mp member))
  enough := Nat.add_le_add_right enough 1

/-- One step takes a class off the queue, and every class that it adds is a new one. -/
theorem next (inRange : program.EdgesInRange) {steps : Nat} {first : ClassId} {queue : List ClassId}
    {seen : SortedSet ClassId} (bound : program.SearchBound (steps + 1) (first :: queue) seen) :
    program.SearchBound steps (queue ++ (program.unseen first seen).toList)
      (program.seenAfter first seen) where
  known id member := by
    have isClass := bound.known first (bound.queued first List.mem_cons_self)
    rcases mem_seenAfter.mp member with old | new
    · exact bound.known id old
    · exact List.mem_map.mpr ⟨id.index, List.mem_range.mpr (inRange first isClass id new), rfl⟩
  queued id member := by
    refine mem_seenAfter.mpr ?_
    rcases List.mem_append.mp member with old | new
    · exact .inl (bound.queued id (List.mem_cons_of_mem _ old))
    · exact .inr (mem_unseen.mp new).1
  enough := by
    have enough := bound.enough
    rw [List.length_cons] at enough
    rw [size_seenAfter, List.length_append]
    omega

/-- When the steps are used up the queue is empty. -/
theorem queue_eq_nil {queue : List ClassId} {seen : SortedSet ClassId}
    (bound : program.SearchBound 0 queue seen) : queue = [] := by
  have fewer : seen.size ≤ program.classIds.length :=
    seen.nodup_toList.length_le_of_subset bound.known
  have enough := bound.enough
  rw [length_classIds] at fewer
  exact List.eq_nil_of_length_eq_zero (by omega)

end SearchBound

/-- **With enough steps the search follows every edge** of what it finds: a class that has been seen
is still queued or all its edges have been followed. -/
theorem search_closed (inRange : program.EdgesInRange) {steps : Nat} {queue : List ClassId}
    {seen : SortedSet ClassId} (bound : program.SearchBound steps queue seen)
    (followed : ∀ id ∈ seen, id ∈ queue ∨ ∀ next ∈ program.directSupertypes id, next ∈ seen) :
    (∀ id ∈ seen, id ∈ program.search steps queue seen) ∧
      ∀ id ∈ program.search steps queue seen, ∀ next ∈ program.directSupertypes id,
        next ∈ program.search steps queue seen := by
  induction steps generalizing queue seen with
  | zero =>
    obtain rfl := bound.queue_eq_nil
    exact ⟨fun _ => id, fun id member => (followed id member).resolve_left List.not_mem_nil⟩
  | succ steps hyp =>
    cases queue with
    | nil =>
      exact ⟨fun _ => id, fun id member => (followed id member).resolve_left List.not_mem_nil⟩
    | cons first queue =>
      rw [search_succ_cons]
      obtain ⟨kept, closed⟩ := hyp (bound.next inRange) fun id member => by
        by_cases present : id ∈ seen
        · rcases followed id present with waiting | done
          · rcases List.mem_cons.mp waiting with rfl | later
            · exact .inr fun next edge => mem_seenAfter.mpr (.inr edge)
            · exact .inl (List.mem_append_left _ later)
          · exact .inr fun next edge => mem_seenAfter.mpr (.inl (done next edge))
        · have edge := (mem_seenAfter.mp member).resolve_left present
          exact .inl (List.mem_append_right _ (mem_unseen.mpr ⟨edge, present⟩))
      exact ⟨fun id member => kept id (mem_seenAfter.mpr (.inl member)), closed⟩

/-- **The supertypes of a class are the classes that can be reached from it.** -/
theorem mem_supertypesOf (inRange : program.EdgesInRange) {id upper : ClassId}
    (isClass : id ∈ program.classIds) :
    upper ∈ program.supertypesOf id ↔ Below program id upper := by
  have single {other : ClassId} : other ∈ (SortedSet.empty.insert id : SortedSet ClassId) ↔
      other = id := by
    rw [SortedSet.mem_insert]
    exact or_iff_left (SortedSet.not_mem_empty other)
  constructor
  · refine below_of_mem_search (fun other member => ?_) (fun other member => ?_)
    · rw [List.mem_singleton.mp member]
      exact .refl id
    · rw [single.mp member]
      exact .refl id
  · intro below
    obtain ⟨kept, closed⟩ := search_closed inRange (.initial isClass (Nat.le_refl _))
      fun other member => .inl (List.mem_singleton.mpr (single.mp member))
    have reached {lower upper : ClassId} (below : Below program lower upper)
        (start : lower ∈ program.supertypesOf id) : upper ∈ program.supertypesOf id := by
      induction below with
      | refl => exact start
      | step edge rest hyp => exact hyp (closed _ start _ edge)
    exact reached below (kept id (single.mpr rfl))

end Program

namespace Hierarchy

variable {hierarchy : Hierarchy} {id upper : ClassId}

theorem mem_supertypes (isClass : (hierarchy.program.class? id).isSome = true) :
    upper ∈ hierarchy.supertypes id ↔ Program.Below hierarchy.program id upper := by
  have known := hierarchy.program.mem_classIds.mpr isClass
  have inTable : id.index < hierarchy.program.classes.size := by
    unfold Program.class? at isClass
    rw [isSome_getElem?] at isClass
    exact isClass
  rw [hierarchy.supertypes_eq inTable]
  exact Program.mem_supertypesOf hierarchy.edgesInRange known

/-- **The subtype test agrees with the relation.** -/
theorem isSubtype_iff (isClass : (hierarchy.program.class? id).isSome = true) :
    hierarchy.isSubtype id upper = true ↔ Program.Below hierarchy.program id upper := by
  unfold isSubtype
  rw [decide_eq_true_iff]
  exact mem_supertypes isClass

/-- The concrete subtypes of a class are the concrete classes below it. -/
theorem mem_concreteSubtypes : id ∈ hierarchy.concreteSubtypes upper ↔
    hierarchy.program.isConcrete id = true ∧ Program.Below hierarchy.program id upper := by
  unfold concreteSubtypes subtypes
  rw [List.mem_filter, List.mem_filter, Program.mem_classIds]
  constructor
  · rintro ⟨⟨isClass, subtype⟩, concrete⟩
    exact ⟨concrete, (isSubtype_iff isClass).mp subtype⟩
  · rintro ⟨concrete, below⟩
    have isClass := hierarchy.program.isClass_of_isConcrete concrete
    exact ⟨⟨isClass, (isSubtype_iff isClass).mpr below⟩, concrete⟩

end Hierarchy

end CallFlow
