/-
**Guarded questions about the hierarchy of a program in range.**

The edges of a program in range lead to classes of the program, and its classes list methods of the
program; so do walks up the edges, and so do the declarations that are found. No guard stops a question
about a class of the program.

* `Guarded.table_eq`: the table of supertypes can be made.
* `Guarded.dispatch_eq`, `Guarded.resolve_eq`, `Guarded.receivers_eq`: the questions about calls have the
  answers that they have without guards.
* `Guarded.resolve_ne`, `Guarded.ask_ne`: if they have none, the reason is not an identifier.
-/

import CallFlow.Guarded.Hierarchy
import CallFlow.Proofs.Guarded.Program
import CallFlow.Proofs.Hierarchy.Supertypes
import CallFlow.Proofs.Hierarchy.Walks

namespace CallFlow

namespace Guarded

/-! ### The table of supertypes -/

section Tables

variable {program : Program} (inRange : program.InRange)
include inRange

/-- **A search that starts at classes of the program stays there.** -/
theorem search_eq (steps : Nat) {queue : List ClassId} (seen : SortedSet ClassId)
    (classes : ∀ id ∈ queue, (program.class? id).isSome = true) :
    search program steps queue seen = .ok (program.search steps queue seen) := by
  induction steps generalizing queue seen with
  | zero => rfl
  | succ steps hyp =>
    cases queue with
    | nil => rfl
    | cons id rest =>
      obtain ⟨info, found⟩ := Option.isSome_iff_exists.mp (classes id List.mem_cons_self)
      have direct : program.directSupertypes id = info.directSupertypes := by
        unfold Program.directSupertypes
        rw [found]
        rfl
      unfold search Program.search
      rw [readClass_eq found, direct]
      refine hyp _ fun next member => ?_
      rcases List.mem_append.mp member with old | new
      · exact classes next (List.mem_cons_of_mem _ old)
      · have edge := SortedSet.mem_ofList.mp (SortedSet.mem_filter.mp new).1
        exact inRange.supertype found edge

theorem readDeclarations_eq {id : ClassId} (isClass : (program.class? id).isSome = true) :
    readDeclarations program id = .ok () := by
  obtain ⟨info, found⟩ := Option.isSome_iff_exists.mp isClass
  unfold readDeclarations
  rw [readClass_eq found]
  refine forM_eq_ok fun method listed => ?_
  obtain ⟨method, isMethod⟩ := Option.isSome_iff_exists.mp (inRange.listed found listed)
  rw [readMethod_eq isMethod]
  rfl

end Tables

section Hierarchies

variable {hierarchy : Hierarchy}

/-- The table has a row for each class of the program. -/
theorem supertypes_eq {id : ClassId} (isClass : (hierarchy.program.class? id).isSome = true) :
    supertypes hierarchy id = .ok (hierarchy.supertypes id) := by
  have inTable : id.index < hierarchy.table.size := by
    unfold Program.class? at isClass
    rw [isSome_getElem?] at isClass
    rw [hierarchy.table_eq]
    simpa [Program.classIds] using isClass
  unfold supertypes Hierarchy.supertypes
  rw [Array.getElem?_eq_getElem inTable]
  rfl

theorem isSubtype_eq {lower : ClassId} (isClass : (hierarchy.program.class? lower).isSome = true)
    (upper : ClassId) : isSubtype hierarchy lower upper = .ok (hierarchy.isSubtype lower upper) := by
  unfold isSubtype
  rw [supertypes_eq isClass]
  rfl

/-- **A call names the same declaration**, if the walk ends. -/
theorem resolve_eq {target : Target} (isClass : (hierarchy.program.class? target.owner).isSome = true) :
    resolve hierarchy target = hierarchy.resolve target := by
  unfold resolve Hierarchy.resolve
  cases nearest : hierarchy.nearest target.owner target.member with
  | error fault => rfl
  | ok found =>
    cases found with
    | none =>
      show (supertypes hierarchy target.owner >>= _) = _
      rw [supertypes_eq isClass]
      rfl
    | some method => rfl

theorem defaultIn_eq (member : MemberId) {above : ClassId}
    (isClass : (hierarchy.program.class? above).isSome = true) :
    defaultIn hierarchy member above =
      .ok (if (hierarchy.program.class? above).any Class.isInterface then
        (hierarchy.program.declared? above member).filter fun method =>
          !hierarchy.program.isAbstract method
      else none) := by
  obtain ⟨info, found⟩ := Option.isSome_iff_exists.mp isClass
  unfold defaultIn
  rw [readClass_eq found, found, Option.any_some, ok_bind]
  cases info.isInterface with
  | false => rfl
  | true =>
    cases declared : hierarchy.program.declared? above member with
    | none => rfl
    | some method =>
      show (isAbstract hierarchy.program method >>= _) = _
      rw [isAbstract_eq (Program.isMethod_of_declared declared), if_pos rfl, Option.filter_some]
      cases hierarchy.program.isAbstract method <;> rfl

variable (inRange : hierarchy.program.InRange)
include inRange

theorem enterSubtype_eq {id : ClassId} (isClass : (hierarchy.program.class? id).isSome = true) :
    enterSubtype hierarchy.program hierarchy.table id = .ok () := by
  obtain ⟨info, found⟩ := Option.isSome_iff_exists.mp isClass
  have above : fetch hierarchy.table[id.index]? = .ok (hierarchy.supertypes id) :=
    supertypes_eq isClass
  unfold enterSubtype
  rw [readClass_eq found]
  show (if _ then _ else _) = _
  split
  · rw [above]
    refine forM_eq_ok fun upper member => ?_
    have below := (Hierarchy.mem_supertypes isClass).mp member
    obtain ⟨info, isClass⟩ := Option.isSome_iff_exists.mp (below.isClass inRange.edgesInRange isClass)
    rw [readClass_eq isClass]
    rfl
  · rfl

/-- **The table of supertypes can be made.** -/
theorem table_eq : table hierarchy.program = .ok hierarchy.table := by
  have isClass {id : ClassId} (member : id ∈ hierarchy.program.classIds) :
      (hierarchy.program.class? id).isSome = true := hierarchy.program.mem_classIds.mp member
  have rows : hierarchy.program.classIds.mapM (fun id => search hierarchy.program
      hierarchy.program.classes.size [id] (SortedSet.empty.insert id)) =
      .ok (hierarchy.program.classIds.map hierarchy.program.supertypesOf) := by
    refine mapM_eq_ok fun id member => search_eq inRange _ _ fun other single => ?_
    rw [List.mem_singleton.mp single]
    exact isClass member
  unfold table
  rw [forM_eq_ok fun id member => readDeclarations_eq inRange (isClass member), rows]
  show (hierarchy.program.classIds.forM (enterSubtype hierarchy.program _) >>= _) = _
  rw [← hierarchy.table_eq, forM_eq_ok fun id member => enterSubtype_eq inRange (isClass member)]
  rfl

/-! ### Calls -/

theorem defaultMethod_eq {id : ClassId} (isClass : (hierarchy.program.class? id).isSome = true)
    (member : MemberId) :
    defaultMethod hierarchy id member = .ok (hierarchy.defaultMethod id member) := by
  unfold defaultMethod
  rw [supertypes_eq isClass]
  refine findSomeM?_eq_ok fun above listed => ?_
  have below := (Hierarchy.mem_supertypes isClass).mp listed
  exact defaultIn_eq member (below.isClass inRange.edgesInRange isClass)

/-- **A call on a receiver of a class of the program** runs the same method, if the walk ends. -/
theorem dispatch_eq {id : ClassId} (isClass : (hierarchy.program.class? id).isSome = true)
    (member : MemberId) : dispatch hierarchy id member = hierarchy.dispatch id member := by
  unfold dispatch Hierarchy.dispatch
  cases nearest : hierarchy.nearest id member with
  | error fault => rfl
  | ok found =>
    cases found with
    | none => exact defaultMethod_eq inRange isClass member
    | some method =>
      show (isAbstract hierarchy.program method >>= _) = _
      rw [isAbstract_eq (Hierarchy.isMethod_of_nearest nearest)]
      rfl

/-- **A virtual target has the same receivers**, if the walks end. -/
theorem receivers_eq {target : Target}
    (isClass : (hierarchy.program.class? target.owner).isSome = true) :
    receivers hierarchy target = hierarchy.receivers target := by
  obtain ⟨info, found⟩ := Option.isSome_iff_exists.mp isClass
  have each : ∀ id ∈ hierarchy.concreteSubtypes target.owner,
      (do let method ← dispatch hierarchy id target.member
          pure (method.map fun method => (id, method))) =
        (hierarchy.dispatch id target.member).map fun method =>
          method.map fun method => (id, method) := by
    intro id member
    have subtype := (List.mem_filter.mp (List.mem_filter.mp member).1).1
    rw [dispatch_eq inRange (hierarchy.program.mem_classIds.mp subtype)]
    cases hierarchy.dispatch id target.member <;> rfl
  unfold receivers Hierarchy.receivers
  rw [readClass_eq found, found, mapM_congr each]
  rfl

theorem ask_eq (cache : TargetCache) {target : Target}
    (isClass : (hierarchy.program.class? target.owner).isSome = true) :
    ask hierarchy cache target = cache.ask hierarchy target := by
  unfold ask TargetCache.ask
  cases cache.known.lookup target with
  | some receivers => rfl
  | none =>
    simp only [receivers_eq inRange isClass]
    cases hierarchy.receivers target <;> rfl

/-! ### Faults -/

/-- A walk for a declaration does not lead out of the tables. -/
theorem nearest_ne {id : ClassId} (isClass : (hierarchy.program.class? id).isSome = true)
    (member : MemberId) : hierarchy.nearest id member ≠ .error .outOfRange :=
  inRange.ascendWithin_ne _ isClass _

theorem resolve_ne {target : Target}
    (isClass : (hierarchy.program.class? target.owner).isSome = true) :
    hierarchy.resolve target ≠ .error .outOfRange :=
  map_ne_error (nearest_ne inRange isClass target.member)

theorem receivers_ne {target : Target}
    (isClass : (hierarchy.program.class? target.owner).isSome = true) :
    hierarchy.receivers target ≠ .error .outOfRange := by
  obtain ⟨info, found⟩ := Option.isSome_iff_exists.mp isClass
  have reached : (hierarchy.concreteSubtypes target.owner).mapM (fun id =>
      (hierarchy.dispatch id target.member).map fun method =>
        method.map fun method => (id, method)) ≠ .error .outOfRange := by
    refine mapM_ne_error fun id member => map_ne_error (map_ne_error (nearest_ne inRange ?_ _))
    have subtype := (List.mem_filter.mp (List.mem_filter.mp member).1).1
    exact hierarchy.program.mem_classIds.mp subtype
  unfold Hierarchy.receivers
  rw [found]
  exact map_ne_error reached

/-- **Asking for receivers does not lead out of the tables.** -/
theorem ask_ne (cache : TargetCache) {target : Target}
    (isClass : (hierarchy.program.class? target.owner).isSome = true) :
    cache.ask hierarchy target ≠ .error .outOfRange := by
  unfold TargetCache.ask
  split
  · nofun
  · exact map_ne_error (receivers_ne inRange isClass)

end Hierarchies

end Guarded

end CallFlow
