/-
**The subtype tables.**

Whatever shape the edges have, the subtype test says what can be reached, and the two lists of subtypes
are what the test selects. The rows of concrete subtypes are the supertypes turned round: a class is
entered into a row when it is the turn of the class, so every row ascends.

* `Hierarchy.getElem?_subtypeRows`: the rows are the lists of concrete subtypes.
* `Hierarchy.subtypes_exact`: the subtype test and the lists of subtypes of a program in range.
-/

import CallFlow.Hierarchy.Subtypes
import CallFlow.Proofs.Hierarchy.Supertypes
import CallFlow.Proofs.Program.Edits

namespace CallFlow

namespace Program

variable {program : Program}

/-- Shapes extend themselves and round shapes extend them twice; bases and circles are superclasses of
each other, and circles are shapes in two ways. -/
def tangled : Program where
  classes := #[
    { name := "Shape", isInterface := true, interfaces := [⟨0⟩] },
    { name := "Round", isInterface := true, interfaces := [⟨0⟩, ⟨0⟩] },
    { name := "Base", isAbstract := true, superclass := some ⟨3⟩, interfaces := [⟨0⟩] },
    { name := "Circle", superclass := some ⟨2⟩, interfaces := [⟨1⟩] },
    { name := "Square", superclass := some ⟨2⟩ }]

theorem isConcrete_iff {id : ClassId} : program.isConcrete id = true ↔ ∃ info,
    program.class? id = some info ∧ info.isAbstract = false ∧ info.isInterface = false := by
  unfold isConcrete Class.isConcrete
  simp [Option.any_eq_true]

end Program

namespace Hierarchy

variable {hierarchy : Hierarchy}

/-! ### The rows of concrete subtypes -/

/-- A change of the rows of some classes, each once, changes the row of a class if it is one of them. -/
theorem getElem?_foldl_modify {ids : List ClassId} (distinct : ids.Nodup)
    {rows : Array (List ClassId)} {change : List ClassId → List ClassId} {upper : ClassId} :
    (ids.foldl (fun rows id => rows.modify id.index change) rows)[upper.index]? =
      (rows[upper.index]?).map fun row => if upper ∈ ids then change row else row := by
  induction ids generalizing rows with
  | nil => simp
  | cons first others hyp =>
    obtain ⟨apart, distinct⟩ := List.nodup_cons.mp distinct
    have injective : Function.Injective ClassId.index := fun _ _ => congrArg ClassId.mk
    rw [List.foldl_cons, hyp distinct, getElem?_modify_of_injective injective, Option.map_map]
    refine congrArg (fun look => (rows[upper.index]?).map look) (funext fun row => ?_)
    by_cases same : upper = first
    · subst same
      simp [apart]
    · simp [same]

/-- A class is entered last into the rows of its supertypes, and into no other row. -/
theorem getElem?_enterSubtype {rows : Array (List ClassId)} {lower upper : ClassId} :
    (hierarchy.enterSubtype rows lower)[upper.index]? = (rows[upper.index]?).map fun row =>
      if hierarchy.isSubtype lower upper then row ++ [lower] else row := by
  unfold enterSubtype
  rw [getElem?_foldl_modify (hierarchy.supertypes lower).nodup_toList]
  simp [isSubtype]

/-- Classes are entered into a row in their order. -/
theorem getElem?_foldl_enterSubtype {lowers : List ClassId} {rows : Array (List ClassId)}
    {upper : ClassId} : (lowers.foldl hierarchy.enterSubtype rows)[upper.index]? =
      (rows[upper.index]?).map fun row =>
        row ++ lowers.filter fun lower => hierarchy.isSubtype lower upper := by
  induction lowers generalizing rows with
  | nil => simp
  | cons lower lowers hyp =>
    rw [List.foldl_cons, hyp, getElem?_enterSubtype, Option.map_map]
    refine congrArg (fun look => (rows[upper.index]?).map look) (funext fun row => ?_)
    by_cases below : hierarchy.isSubtype lower upper = true <;> simp [below]

/-- **The rows are the lists of concrete subtypes.** -/
theorem getElem?_subtypeRows {upper : ClassId}
    (isClass : (hierarchy.program.class? upper).isSome = true) :
    hierarchy.subtypeRows[upper.index]? = some (hierarchy.concreteSubtypes upper) := by
  have inside : upper.index < hierarchy.program.classes.size := by
    unfold Program.class? at isClass
    rw [isSome_getElem?] at isClass
    exact isClass
  unfold subtypeRows concreteSubtypes subtypes
  rw [getElem?_foldl_enterSubtype, Array.getElem?_replicate, if_pos inside, List.filter_comm]
  rfl

/-! ### Subtypes -/

theorem subtypes_ascend (upper : ClassId) :
    (hierarchy.subtypes upper).Pairwise fun first second => first.index < second.index :=
  hierarchy.program.classIds_ascend.filter _

theorem mem_subtypes {lower upper : ClassId} : lower ∈ hierarchy.subtypes upper ↔
    (hierarchy.program.class? lower).isSome = true ∧ Program.Below hierarchy.program lower upper := by
  unfold subtypes
  rw [List.mem_filter, Program.mem_classIds]
  exact and_congr_right fun isClass => isSubtype_iff isClass

/-- **The subtype tables of a program in range**, whatever shape its edges have. A class is a subtype of
another one if zero or more edges lead from one to the other, which is reflexive and transitive. The
subtypes of a class are listed ascending, each once, and so are the concrete ones, in their rows. -/
theorem subtypes_exact {program : Program} (inRange : program.EdgesInRange) :
    ∃ hierarchy, of? program = some hierarchy ∧
      (∀ lower upper, (program.class? lower).isSome = true →
        (hierarchy.isSubtype lower upper = true ↔ Program.Below program lower upper)) ∧
      (∀ id, (program.class? id).isSome = true → hierarchy.isSubtype id id = true) ∧
      (∀ lower middle upper, (program.class? lower).isSome = true →
        hierarchy.isSubtype lower middle = true → hierarchy.isSubtype middle upper = true →
        hierarchy.isSubtype lower upper = true) ∧
      (∀ upper, (hierarchy.subtypes upper).Pairwise (fun first second => first.index < second.index) ∧
        ∀ lower, lower ∈ hierarchy.subtypes upper ↔
          (program.class? lower).isSome = true ∧ Program.Below program lower upper) ∧
      (∀ upper, (hierarchy.concreteSubtypes upper).Pairwise
          (fun first second => first.index < second.index) ∧
        ∀ lower, lower ∈ hierarchy.concreteSubtypes upper ↔
          (∃ info, program.class? lower = some info ∧ info.isAbstract = false ∧
            info.isInterface = false) ∧ Program.Below program lower upper) ∧
      ∀ upper, (program.class? upper).isSome = true →
        hierarchy.subtypeRows[upper.index]? = some (hierarchy.concreteSubtypes upper) := by
  obtain ⟨hierarchy, found⟩ := exists_of? inRange
  obtain rfl := program_of? found
  refine ⟨hierarchy, found, fun lower upper isClass => isSubtype_iff isClass,
    fun id isClass => (isSubtype_iff isClass).mpr (.refl id),
    fun lower middle upper isClass first second => ?_,
    fun upper => ⟨subtypes_ascend upper, fun lower => mem_subtypes⟩,
    fun upper => ⟨(subtypes_ascend upper).filter _, fun lower => ?_⟩,
    fun upper isClass => getElem?_subtypeRows isClass⟩
  · have below := (isSubtype_iff isClass).mp first
    have rest := (isSubtype_iff (below.isClass inRange isClass)).mp second
    exact (isSubtype_iff isClass).mpr (below.trans rest)
  · rw [mem_concreteSubtypes, Program.isConcrete_iff]

/-- Squares are round through the superclass of their superclass, and circles are among the concrete
round shapes though they are their own subtypes around a cycle. -/
theorem subtypes_exact_tangled : Program.tangled.EdgesInRange ∧
    ∃ hierarchy, of? .tangled = some hierarchy ∧ hierarchy.isSubtype ⟨4⟩ ⟨1⟩ = true ∧
      ⟨2⟩ ∈ hierarchy.subtypes ⟨1⟩ ∧ ⟨2⟩ ∉ hierarchy.concreteSubtypes ⟨1⟩ ∧
      ⟨3⟩ ∈ hierarchy.concreteSubtypes ⟨1⟩ := by
  have inRange : Program.tangled.EdgesInRange := by decide
  obtain ⟨hierarchy, found, test, -, -, subtypes, concrete, -⟩ := subtypes_exact inRange
  have circle : Program.Below .tangled ⟨3⟩ ⟨1⟩ := .step (by decide) (.refl _)
  have base : Program.Below .tangled ⟨2⟩ ⟨1⟩ := .step (by decide) circle
  refine ⟨inRange, hierarchy, found, (test _ _ rfl).mpr (.step (by decide) base),
    ((subtypes ⟨1⟩).2 _).mpr ⟨rfl, base⟩, fun among => ?_,
    ((concrete ⟨1⟩).2 _).mpr ⟨⟨_, rfl, rfl, rfl⟩, circle⟩⟩
  obtain ⟨⟨info, isClass, concrete, -⟩, -⟩ := ((concrete ⟨1⟩).2 _).mp among
  cases isClass
  cases concrete

end Hierarchy

end CallFlow
