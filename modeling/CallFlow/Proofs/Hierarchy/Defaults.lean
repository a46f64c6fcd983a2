/-
**Which default method is chosen.**

Where no class on the superclass chain declares a member, interfaces are asked in the order of their
identifiers. This order knows nothing of which interface extends which, so a default method can be
chosen over one that overrides it. A call that names a class instead of a receiver asks all
supertypes in the same order, and abstract declarations count for it.

* `Program.GivesDefault`: an interface whose declaration of a member is not abstract.
* `Program.FirstDefault`, `Program.FirstAbove`: the first such interface above a class, and the first
  class above it that declares the member at all.
* `Hierarchy.dispatch_eq_firstDefault`: the default method that runs is that of the first such
  interface.
* `Hierarchy.resolve_of_dispatch`: naming the class of a receiver finds a declaration whenever the
  receiver reaches a method: the same one, unless that is a default method and a supertype with a
  smaller identifier declares the member.
-/

import CallFlow.Proofs.Hierarchy.Supertypes
import CallFlow.Proofs.Hierarchy.Walks

namespace CallFlow

/-- The order of class identifiers is the order of their numbers. -/
theorem ClassId.before_iff {first second : ClassId} :
    OrderKey.Before first second ↔ first.index < second.index := by
  show [first.index] < [second.index] ↔ first.index < second.index
  rw [List.cons_lt_cons_iff]
  exact or_iff_left fun same => List.not_lt_nil [] same.2

namespace Program

/-- A method is the default that an interface gives for a member: the declaration of the interface,
which is not abstract. -/
structure GivesDefault (program : Program) (owner : ClassId) (member : MemberId)
    (method : MethodId) : Prop where
  isInterface : (program.class? owner).any Class.isInterface = true
  declares : program.declared? owner member = some method
  concrete : program.isAbstract method = false

/-- The first interface above a class, by identifier, that gives a default method for a member. -/
structure FirstDefault (program : Program) (id : ClassId) (member : MemberId) (owner : ClassId)
    (method : MethodId) : Prop where
  below : Below program id owner
  gives : program.GivesDefault owner member method
  least : ∀ other default, other ≠ owner → Below program id other →
    program.GivesDefault other member default → owner.index < other.index

/-- The first class above a class, by identifier, that declares a member. -/
structure FirstAbove (program : Program) (id : ClassId) (member : MemberId) (first : ClassId) : Prop where
  below : Below program id first
  declares : program.declared? first member ≠ none
  least : ∀ other, other ≠ first → Below program id other → program.declared? other member ≠ none →
    first.index < other.index

/-- An interface before the first one with a default method has no declaration or an abstract one. -/
theorem FirstDefault.isAbstract {program : Program} {id owner earlier : ClassId} {member : MemberId}
    {method found : MethodId} (default : program.FirstDefault id member owner method)
    (below : Below program id earlier) (before : earlier.index < owner.index)
    (isInterface : (program.class? earlier).any Class.isInterface = true)
    (declared : program.declared? earlier member = some found) : program.isAbstract found = true := by
  by_contra concrete
  rw [Bool.not_eq_true] at concrete
  have other : earlier ≠ owner := by
    rintro rfl
    exact Nat.lt_irrefl _ before
  exact Nat.lt_asymm before
    (default.least earlier found other below ⟨isInterface, declared, concrete⟩)

/-- No class is reached again by following one or more edges from it. -/
def Acyclic (program : Program) : Prop :=
  ∀ lower middle, middle ∈ program.directSupertypes lower → ¬ Below program middle lower

/-- Edges that all lead to smaller identifiers form no cycle. -/
theorem acyclic_of_descending {program : Program}
    (descending : ∀ id ∈ program.classIds, ∀ next ∈ program.directSupertypes id,
      next.index < id.index) : program.Acyclic := by
  have edge {lower middle : ClassId} (edge : middle ∈ program.directSupertypes lower) :
      middle.index < lower.index := by
    refine descending lower (program.mem_classIds.mpr ?_) middle edge
    unfold directSupertypes at edge
    cases isClass : program.class? lower with
    | none => rw [isClass] at edge; cases edge
    | some info => rfl
  have notUp {lower upper : ClassId} (below : Below program lower upper) :
      upper.index ≤ lower.index := by
    induction below with
    | refl => exact Nat.le_refl _
    | step first rest hyp => exact Nat.le_trans hyp (Nat.le_of_lt (edge first))
  exact fun lower middle first again => Nat.not_lt.mpr (notUp again) (edge first)

/-- Round shapes give a default method for the name, which shapes have as well, and one for the
area, which is abstract in shapes. -/
def roundShapes : Program where
  classes := #[
    { name := "Shape", isInterface := true, methods := [⟨0⟩, ⟨1⟩] },
    { name := "Round", isInterface := true, interfaces := [⟨0⟩], methods := [⟨2⟩, ⟨3⟩] },
    { name := "Circle", interfaces := [⟨1⟩] }]
  methods := #[
    { owner := ⟨0⟩, name := "name", member := ⟨0⟩, params := [], result := none },
    { owner := ⟨0⟩, name := "area", member := ⟨1⟩, params := [], result := none,
      isAbstract := true },
    { owner := ⟨1⟩, name := "name", member := ⟨0⟩, params := [], result := none },
    { owner := ⟨1⟩, name := "area", member := ⟨1⟩, params := [], result := none }]
  members := #["name()", "area()"]

end Program

namespace Hierarchy

variable {hierarchy : Hierarchy} {id : ClassId} {member : MemberId} {method : MethodId}

/-- What the search for default methods accepts in a supertype. -/
theorem defaultIn_eq_some {above : ClassId} :
    (if (hierarchy.program.class? above).any Class.isInterface then
        (hierarchy.program.declared? above member).filter fun method =>
          !hierarchy.program.isAbstract method
      else none) = some method ↔ hierarchy.program.GivesDefault above member method := by
  rw [Option.ite_none_right_eq_some, Option.filter_eq_some_iff, Bool.not_eq_true']
  exact ⟨fun ⟨isInterface, declares, concrete⟩ => ⟨isInterface, declares, concrete⟩,
    fun gives => ⟨gives.isInterface, gives.declares, gives.concrete⟩⟩

/-- **The default method of a class is that of the first interface above it** to have one. -/
theorem exists_firstDefault (isClass : (hierarchy.program.class? id).isSome = true)
    (found : hierarchy.defaultMethod id member = some method) :
    ∃ owner, hierarchy.program.FirstDefault id member owner method := by
  obtain ⟨owner, above, accepted, first⟩ := SortedSet.findSome?_toList_eq_some found
  refine ⟨owner, (mem_supertypes isClass).mp above, defaultIn_eq_some.mp accepted,
    fun other default different below gives => ?_⟩
  rw [← ClassId.before_iff]
  refine (first other ((mem_supertypes isClass).mpr below) fun nothing => ?_).resolve_left different
  rw [defaultIn_eq_some.mpr gives] at nothing
  cases nothing

/-- A search that ends starts at a class of the program. -/
theorem isSome_class_of_nearest {found : Option MethodId}
    (ends : hierarchy.nearest id member = .ok found) :
    (hierarchy.program.class? id).isSome = true := by
  unfold nearest Program.ascend Program.ascendWithin at ends
  cases isClass : hierarchy.program.class? id with
  | none => rw [isClass] at ends; cases ends
  | some info => rfl

/-- A method that runs is not abstract, and is declared in a supertype of the receiver. -/
theorem exists_declared_of_dispatch (dispatched : hierarchy.dispatch id member = .ok (some method)) :
    hierarchy.program.isAbstract method = false ∧ ∃ owner, Program.Below hierarchy.program id owner ∧
      hierarchy.program.declared? owner member = some method := by
  rcases dispatch_eq_some.mp dispatched with ⟨nearest, concrete⟩ | ⟨nearest, default⟩
  · obtain ⟨owner, onChain, declared⟩ := exists_declared_of_nearest nearest
    exact ⟨concrete, owner, Program.below_of_onChain onChain, declared⟩
  · obtain ⟨owner, below, gives, -⟩ := exists_firstDefault (isSome_class_of_nearest nearest) default
    exact ⟨gives.concrete, owner, below, gives.declares⟩

/-! ### Receivers -/

/-- **The default method that runs is that of the first interface** that has one. Where no class on
the superclass chain declares the member, every other interface above the class with a declaration
that is not abstract has a larger identifier, whichever of the two extends the other. -/
theorem dispatch_eq_firstDefault
    (undeclared : ∀ above, Program.OnChain hierarchy.program id above →
      hierarchy.program.declared? above member = none)
    (dispatched : hierarchy.dispatch id member = .ok (some method)) :
    ∃ owner, Program.Below hierarchy.program id owner ∧
      hierarchy.program.GivesDefault owner member method ∧
      ∀ other default, other ≠ owner → Program.Below hierarchy.program id other →
        hierarchy.program.GivesDefault other member default → owner.index < other.index := by
  rcases dispatch_eq_some.mp dispatched with ⟨nearest, _⟩ | ⟨nearest, found⟩
  · obtain ⟨above, onChain, declared⟩ := exists_declared_of_nearest nearest
    rw [undeclared above onChain] at declared
    cases declared
  · obtain ⟨owner, first⟩ := exists_firstDefault (isSome_class_of_nearest nearest) found
    exact ⟨owner, first.below, first.gives, first.least⟩

/-- The hierarchy of the round shapes. -/
def roundShapes : Hierarchy := ⟨.roundShapes, by decide, _, rfl⟩

/-- Circles have the name of shapes: shapes come before round shapes. -/
theorem dispatch_eq_firstDefault_roundShapes :
    roundShapes.dispatch ⟨2⟩ ⟨0⟩ = .ok (some ⟨0⟩) ∧
      ∃ owner, roundShapes.program.GivesDefault owner ⟨0⟩ ⟨0⟩ ∧ owner.index < 1 := by
  have dispatched : roundShapes.dispatch ⟨2⟩ ⟨0⟩ = .ok (some ⟨0⟩) := rfl
  have nearest : roundShapes.nearest ⟨2⟩ ⟨0⟩ = .ok none := rfl
  obtain ⟨owner, _, gives, first⟩ := dispatch_eq_firstDefault
    (fun above onChain => declared_eq_none_of_nearest nearest onChain) dispatched
  refine ⟨dispatched, owner, gives, first ⟨1⟩ ⟨2⟩ ?_ ?_ ⟨rfl, rfl, rfl⟩⟩
  · rintro rfl
    cases gives.declares
  · exact .step (by decide) (.refl _)

/-- Round shapes override the name of shapes, and circles are round; still the overridden default
method is the one that runs for circles. -/
theorem dispatch_overridden_roundShapes :
    Program.roundShapes.Acyclic ∧
      (∀ above, Program.OnChain .roundShapes ⟨2⟩ above →
        Program.roundShapes.declared? above ⟨0⟩ = none) ∧
      roundShapes.dispatch ⟨2⟩ ⟨0⟩ = .ok (some ⟨0⟩) ∧
      Program.roundShapes.GivesDefault ⟨0⟩ ⟨0⟩ ⟨0⟩ ∧
      Program.Below .roundShapes ⟨2⟩ ⟨1⟩ ∧ Program.Below .roundShapes ⟨1⟩ ⟨0⟩ ∧
      Program.roundShapes.GivesDefault ⟨1⟩ ⟨0⟩ ⟨2⟩ := by
  have nearest : roundShapes.nearest ⟨2⟩ ⟨0⟩ = .ok none := rfl
  exact ⟨Program.acyclic_of_descending (by decide),
    fun above onChain => declared_eq_none_of_nearest nearest onChain, rfl, ⟨rfl, rfl, rfl⟩,
    .step (by decide) (.refl _), .step (by decide) (.refl _), ⟨rfl, rfl, rfl⟩⟩

/-! ### Named classes -/

/-- The search among all supertypes finds the declaration of the first one to have one. -/
theorem exists_firstAbove (isClass : (hierarchy.program.class? id).isSome = true)
    (found : ((hierarchy.supertypes id).toList.findSome? fun above =>
      hierarchy.program.declared? above member) = some method) :
    ∃ first, hierarchy.program.FirstAbove id member first ∧
      hierarchy.program.declared? first member = some method := by
  obtain ⟨first, above, declared, before⟩ := SortedSet.findSome?_toList_eq_some found
  refine ⟨first, ⟨(mem_supertypes isClass).mp above, ?_, fun other different below declares => ?_⟩,
    declared⟩
  · rw [declared]
    exact Option.some_ne_none method
  · rw [← ClassId.before_iff]
    exact (before other ((mem_supertypes isClass).mpr below) declares).resolve_left different

/-- It finds something where an interface gives a default method. -/
theorem exists_resolve_of_default (nearest : hierarchy.nearest id member = .ok none) {owner : ClassId}
    (default : hierarchy.program.FirstDefault id member owner method) :
    ∃ found first, hierarchy.resolve ⟨id, member⟩ = .ok (some found) ∧
      hierarchy.program.FirstAbove id member first ∧
      hierarchy.program.declared? first member = some found := by
  have isClass := isSome_class_of_nearest nearest
  obtain ⟨found, search⟩ : ∃ found, ((hierarchy.supertypes id).toList.findSome? fun above =>
      hierarchy.program.declared? above member) = some found := by
    refine Option.isSome_iff_exists.mp (List.findSome?_isSome_iff.mpr ⟨owner, ?_, ?_⟩)
    · exact (mem_supertypes isClass).mpr default.below
    · rw [default.gives.declares]
      rfl
  obtain ⟨first, above, declared⟩ := exists_firstAbove isClass search
  exact ⟨found, first, resolve_eq_some.mpr (.inr ⟨nearest, search⟩), above, declared⟩

/-- **Naming the class of a receiver finds a declaration whenever the receiver reaches a method.** If a
class on the superclass chain declares the member, it is that method. Otherwise the method is the
default method of the first interface above the class that gives one. If no supertype before that
interface declares the member, it is again that method; and if there is one, it is the declaration of
the first of them, which is abstract if that is an interface. -/
theorem resolve_of_dispatch (dispatched : hierarchy.dispatch id member = .ok (some method)) :
    hierarchy.program.isAbstract method = false ∧
      ∃ found, hierarchy.resolve ⟨id, member⟩ = .ok (some found) ∧
        ((∃ above, Program.OnChain hierarchy.program id above ∧
            hierarchy.program.declared? above member ≠ none) → found = method) ∧
        ((∀ above, Program.OnChain hierarchy.program id above →
            hierarchy.program.declared? above member = none) →
          ∃ owner, hierarchy.program.FirstDefault id member owner method ∧
            ((∀ other, Program.Below hierarchy.program id other → other.index < owner.index →
              hierarchy.program.declared? other member = none) → found = method) ∧
            ∀ other, Program.Below hierarchy.program id other → other.index < owner.index →
              hierarchy.program.declared? other member ≠ none →
              ∃ first, hierarchy.program.FirstAbove id member first ∧
                hierarchy.program.declared? first member = some found ∧
                ((hierarchy.program.class? first).any Class.isInterface = true →
                  hierarchy.program.isAbstract found = true)) := by
  refine ⟨(exists_declared_of_dispatch dispatched).1, ?_⟩
  rcases dispatch_eq_some.mp dispatched with ⟨nearest, concrete⟩ | ⟨nearest, found⟩
  · refine ⟨method, resolve_eq_some.mpr (.inl nearest), fun _ => rfl, fun undeclared => ?_⟩
    obtain ⟨above, onChain, declared⟩ := exists_declared_of_nearest nearest
    rw [undeclared above onChain] at declared
    cases declared
  · obtain ⟨owner, default⟩ := exists_firstDefault (isSome_class_of_nearest nearest) found
    obtain ⟨found, first, resolved, above, declared⟩ := exists_resolve_of_default nearest default
    refine ⟨found, resolved, ?_, fun _ => ⟨owner, default, fun noneBefore => ?_, ?_⟩⟩
    · rintro ⟨other, onChain, declares⟩
      exact absurd (declared_eq_none_of_nearest nearest onChain) declares
    · -- The first supertype to declare the member cannot be another one than the interface.
      have declares : hierarchy.program.declared? owner member ≠ none := by
        rw [default.gives.declares]
        exact Option.some_ne_none method
      by_cases same : owner = first
      · subst same
        exact Option.some.inj (declared.symm.trans default.gives.declares)
      · have before := above.least owner same default.below declares
        exact absurd (noneBefore first above.below before) above.declares
    · intro other below before declares
      refine ⟨first, above, declared, fun isInterface => ?_⟩
      have earlier : first.index < owner.index := by
        by_cases same : other = first
        · exact same ▸ before
        · exact Nat.lt_trans (above.least other same below declares) before
      exact default.isAbstract above.below earlier isInterface declared

/-- Circles have the area of round shapes. Shapes come before round shapes and declare it as well, so a
call that names circles finds that declaration, which is abstract. -/
theorem resolve_of_dispatch_roundShapes :
    roundShapes.dispatch ⟨2⟩ ⟨1⟩ = .ok (some ⟨3⟩) ∧
      ∃ found, roundShapes.resolve ⟨⟨2⟩, ⟨1⟩⟩ = .ok (some found) ∧
        roundShapes.program.declared? ⟨0⟩ ⟨1⟩ = some found ∧
        roundShapes.program.isAbstract found = true := by
  have dispatched : roundShapes.dispatch ⟨2⟩ ⟨1⟩ = .ok (some ⟨3⟩) := rfl
  have nearest : roundShapes.nearest ⟨2⟩ ⟨1⟩ = .ok none := rfl
  have isRound : Program.Below roundShapes.program ⟨2⟩ ⟨1⟩ := .step (by decide) (.refl _)
  have isShape : Program.Below roundShapes.program ⟨2⟩ ⟨0⟩ := isRound.tail (by decide)
  have declares : roundShapes.program.declared? ⟨0⟩ ⟨1⟩ ≠ none := nofun
  obtain ⟨_, found, resolved, _, undeclared⟩ := resolve_of_dispatch dispatched
  obtain ⟨owner, default, _, earlier⟩ :=
    undeclared fun above onChain => declared_eq_none_of_nearest nearest onChain
  have after : 0 < owner.index := by
    obtain ⟨_ | index⟩ := owner
    · cases default.gives.declares
    · exact Nat.succ_pos index
  obtain ⟨first, above, declared, abstract⟩ := earlier ⟨0⟩ isShape after declares
  obtain rfl : first = ⟨0⟩ := by
    by_contra other
    exact Nat.not_lt_zero _ (above.least ⟨0⟩ (Ne.symm other) isShape declares)
  exact ⟨dispatched, found, resolved, declared, abstract rfl⟩

/-- Circles have the area of round shapes, but a call that names circles finds the abstract
declaration in shapes. -/
theorem resolve_abstract_roundShapes :
    roundShapes.dispatch ⟨2⟩ ⟨1⟩ = .ok (some ⟨3⟩) ∧
      roundShapes.resolve ⟨⟨2⟩, ⟨1⟩⟩ = .ok (some ⟨1⟩) ∧
      Program.roundShapes.isAbstract ⟨1⟩ = true ∧
      roundShapes.resolve ⟨⟨2⟩, ⟨1⟩⟩ ≠ roundShapes.dispatch ⟨2⟩ ⟨1⟩ :=
  ⟨rfl, rfl, rfl, nofun⟩

end Hierarchy

end CallFlow
