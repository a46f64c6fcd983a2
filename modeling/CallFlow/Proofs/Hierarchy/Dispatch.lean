/-
**Which method runs.**

A call on a receiver of some class runs the nearest declaration on the superclass chain of the class,
and nothing where that is abstract. Where the chain has no declaration, a default method of an interface
above runs, if there is one. The class that a call names has no say in this.

* `Program.FirstDeclares`: the first method with a member signature in the list of a class.
* `Program.lookup_declarations`: the index of declarations holds the first ones.
* `Program.Nearest`: the nearest declaration of a member on the superclass chain.
* `Hierarchy.dispatch_of_nearest`, `Hierarchy.dispatch_of_undeclared`: what a call on a receiver runs.
* `Hierarchy.dispatch_exact`: dispatch in a program that was built by operations.
-/

import CallFlow.Hierarchy.Declarations
import CallFlow.Proofs.Hierarchy.Defaults
import CallFlow.Proofs.Program.Operations

namespace CallFlow

namespace Program

variable {program : Program} {owner : ClassId} {member : MemberId} {id : MethodId}

/-! ### First declarations -/

/-- A method is the first one with a member signature in the list of a class. -/
structure FirstDeclares (program : Program) (owner : ClassId) (member : MemberId) (id : MethodId) :
    Prop where
  named : (program.method? id).map Method.member = some member
  listed : ∃ info before after, program.class? owner = some info ∧ info.methods = before ++ id :: after ∧
    ∀ earlier ∈ before, (program.method? earlier).map Method.member ≠ some member

theorem any_member_iff : ((program.method? id).any fun method => method.member = member) = true ↔
    (program.method? id).map Method.member = some member := by
  rw [Option.any_eq_true, Option.map_eq_some_iff]
  simp only [decide_eq_true_eq]

theorem declared?_eq_some_iff :
    program.declared? owner member = some id ↔ program.FirstDeclares owner member id := by
  unfold declared?
  rw [Option.bind_eq_some_iff]
  simp only [List.find?_eq_some_iff_append, any_member_iff, Bool.not_eq_true', Bool.eq_false_iff]
  constructor
  · rintro ⟨info, isClass, named, before, after, listed, first⟩
    exact ⟨named, info, before, after, isClass, listed, fun earlier among => by
      simpa [any_member_iff] using first earlier among⟩
  · rintro ⟨named, info, before, after, isClass, listed, first⟩
    exact ⟨info, isClass, named, before, after, listed, fun earlier among => by
      simpa [any_member_iff] using first earlier among⟩

/-! ### The index of declarations -/

/-- What a method that a class lists may add to the index. -/
theorem lookup_enterDeclaration {index : List (Target × MethodId)} {target : Target} :
    (program.enterDeclaration owner index id).lookup target =
      (index.lookup target).or (if target.owner = owner ∧
        ((program.method? id).any fun method => method.member = target.member) then some id else none) := by
  unfold enterDeclaration
  cases found : program.method? id with
  | none => simp
  | some method =>
    by_cases same : target = ⟨owner, method.member⟩
    · subst same
      cases known : index.lookup ⟨owner, method.member⟩ with
      | none => simp [known]
      | some earlier => simp [known]
    · have apart : ¬ (target.owner = owner ∧ method.member = target.member) := by
        rintro ⟨rfl, sameMember⟩
        exact same (congrArg (Target.mk target.owner) sameMember.symm)
      simp only [Option.any_some, decide_eq_true_eq, if_neg apart, Option.or_none]
      split
      · rfl
      · rw [lookup_cons_of_ne same]

/-- The first methods that a class lists are added to the index. -/
theorem lookup_enterDeclarations {index : List (Target × MethodId)} {target : Target} :
    (program.enterDeclarations index owner).lookup target = (index.lookup target).or
      (if target.owner = owner then program.declared? owner target.member else none) := by
  have entered (methods : List MethodId) : (methods.foldl (program.enterDeclaration owner) index).lookup
      target = (index.lookup target).or (if target.owner = owner then methods.find? fun id =>
        (program.method? id).any fun method => method.member = target.member else none) := by
    induction methods generalizing index with
    | nil => simp
    | cons first others hyp =>
      rw [List.foldl_cons, hyp, lookup_enterDeclaration, Option.or_assoc]
      congr 1
      by_cases own : target.owner = owner
      · rw [List.find?_cons]
        split <;> simp_all
      · simp [own]
  unfold enterDeclarations declared?
  rw [entered]
  cases program.class? owner <;> rfl

/-- **The index of declarations holds the first ones.** -/
theorem lookup_declarations (target : Target) :
    program.declarations.lookup target = program.declared? target.owner target.member := by
  have entered (owners : List ClassId) (index : List (Target × MethodId)) :
      (owners.foldl program.enterDeclarations index).lookup target = (index.lookup target).or
        (if target.owner ∈ owners then program.declared? target.owner target.member else none) := by
    induction owners generalizing index with
    | nil => simp
    | cons first others hyp =>
      rw [List.foldl_cons, hyp, lookup_enterDeclarations, Option.or_assoc]
      congr 1
      by_cases own : target.owner = first
      · subst own
        cases program.declared? target.owner target.member <;> simp
      · simp [own]
  unfold declarations
  rw [entered, List.lookup_nil, Option.none_or]
  split
  · rfl
  · next outside =>
    rw [mem_classIds] at outside
    unfold declared?
    rw [Option.not_isSome_iff_eq_none.mp outside]
    rfl

/-- In a consistent program a class lists its own methods only. -/
theorem Consistent.owner_of_declared (consistent : program.Consistent)
    (declared : program.declared? owner member = some id) :
    ∃ method, program.method? id = some method ∧ method.owner = owner ∧ method.member = member := by
  have first := declared?_eq_some_iff.mp declared
  obtain ⟨method, found, named⟩ := Option.map_eq_some_iff.mp first.named
  obtain ⟨info, before, after, isClass, listed, -⟩ := first.listed
  have among : id ∈ info.methods := listed ▸ List.mem_append_right _ List.mem_cons_self
  have owned := (consistent.listedOnce.methodOwner owner info isClass id).mp among
  rw [found] at owned
  cases owned
  exact ⟨method, found, rfl, named⟩

/-! ### The superclass chain -/

/-- A declaration is the nearest one on the superclass chain of a class: no class before the one that
declares it has a declaration of the member. -/
inductive Nearest (program : Program) (member : MemberId) : ClassId → ClassId → MethodId → Prop where
  | here {owner : ClassId} {first : MethodId} (declares : program.declared? owner member = some first) :
      Nearest program member owner owner first
  | above {lower next owner : ClassId} {info : Class} {first : MethodId}
      (silent : program.declared? lower member = none) (isClass : program.class? lower = some info)
      (superclass : info.superclass = some next) (rest : Nearest program member next owner first) :
      Nearest program member lower owner first

/-- A chain with a declaration has a nearest one. -/
theorem exists_nearest_of_onChain {lower above : ClassId} {declared : MethodId}
    (onChain : OnChain program lower above) (declares : program.declared? above member = some declared) :
    ∃ owner first, program.Nearest member lower owner first := by
  induction onChain with
  | refl id => exact ⟨id, declared, .here declares⟩
  | @step lower middle upper info isClass above rest hyp =>
    cases silent : program.declared? lower member with
    | some first => exact ⟨lower, first, .here silent⟩
    | none =>
      obtain ⟨owner, first, nearest⟩ := hyp declares
      exact ⟨owner, first, .above silent isClass above nearest⟩

/-- A walk finds the nearest declaration. -/
theorem Nearest.ascendWithin {lower : ClassId} {first : MethodId}
    (nearest : program.Nearest member lower owner first) :
    ∃ steps, program.ascendWithin (fun candidate _ => program.declared? candidate member) steps lower =
      .ok (some first) := by
  induction nearest with
  | @here owner first declares =>
    obtain ⟨info, isClass⟩ := exists_class_of_declared declares
    refine ⟨1, ?_⟩
    unfold Program.ascendWithin
    rw [isClass]
    simp only [declares]
  | above silent isClass superclass rest hyp =>
    obtain ⟨steps, found⟩ := hyp
    refine ⟨steps + 1, ?_⟩
    rw [Program.ascendWithin, isClass]
    simp only [silent, superclass]
    exact found

end Program

namespace Hierarchy

variable {hierarchy : Hierarchy} {id owner : ClassId} {member : MemberId} {first : MethodId}

/-- **Where the superclass chain has a declaration** the nearest one decides what runs. -/
theorem dispatch_of_nearest (nearest : hierarchy.program.Nearest member id owner first) :
    hierarchy.dispatch id member =
      .ok (if hierarchy.program.isAbstract first then none else some first) := by
  obtain ⟨steps, found⟩ := nearest.ascendWithin
  have same : hierarchy.nearest id member = .ok (some first) := by
    unfold Hierarchy.nearest
    rw [Program.ascend_of_ends (by rw [found]; exact nofun), found]
  unfold dispatch
  rw [same]
  rfl

/-- **Where the superclass chain has none** a default method runs, if there is one. -/
theorem dispatch_of_undeclared {steps : Nat} (isClass : (hierarchy.program.class? id).isSome = true)
    (ends : hierarchy.program.ascendWithin
        (fun candidate _ => hierarchy.program.declared? candidate member) steps id ≠
      .error .endlessWalk)
    (undeclared : ∀ above, Program.OnChain hierarchy.program id above →
      hierarchy.program.declared? above member = none) :
    hierarchy.dispatch id member = .ok (hierarchy.defaultMethod id member) := by
  obtain ⟨found, nearest⟩ := exists_nearest_of_ends isClass ends
  unfold dispatch
  cases found with
  | none =>
    rw [nearest]
    rfl
  | some first =>
    obtain ⟨above, onChain, declared⟩ := exists_declared_of_nearest nearest
    rw [undeclared above onChain] at declared
    cases declared

/-- A class without a declaration of its own runs what its superclass runs. -/
theorem dispatch_superclass (nearest : hierarchy.program.Nearest member id owner first) {info : Class}
    {next : ClassId} (isClass : hierarchy.program.class? id = some info)
    (superclass : info.superclass = some next) (silent : hierarchy.program.declared? id member = none) :
    hierarchy.dispatch next member = hierarchy.dispatch id member := by
  rw [dispatch_of_nearest nearest]
  cases nearest with
  | here declares =>
    rw [silent] at declares
    cases declares
  | above _ sameClass sameSuperclass rest =>
    rw [isClass] at sameClass
    cases sameClass
    rw [superclass] at sameSuperclass
    cases sameSuperclass
    exact dispatch_of_nearest rest

/-- **The class that a target names has no say** in what runs, and reading the index is as good as
searching the lists of the classes. -/
theorem dispatchTarget_eq (target : Target) :
    hierarchy.dispatchTarget id target = hierarchy.dispatch id target.member := by
  have read (candidate : ClassId) : hierarchy.indexed? candidate target.member =
      hierarchy.program.declared? candidate target.member :=
    Program.lookup_declarations ⟨candidate, target.member⟩
  have walk : hierarchy.program.ascend (fun candidate _ => hierarchy.indexed? candidate target.member) id =
      hierarchy.nearest id target.member :=
    congrArg (fun find => hierarchy.program.ascend (fun candidate _ => find candidate) id) (funext read)
  unfold dispatchTarget dispatch
  rw [walk]
  rcases hierarchy.nearest id target.member with fault | _ | method
  · rfl
  · refine congrArg Except.ok ?_
    unfold defaultMethod
    simp only [read]
  · rfl

/-- There is no default method exactly if no interface above the class gives one. -/
theorem defaultMethod_eq_none_iff (isClass : (hierarchy.program.class? id).isSome = true) :
    hierarchy.defaultMethod id member = none ↔ ∀ owner default,
      Program.Below hierarchy.program id owner →
        ¬ hierarchy.program.GivesDefault owner member default := by
  unfold defaultMethod
  rw [List.findSome?_eq_none_iff]
  constructor
  · intro nothing owner default below gives
    have none := nothing owner ((mem_supertypes isClass).mpr below)
    rw [defaultIn_eq_some.mpr gives] at none
    cases none
  · intro nothing above among
    rw [Option.eq_none_iff_forall_ne_some]
    exact fun default accepted =>
      nothing above default ((mem_supertypes isClass).mp among) (defaultIn_eq_some.mp accepted)

/-- In a consistent program the class or interface that declares the method is its owner. -/
theorem exists_method_of_dispatch (consistent : hierarchy.program.Consistent)
    (dispatched : hierarchy.dispatch id member = .ok (some first)) :
    ∃ method, hierarchy.program.method? first = some method ∧ method.isAbstract = false ∧
      method.member = member ∧ Program.Below hierarchy.program id method.owner ∧
      hierarchy.program.FirstDeclares method.owner member first := by
  obtain ⟨concrete, owner, below, declared⟩ := exists_declared_of_dispatch dispatched
  obtain ⟨method, found, rfl, named⟩ := consistent.owner_of_declared declared
  unfold Program.isAbstract at concrete
  rw [found] at concrete
  exact ⟨method, found, concrete, named, below, Program.declared?_eq_some_iff.mp declared⟩

/-- **Dispatch in a program that was built by operations**, for a receiver and a member whose walk up
the superclasses ends. There is a result, the same one whatever class the target names, and
* a method that runs is not abstract, has the member, and is the first one with it that its class or
  interface lists, which is a supertype of the receiver;
* where the superclass chain has a declaration there is a nearest one, which alone decides; so a class
  without a declaration of its own has the result of its superclass;
* where the superclass chain has none, nothing runs exactly if no interface among all supertypes has a
  first declaration that is not abstract. -/
theorem dispatch_exact {operations : List Operation} {answers : List Handed}
    (built : Program.performAll {} operations = some (hierarchy.program, answers))
    (isClass : (hierarchy.program.class? id).isSome = true)
    (ends : ∃ steps, hierarchy.program.ascendWithin
        (fun candidate _ => hierarchy.program.declared? candidate member) steps id ≠
      .error .endlessWalk) :
    ∃ result, hierarchy.dispatch id member = .ok result ∧
      (∀ owner, hierarchy.dispatchTarget id ⟨owner, member⟩ = .ok result) ∧
      (∀ callee, result = some callee → ∃ method, hierarchy.program.method? callee = some method ∧
        method.isAbstract = false ∧ method.member = member ∧
        Program.Below hierarchy.program id method.owner ∧
        hierarchy.program.FirstDeclares method.owner member callee) ∧
      (∀ above declared, Program.OnChain hierarchy.program id above →
        hierarchy.program.declared? above member = some declared →
        (∃ owner first, hierarchy.program.Nearest member id owner first ∧
          result = if hierarchy.program.isAbstract first then none else some first) ∧
        ∀ info next, hierarchy.program.class? id = some info → info.superclass = some next →
          hierarchy.program.declared? id member = none → hierarchy.dispatch next member = .ok result) ∧
      ((∀ above, Program.OnChain hierarchy.program id above →
          hierarchy.program.declared? above member = none) →
        (result = none ↔ ∀ owner default, Program.Below hierarchy.program id owner →
          ¬ hierarchy.program.GivesDefault owner member default)) := by
  obtain ⟨steps, ends⟩ := ends
  have consistent := (Program.performAll_edits built).consistent
  obtain ⟨result, dispatched⟩ := exists_dispatch_of_ends isClass ends
  refine ⟨result, dispatched, fun owner => (dispatchTarget_eq _).trans dispatched,
    fun callee same => exists_method_of_dispatch consistent (same ▸ dispatched),
    fun above declared onChain declares => ?_, fun undeclared => ?_⟩
  · obtain ⟨owner, first, nearest⟩ := Program.exists_nearest_of_onChain onChain declares
    have decided := dispatched.symm.trans (dispatch_of_nearest nearest)
    exact ⟨⟨owner, first, nearest, Except.ok.inj decided⟩, fun info next isClass superclass silent =>
      (dispatch_superclass nearest isClass superclass silent).trans dispatched⟩
  · have default := dispatched.symm.trans (dispatch_of_undeclared isClass ends undeclared)
    rw [Except.ok.inj default]
    exact defaultMethod_eq_none_iff isClass

/-- Bases are shapes with a name, circles and squares are bases, and only circles have an area. Every
shape can describe itself. -/
def drawn : Hierarchy where
  program := {
    classes := #[
      { name := "Shape", isInterface := true, methods := [⟨0⟩, ⟨3⟩] },
      { name := "Base", isAbstract := true, interfaces := [⟨0⟩], methods := [⟨2⟩] },
      { name := "Circle", superclass := some ⟨1⟩, methods := [⟨1⟩] },
      { name := "Square", superclass := some ⟨1⟩ }]
    methods := #[
      { owner := ⟨0⟩, name := "area", member := ⟨0⟩, params := [], result := none, isAbstract := true },
      { owner := ⟨2⟩, name := "area", member := ⟨0⟩, params := [], result := none },
      { owner := ⟨1⟩, name := "name", member := ⟨1⟩, params := [], result := none },
      { owner := ⟨0⟩, name := "describe", member := ⟨2⟩, params := [], result := none }]
    members := #["area()", "name()", "describe()"] }
  edgesInRange := by decide
  table := _
  table_eq := rfl

/-- How the shapes are drawn. -/
def drawnOperations : List Operation :=
  [.addClass "Shape", .changeClass ⟨0⟩ (.isInterface true), .addClass "Base",
    .changeClass ⟨1⟩ (.isAbstract true), .changeClass ⟨1⟩ (.interfaces [⟨0⟩]), .addClass "Circle",
    .changeClass ⟨2⟩ (.superclass (some ⟨1⟩)), .addClass "Square",
    .changeClass ⟨3⟩ (.superclass (some ⟨1⟩)), .addMethod ⟨0⟩ "area" [] none,
    .changeMethod ⟨0⟩ (.isAbstract true), .addMethod ⟨2⟩ "area" [] none, .addMethod ⟨1⟩ "name" [] none,
    .addMethod ⟨0⟩ "describe" [] none]

/-- Squares describe themselves as some shape above them does. -/
theorem dispatch_exact_drawn :
    (∃ answers, Program.performAll {} drawnOperations = some (drawn.program, answers)) ∧
    ∃ callee, drawn.dispatch ⟨3⟩ ⟨2⟩ = .ok (some callee) ∧
      ∃ method, drawn.program.method? callee = some method ∧
        Program.Below drawn.program ⟨3⟩ method.owner := by
  have built : Program.performAll {} drawnOperations = some (drawn.program,
      [.classId ⟨0⟩, .nothing, .classId ⟨1⟩, .nothing, .nothing, .classId ⟨2⟩, .nothing, .classId ⟨3⟩,
        .nothing, .methodId ⟨0⟩, .nothing, .methodId ⟨1⟩, .methodId ⟨2⟩, .methodId ⟨3⟩]) := by
    decide +kernel
  have isClass : (drawn.program.class? ⟨3⟩).isSome = true := rfl
  have nearest : drawn.nearest ⟨3⟩ ⟨2⟩ = .ok none := rfl
  have ends : drawn.program.ascendWithin
      (fun candidate _ => drawn.program.declared? candidate ⟨2⟩) 5 ⟨3⟩ ≠ .error .endlessWalk :=
    show (Except.ok none : Except Fault (Option MethodId)) ≠ .error .endlessWalk from nofun
  obtain ⟨result, dispatched, -, runs, -, defaults⟩ := dispatch_exact built isClass ⟨5, ends⟩
  have base : Program.Below drawn.program ⟨1⟩ ⟨0⟩ := .step (by decide) (.refl _)
  have describes : result ≠ none := fun nothing =>
    (defaults fun above onChain => declared_eq_none_of_nearest nearest onChain).mp nothing ⟨0⟩ ⟨3⟩
      (.step (by decide) base) ⟨rfl, rfl, rfl⟩
  obtain ⟨callee, rfl⟩ := Option.ne_none_iff_exists'.mp describes
  obtain ⟨method, found, -, -, below, -⟩ := runs callee rfl
  exact ⟨⟨_, built⟩, callee, dispatched, method, found, below⟩

end Hierarchy

end CallFlow
