/-
**Walks that end.**

A search for a member walks up the superclasses until a class declares it or the chain ends. If
superclasses form a cycle that does not declare it the search never ends. A search that ends does so
within as many steps as there are classes and one more: it meets no class twice.

* `Program.GoesRound`: a walk that comes to a class twice, and so never ends.
* `Program.goesRound_or_climbs`: a walk goes round or meets another class with every step.
* `Program.ascend_of_ends`: the bound on the steps of a walk cuts no walk short that ends.
* `Program.SearchesFrom`: the classes at which the searches for the target of a call start.
* `Program.WalksEnd`: the searches for the targets of all calls end, however many steps they take.
* `Program.walksEnd_of_acyclic`, `Program.walksEnd_of_members`: they do if no superclasses form a cycle,
  or if the search for each member ends at each class, as it may on a cycle.
* `Program.OnChain`: the superclass chain, which is where walks look.
* `Hierarchy.dispatch_eq_some`, `Hierarchy.resolve_eq_some`: the two ways in which a call finds a
  method.
* `Hierarchy.isMethod_of_dispatch`, `Hierarchy.isMethod_of_resolve`: what is found is a method of the
  program.
* `Hierarchy.exists_nearest_of_ends`: a search for a member that ends has an answer.
* `Hierarchy.answers_of_walksEnd`: in a program whose walks end, the hierarchy answers every call.
-/

import Mathlib.Data.List.Nodup
import CallFlow.Proofs.Hierarchy.Receivers
import CallFlow.Proofs.Hierarchy.Supertypes

namespace CallFlow

namespace Program

variable {program : Program} {α : Type} {find : ClassId → Class → Option α} {id : ClassId}

/-- Where a walk leads depends on the table of classes only. -/
theorem ascendWithin_congr {edited : Program} (classes : edited.classes = program.classes)
    (steps : Nat) (id : ClassId) :
    edited.ascendWithin find steps id = program.ascendWithin find steps id := by
  induction steps generalizing id with
  | zero => rfl
  | succ steps hyp =>
    unfold ascendWithin class?
    rw [classes]
    simp only [hyp]

/-! ### Enough steps -/

/-- A walk that has not ended after a step goes on from the superclass. -/
theorem ascendWithin_succ {steps : Nat}
    (endless : program.ascendWithin find (steps + 1) id = .error .endlessWalk) :
    ∃ info next, program.class? id = some info ∧ find id info = none ∧ info.superclass = some next ∧
      ∀ more, program.ascendWithin find (more + 1) id = program.ascendWithin find more next := by
  unfold ascendWithin at endless
  cases found : program.class? id with
  | none => rw [found] at endless; cases endless
  | some info =>
    rw [found] at endless
    cases here : find id info with
    | some result => simp only [here] at endless; cases endless
    | none =>
      cases above : info.superclass with
      | none => simp only [here, above] at endless; cases endless
      | some next =>
        refine ⟨info, next, rfl, here, above, fun more => ?_⟩
        rw [ascendWithin]
        simp only [found, here, above]

/-- More steps do not change the outcome of a walk that ends. -/
theorem ascendWithin_le {steps more : Nat} (enough : steps ≤ more)
    (ends : program.ascendWithin find steps id ≠ .error .endlessWalk) :
    program.ascendWithin find more id = program.ascendWithin find steps id := by
  induction steps generalizing more id with
  | zero => exact absurd rfl ends
  | succ steps hyp =>
    obtain ⟨more, rfl⟩ : ∃ fewer, more = fewer + 1 := ⟨more - 1, by omega⟩
    unfold ascendWithin at ends ⊢
    cases found : program.class? id with
    | none => rfl
    | some info =>
      simp only [found] at ends ⊢
      cases here : find id info with
      | some result => rfl
      | none =>
        cases above : info.superclass with
        | none => rfl
        | some next =>
          simp only [here, above] at ends ⊢
          exact hyp (by omega) ends

/-- A walk gets from a class to another one: no class before that one has what is looked for. -/
inductive Climbs (program : Program) (find : ClassId → Class → Option α) : ClassId → ClassId → Prop where
  | refl (id : ClassId) : Climbs program find id id
  | step {lower middle upper : ClassId} {info : Class} (isClass : program.class? lower = some info)
      (silent : find lower info = none) (above : info.superclass = some middle)
      (rest : Climbs program find middle upper) : Climbs program find lower upper

variable (program find) in
/-- A walk gets to a class, and from its superclass to the same class again. -/
def GoesRound (id : ClassId) : Prop :=
  ∃ again info next, program.Climbs find id again ∧ program.class? again = some info ∧
    find again info = none ∧ info.superclass = some next ∧ program.Climbs find next again

/-- A walk that goes round goes on from the superclass, and goes round there. -/
theorem GoesRound.step (round : program.GoesRound find id) :
    ∃ info next, program.class? id = some info ∧ find id info = none ∧ info.superclass = some next ∧
      program.GoesRound find next := by
  obtain ⟨again, info, next, climbs, isClass, silent, above, back⟩ := round
  cases climbs with
  | refl => exact ⟨info, next, isClass, silent, above, id, info, next, back, isClass, silent, above, back⟩
  | step first here up rest =>
    exact ⟨_, _, first, here, up, again, info, next, rest, isClass, silent, above, back⟩

/-- **A walk that goes round never ends.** -/
theorem GoesRound.endless (round : program.GoesRound find id) (steps : Nat) :
    program.ascendWithin find steps id = .error .endlessWalk := by
  induction steps generalizing id with
  | zero => rfl
  | succ steps hyp =>
    obtain ⟨info, next, isClass, silent, above, goesOn⟩ := round.step
    rw [ascendWithin, isClass]
    simp only [silent, above]
    exact hyp goesOn

/-- **A walk goes round or meets another class with every step.** The last class that it meets need not
be one of the program. -/
theorem goesRound_or_climbs {steps : Nat}
    (endless : program.ascendWithin find steps id = .error .endlessWalk) :
    program.GoesRound find id ∨ ∃ visited last, visited.length = steps ∧ (visited ++ [last]).Nodup ∧
      visited ⊆ program.classIds ∧ ∀ met ∈ visited ++ [last], program.Climbs find id met := by
  induction steps generalizing id with
  | zero =>
    refine .inr ⟨[], id, rfl, List.nodup_singleton id, List.nil_subset _, fun met among => ?_⟩
    rw [List.mem_singleton.mp among]
    exact .refl id
  | succ steps hyp =>
    obtain ⟨info, next, isClass, silent, above, goesOn⟩ := ascendWithin_succ endless
    rw [goesOn] at endless
    have start {upper : ClassId} (rest : program.Climbs find next upper) :
        program.Climbs find id upper := .step isClass silent above rest
    rcases hyp endless with round | ⟨visited, last, length, nodup, subset, climbs⟩
    · obtain ⟨again, againInfo, further, rest, back⟩ := round
      exact .inl ⟨again, againInfo, further, start rest, back⟩
    · by_cases met : id ∈ visited ++ [last]
      · exact .inl ⟨id, info, next, .refl id, isClass, silent, above, climbs id met⟩
      · have isKnown : id ∈ program.classIds := program.mem_classIds.mpr (by rw [isClass]; rfl)
        refine .inr ⟨id :: visited, last, by rw [List.length_cons, length],
          List.nodup_cons.mpr ⟨met, nodup⟩, List.cons_subset.mpr ⟨isKnown, subset⟩, ?_⟩
        exact List.forall_mem_cons.mpr ⟨.refl id, fun other among => start (climbs other among)⟩

/-- A walk of more steps than there are classes goes round. -/
theorem goesRound_of_endless
    (endless : program.ascendWithin find (program.classes.size + 1) id = .error .endlessWalk) :
    program.GoesRound find id := by
  rcases goesRound_or_climbs endless with round | ⟨visited, last, length, nodup, subset, -⟩
  · exact round
  · have bound := (List.nodup_append.mp nodup).1.length_le_of_subset subset
    rw [length, length_classIds] at bound
    omega

/-- **The bound on the steps of a walk cuts no walk short that ends.** -/
theorem ascend_of_ends {steps : Nat}
    (ends : program.ascendWithin find steps id ≠ .error .endlessWalk) :
    program.ascend find id = program.ascendWithin find steps id := by
  unfold ascend
  by_cases short : program.ascendWithin find (program.classes.size + 1) id = .error .endlessWalk
  · exact absurd ((goesRound_of_endless short).endless steps) ends
  · rcases Nat.le_total steps (program.classes.size + 1) with enough | enough
    · exact ascendWithin_le enough ends
    · exact (ascendWithin_le enough short).symm

/-! ### Programs whose walks end -/

/-- The searches for the target of a call start at the class that a static or special call names, and
at the receiver classes of a virtual call, the concrete classes below the one that it names. -/
inductive SearchesFrom (program : Program) (call : Call) : ClassId → Prop where
  | named (direct : call.kind = .static ∨ call.kind = .special) :
      SearchesFrom program call call.target.owner
  | receiver {id : ClassId} (virtual : call.kind.isVirtual = true)
      (concrete : program.isConcrete id = true) (below : Below program id call.target.owner) :
      SearchesFrom program call id

variable (program) in
/-- The searches for the targets of all calls end, however many steps they take. -/
def WalksEnd : Prop :=
  ∀ site call, program.call? site = some call → ∀ id, program.SearchesFrom call id → ∃ steps,
    program.ascendWithin (fun candidate _ => program.declared? candidate call.target.member) steps id ≠
      .error .endlessWalk

/-- A walk that looks for nothing takes longest. -/
theorem ascendWithin_ends {steps : Nat}
    (ends : program.ascendWithin (fun _ _ => (none : Option Unit)) steps id ≠ .error .endlessWalk) :
    program.ascendWithin find steps id ≠ .error .endlessWalk := by
  induction steps generalizing id with
  | zero => exact absurd rfl ends
  | succ steps hyp =>
    intro endless
    obtain ⟨info, next, isClass, -, above, goesOn⟩ := ascendWithin_succ endless
    rw [goesOn] at endless
    unfold ascendWithin at ends
    simp only [isClass, above] at ends
    exact hyp ends endless

/-- A walk with an answer has ended. -/
theorem ends_of_isOk (answered : (program.ascend find id).isOk = true) :
    program.ascendWithin find (program.classes.size + 1) id ≠ .error .endlessWalk := by
  intro endless
  unfold ascend at answered
  rw [endless] at answered
  cases answered

/-- The walks of a program end if no superclasses form a cycle. -/
theorem walksEnd_of_acyclic
    (acyclic : ∀ id ∈ program.classIds,
      (program.ascend (fun _ _ => (none : Option Unit)) id).isOk = true) : program.WalksEnd := by
  refine fun site call isCall id starts => ⟨program.classes.size + 1, fun endless => ?_⟩
  obtain ⟨info, _, isClass, _⟩ := ascendWithin_succ endless
  have known : id ∈ program.classIds := program.mem_classIds.mpr (by rw [isClass]; rfl)
  exact ascendWithin_ends (ends_of_isOk (acyclic id known)) endless

example : shapes.WalksEnd := walksEnd_of_acyclic (by decide)

/-- A search starts at a class of the program. -/
theorem SearchesFrom.isClass {call : Call} (starts : program.SearchesFrom call id)
    (isClass : (program.class? call.target.owner).isSome = true) :
    (program.class? id).isSome = true := by
  cases starts with
  | named => exact isClass
  | receiver _ concrete _ => exact program.isClass_of_isConcrete concrete

/-- The walks of a program end if the search for each of its members ends at each of its classes. -/
theorem walksEnd_of_members (inRange : program.InRange)
    (ends : ∀ id ∈ program.classIds, ∀ index < program.members.size,
      (program.ascend (fun candidate _ => program.declared? candidate ⟨index⟩) id).isOk = true) :
    program.WalksEnd := by
  intro site call isCall id starts
  obtain ⟨isClass, isMember⟩ := inRange.call isCall
  unfold member? at isMember
  rw [isSome_getElem?] at isMember
  have known := program.mem_classIds.mpr (starts.isClass isClass)
  exact ⟨program.classes.size + 1, ends_of_isOk (ends id known _ isMember)⟩

/-- A class that is its own superclass, with a main method that calls itself on an object of it. -/
def ring : Program where
  classes := #[{ name := "Ring", superclass := some ⟨0⟩, methods := [⟨0⟩] }]
  methods := #[
    { owner := ⟨0⟩, name := "main", member := ⟨0⟩, params := [], result := none,
      body := [.new ⟨0⟩, .invoke ⟨.virtual, ⟨0⟩, ⟨0⟩⟩] }]
  members := #["main()"]
  entry := some ⟨0⟩

example : ring.WalksEnd := walksEnd_of_members (by decide) (by decide)

/-- If the edges are in range, a walk from a class of the program stays in the program. -/
theorem EdgesInRange.ascendWithin_ne (inRange : program.EdgesInRange)
    (find : ClassId → Class → Option α) (isClass : (program.class? id).isSome = true) (steps : Nat) :
    program.ascendWithin find steps id ≠ .error .outOfRange := by
  induction steps generalizing id with
  | zero => exact nofun
  | succ steps hyp =>
    unfold ascendWithin
    cases found : program.class? id with
    | none => rw [found] at isClass; cases isClass
    | some info =>
      cases here : find id info with
      | some result => simp only [here]; exact nofun
      | none =>
        cases above : info.superclass with
        | none => simp only [here, above]; exact nofun
        | some next =>
          simp only [here, above]
          exact hyp (inRange.isClass isClass (program.mem_directSupertypes_of_superclass found above))

theorem InRange.ascendWithin_ne (inRange : program.InRange) (find : ClassId → Class → Option α)
    (isClass : (program.class? id).isSome = true) (steps : Nat) :
    program.ascendWithin find steps id ≠ .error .outOfRange :=
  inRange.edgesInRange.ascendWithin_ne find isClass steps

/-! ### What walks find -/

/-- The second class is on the superclass chain of the first one: zero or more superclass edges lead
from one to the other. -/
inductive OnChain (program : Program) : ClassId → ClassId → Prop where
  | refl (id : ClassId) : OnChain program id id
  | step {lower middle upper : ClassId} {info : Class} (isClass : program.class? lower = some info)
      (above : info.superclass = some middle) (rest : OnChain program middle upper) :
      OnChain program lower upper

/-- The superclass chain leads to supertypes. -/
theorem below_of_onChain {lower upper : ClassId} (onChain : OnChain program lower upper) :
    Below program lower upper := by
  induction onChain with
  | refl id => exact .refl id
  | step isClass above rest hyp =>
    exact .step (program.mem_directSupertypes_of_superclass isClass above) hyp

/-- A walk that finds something finds it at a class on the superclass chain. -/
theorem exists_find_of_ascendWithin {steps : Nat} {result : α}
    (found : program.ascendWithin find steps id = .ok (some result)) :
    ∃ candidate info, OnChain program id candidate ∧ find candidate info = some result := by
  induction steps generalizing id with
  | zero => cases found
  | succ steps hyp =>
    unfold ascendWithin at found
    cases isClass : program.class? id with
    | none => rw [isClass] at found; cases found
    | some info =>
      simp only [isClass] at found
      cases here : find id info with
      | some first =>
        rw [here] at found
        cases found
        exact ⟨id, info, .refl id, here⟩
      | none =>
        cases above : info.superclass with
        | none => simp only [here, above] at found; cases found
        | some next =>
          simp only [here, above] at found
          obtain ⟨candidate, there, onChain, result⟩ := hyp found
          exact ⟨candidate, there, .step isClass above onChain, result⟩

/-- A walk that ends with nothing finds nothing at any class on the superclass chain. -/
theorem find_eq_none_of_ascendWithin {steps : Nat}
    (nothing : program.ascendWithin find steps id = .ok none) {above : ClassId} {info : Class}
    (onChain : OnChain program id above) (isClass : program.class? above = some info) :
    find above info = none := by
  induction onChain generalizing steps with
  | refl id =>
    cases steps with
    | zero => cases nothing
    | succ steps =>
      unfold ascendWithin at nothing
      simp only [isClass] at nothing
      cases here : find id info with
      | none => rfl
      | some first => rw [here] at nothing; cases nothing
  | @step lower middle upper lowerInfo lowerIsClass superclass rest hyp =>
    cases steps with
    | zero => cases nothing
    | succ steps =>
      unfold ascendWithin at nothing
      simp only [lowerIsClass, superclass] at nothing
      cases here : find lower lowerInfo with
      | some first => rw [here] at nothing; cases nothing
      | none =>
        rw [here] at nothing
        exact hyp nothing isClass

/-- A class that declares a method is a class of the program. -/
theorem exists_class_of_declared {owner : ClassId} {member : MemberId} {method : MethodId}
    (declared : program.declared? owner member = some method) :
    ∃ info, program.class? owner = some info := by
  obtain ⟨info, isClass, _⟩ := Option.bind_eq_some_iff.mp declared
  exact ⟨info, isClass⟩

/-- A declared method is a method of the program, whatever the class lists. -/
theorem isMethod_of_declared {owner : ClassId} {member : MemberId} {method : MethodId}
    (declared : program.declared? owner member = some method) :
    (program.method? method).isSome = true := by
  obtain ⟨info, _, listed⟩ := Option.bind_eq_some_iff.mp declared
  have passes := List.find?_some listed
  rw [Option.any_eq_true] at passes
  obtain ⟨found, isMethod, _⟩ := passes
  rw [isMethod]
  rfl

end Program

namespace Hierarchy

section Found

variable {hierarchy : Hierarchy} {method : MethodId}

/-- The nearest declaration stands on the superclass chain. -/
theorem exists_declared_of_nearest {id : ClassId} {member : MemberId}
    (found : hierarchy.nearest id member = .ok (some method)) :
    ∃ above, Program.OnChain hierarchy.program id above ∧
      hierarchy.program.declared? above member = some method := by
  obtain ⟨above, _, onChain, declared⟩ := Program.exists_find_of_ascendWithin found
  exact ⟨above, onChain, declared⟩

/-- Where there is no nearest declaration the superclass chain has none at all. -/
theorem declared_eq_none_of_nearest {id above : ClassId} {member : MemberId}
    (nothing : hierarchy.nearest id member = .ok none)
    (onChain : Program.OnChain hierarchy.program id above) :
    hierarchy.program.declared? above member = none := by
  rw [Option.eq_none_iff_forall_ne_some]
  intro method declared
  obtain ⟨info, isClass⟩ := Program.exists_class_of_declared declared
  rw [Program.find_eq_none_of_ascendWithin nothing onChain isClass] at declared
  cases declared

/-- The method that runs is the nearest declaration, if that is not abstract; where there is none it
is a default method. -/
theorem dispatch_eq_some {id : ClassId} {member : MemberId} :
    hierarchy.dispatch id member = .ok (some method) ↔
      (hierarchy.nearest id member = .ok (some method) ∧
          hierarchy.program.isAbstract method = false) ∨
        hierarchy.nearest id member = .ok none ∧
          hierarchy.defaultMethod id member = some method := by
  unfold dispatch
  rcases hierarchy.nearest id member with fault | _ | declared
  · simp [Except.map]
  · simp [Except.map]
  · simp only [Except.map, Except.ok.injEq, Option.ite_none_left_eq_some, Option.some.injEq,
      reduceCtorEq, false_and, or_false]
    constructor
    · rintro ⟨concrete, rfl⟩
      exact ⟨rfl, Bool.eq_false_iff.mpr concrete⟩
    · rintro ⟨rfl, concrete⟩
      exact ⟨Bool.eq_false_iff.mp concrete, rfl⟩

/-- The declaration that a call names is the nearest one; where there is none it is the first one
among all supertypes. -/
theorem resolve_eq_some {target : Target} : hierarchy.resolve target = .ok (some method) ↔
    hierarchy.nearest target.owner target.member = .ok (some method) ∨
      hierarchy.nearest target.owner target.member = .ok none ∧
        ((hierarchy.supertypes target.owner).toList.findSome? fun above =>
          hierarchy.program.declared? above target.member) = some method := by
  unfold resolve
  rcases hierarchy.nearest target.owner target.member with fault | _ | declared <;>
    simp [Except.map]

theorem isMethod_of_nearest {id : ClassId} {member : MemberId}
    (found : hierarchy.nearest id member = .ok (some method)) :
    (hierarchy.program.method? method).isSome = true := by
  obtain ⟨_, _, declared⟩ := exists_declared_of_nearest found
  exact Program.isMethod_of_declared declared

/-- The method that runs is a method of the program. -/
theorem isMethod_of_dispatch {id : ClassId} {member : MemberId}
    (dispatched : hierarchy.dispatch id member = .ok (some method)) :
    (hierarchy.program.method? method).isSome = true := by
  rcases dispatch_eq_some.mp dispatched with ⟨nearest, _⟩ | ⟨_, default⟩
  · exact isMethod_of_nearest nearest
  · obtain ⟨above, _, declared⟩ := List.exists_of_findSome?_eq_some default
    split at declared
    · exact Program.isMethod_of_declared (Option.eq_some_of_filter_eq_some declared)
    · cases declared

/-- The declaration that a call names is a method of the program. -/
theorem isMethod_of_resolve {target : Target}
    (resolved : hierarchy.resolve target = .ok (some method)) :
    (hierarchy.program.method? method).isSome = true := by
  rcases resolve_eq_some.mp resolved with nearest | ⟨_, first⟩
  · exact isMethod_of_nearest nearest
  · obtain ⟨above, _, declared⟩ := List.exists_of_findSome?_eq_some first
    exact Program.isMethod_of_declared declared

end Found

variable {hierarchy : Hierarchy}

/-- A search for a member that ends on a class of the program has an answer. -/
theorem exists_nearest_of_ends {id : ClassId} {member : MemberId} {steps : Nat}
    (isClass : (hierarchy.program.class? id).isSome = true)
    (ends : hierarchy.program.ascendWithin
        (fun candidate _ => hierarchy.program.declared? candidate member) steps id ≠
      .error .endlessWalk) : ∃ found, hierarchy.nearest id member = .ok found := by
  have same := Program.ascend_of_ends ends
  have stays := hierarchy.edgesInRange.ascendWithin_ne
    (fun candidate _ => hierarchy.program.declared? candidate member) isClass steps
  unfold nearest
  rw [same]
  cases outcome : hierarchy.program.ascendWithin
      (fun candidate _ => hierarchy.program.declared? candidate member) steps id with
  | ok found => exact ⟨found, rfl⟩
  | error fault =>
    cases fault with
    | outOfRange => exact absurd outcome stays
    | endlessWalk => exact absurd outcome ends

theorem exists_dispatch_of_ends {id : ClassId} {member : MemberId} {steps : Nat}
    (isClass : (hierarchy.program.class? id).isSome = true)
    (ends : hierarchy.program.ascendWithin
        (fun candidate _ => hierarchy.program.declared? candidate member) steps id ≠
      .error .endlessWalk) : ∃ found, hierarchy.dispatch id member = .ok found := by
  obtain ⟨found, nearest⟩ := exists_nearest_of_ends isClass ends
  unfold dispatch
  rw [nearest]
  exact ⟨_, rfl⟩

theorem exists_resolve_of_ends {target : Target} {steps : Nat}
    (isClass : (hierarchy.program.class? target.owner).isSome = true)
    (ends : hierarchy.program.ascendWithin
        (fun candidate _ => hierarchy.program.declared? candidate target.member) steps target.owner ≠
      .error .endlessWalk) : ∃ found, hierarchy.resolve target = .ok found := by
  obtain ⟨found, nearest⟩ := exists_nearest_of_ends isClass ends
  unfold resolve
  rw [nearest]
  exact ⟨_, rfl⟩

/-- **If the walks of the program end, the hierarchy answers every call.** -/
theorem answers_of_walksEnd (walksEnd : hierarchy.program.WalksEnd) {site : Site} {call : Call}
    (isCall : hierarchy.program.call? site = some call)
    (isClass : (hierarchy.program.class? call.target.owner).isSome = true) :
    hierarchy.Answers call where
  declared direct := by
    obtain ⟨steps, ends⟩ := walksEnd site call isCall _ (.named direct)
    exact exists_resolve_of_ends isClass ends
  received virtual := by
    refine exists_receivers isClass fun id subtype => ?_
    obtain ⟨concrete, below⟩ := mem_concreteSubtypes.mp subtype
    obtain ⟨steps, ends⟩ := walksEnd site call isCall id (.receiver virtual concrete below)
    exact exists_dispatch_of_ends (hierarchy.program.isClass_of_isConcrete concrete) ends

end Hierarchy

end CallFlow
