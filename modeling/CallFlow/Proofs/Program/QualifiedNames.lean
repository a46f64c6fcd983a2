/-
**Full names of methods.**

A full name is split at the last dot before its first bracket. What stands before the dot is taken for the
class, so a class with a bracket in its name is not found, and neither is a method with a dot before the
bracket of its signature. All other methods are found by their full names, up to methods with the same
member in the same class: the first of them stands for all.

* `Program.methodNamed?_eq_some_iff`: what a full name stands for.
* `Program.Splittable`: the methods whose full names are split where they were put together.
* `Program.methodNamed?_methodName`: the full name of such a method stands for the first one of its
  class with its member.
* `Program.methodNamed?_roundTrip`: full names after a sequence of operations.
-/

import CallFlow.Proofs.Description.Lookup
import CallFlow.Proofs.Hierarchy.Dispatch

namespace CallFlow

namespace Program

variable {program : Program}

/-! ### From a full name to its method -/

/-- **What a full name stands for**: the first method with the member whose signature follows the dot, in
the class whose name stands before it. -/
theorem methodNamed?_eq_some_iff (consistent : program.Consistent) {text : String} {id : MethodId} :
    program.methodNamed? text = some id ↔ ∃ owner signature declaring member,
      SplitsBeforeBracket text owner signature ∧
      (program.class? declaring).map Class.name = some owner ∧
      program.member? member = some signature ∧ program.FirstDeclares declaring member id := by
  simp only [methodNamed_eq_some, classNamed?_eq_some_iff consistent.distinctClasses,
    memberNamed?_eq_some_iff consistent.distinctMembers, declared?_eq_some_iff]

/-- The full name of a method is put together from the name of its class and its member. -/
theorem methodName_eq (consistent : program.Consistent) {id : MethodId} {method : Method}
    (isMethod : program.method? id = some method) : program.methodName id =
      program.className method.owner ++ "." ++ program.signature method.name method.params := by
  have headed := consistent.heads method (Array.mem_of_getElem? isMethod)
  simp only [methodName, isMethod, Option.elim_some, targetName, memberName, headed.member,
    Option.getD_some]

/-- The method that a full name stands for has this full name, and it is the first one with its member in
its class. -/
theorem methodName?_of_methodNamed (consistent : program.Consistent) {text : String} {id : MethodId}
    (named : program.methodNamed? text = some id) : program.methodName? id = some text ∧
      ∃ method, program.method? id = some method ∧
        program.FirstDeclares method.owner method.member id := by
  obtain ⟨owner, signature, declaring, member, splits, isOwner, known, first⟩ :=
    (methodNamed?_eq_some_iff consistent).mp named
  obtain ⟨method, isMethod, rfl, rfl⟩ :=
    consistent.owner_of_declared (declared?_eq_some_iff.mpr first)
  obtain ⟨info, isClass, rfl⟩ := Option.map_eq_some_iff.mp isOwner
  refine ⟨Option.ite_none_right_eq_some.mpr ⟨by rw [isMethod]; rfl, ?_⟩, method, isMethod, first⟩
  simp only [methodName, isMethod, Option.elim_some, targetName, className, isClass, memberName, known,
    Option.getD_some]
  exact congrArg some splits.whole.symm

/-! ### From a method to its full name and back -/

/-- The full name of a method is split where it was put together: there is no bracket in the name of
the class, and no dot in the name of the method before its first bracket. -/
structure Splittable (program : Program) (method : Method) : Prop where
  unopened : '(' ∉ (program.className method.owner).toList
  undotted : '.' ∉ method.name.toList.takeWhile fun char => char ≠ '('

/-- Before a mark at the end, the first mark of a text is where it is. -/
theorem exists_takeWhile_append (mark : Char) (chars rest : List Char) :
    ∃ others, chars ++ mark :: rest = chars.takeWhile (fun char => char ≠ mark) ++ mark :: others := by
  induction chars with
  | nil => exact ⟨rest, rfl⟩
  | cons char chars hyp =>
    by_cases same : char = mark
    · subst same
      exact ⟨chars ++ char :: rest, by simp⟩
    · obtain ⟨others, whole⟩ := hyp
      have goesOn : decide (char ≠ mark) = true := decide_eq_true same
      exact ⟨others, by rw [List.takeWhile_cons, if_pos goesOn, List.cons_append, List.cons_append, whole]⟩

theorem Splittable.splits {method : Method} (splittable : program.Splittable method) :
    SplitsBeforeBracket
      (program.className method.owner ++ "." ++ program.signature method.name method.params)
      (program.className method.owner) (program.signature method.name method.params) := by
  obtain ⟨others, whole⟩ := exists_takeWhile_append '(' method.name.toList
    (",".intercalate (method.params.map program.typeName) ++ ")").toList
  refine ⟨rfl, splittable.unopened,
    String.ofList (method.name.toList.takeWhile fun char => char ≠ '('), String.ofList others, ?_, ?_, ?_⟩
  · rw [← String.toList_inj]
    simpa [signature] using whole
  · simpa using splittable.undotted
  · rw [String.toList_ofList]
    exact fun among => by simpa using List.mem_takeWhile_imp among

/-- **The full name of a method stands for the first method of its class with its member**, if it is split
where it was put together. -/
theorem methodNamed?_methodName (consistent : program.Consistent) {id : MethodId} {method : Method}
    (isMethod : program.method? id = some method) (splittable : program.Splittable method) :
    ∃ first, program.methodNamed? (program.methodName id) = some first ∧
      program.FirstDeclares method.owner method.member first := by
  have headed := consistent.heads method (Array.mem_of_getElem? isMethod)
  obtain ⟨info, isClass⟩ := Option.isSome_iff_exists.mp headed.owner
  have owned : (program.class? method.owner).map Class.name = some (program.className method.owner) := by
    simp only [className, isClass, Option.map_some, Option.elim_some]
  obtain ⟨first, declared⟩ := Description.exists_declared consistent isMethod
  have firstDeclares := declared?_eq_some_iff.mp declared
  refine ⟨first, ?_, firstDeclares⟩
  rw [methodName_eq consistent isMethod]
  exact (methodNamed?_eq_some_iff consistent).mpr
    ⟨_, _, method.owner, method.member, splittable.splits, owned, headed.member, firstDeclares⟩

/-- **Full names after a sequence of operations.** The method that a full name stands for has this full
name, and it is the first one with its member in its class. The full name of a method, if it is split where
it was put together, stands for the first method of its class with its member. So two such methods with one
full name are in one class and have one member. -/
theorem methodNamed?_roundTrip {operations : List Operation} {answers : List Handed}
    (built : Program.performAll {} operations = some (program, answers)) :
    (∀ text id, program.methodNamed? text = some id → program.methodName? id = some text ∧
      ∃ method, program.method? id = some method ∧
        program.FirstDeclares method.owner method.member id) ∧
    (∀ id method, program.method? id = some method → program.Splittable method →
      ∃ first, program.methodNamed? (program.methodName id) = some first ∧
        program.FirstDeclares method.owner method.member first) ∧
    ∀ id other method otherMethod, program.method? id = some method →
      program.method? other = some otherMethod → program.Splittable method →
      program.Splittable otherMethod → program.methodName id = program.methodName other →
      method.owner = otherMethod.owner ∧ method.member = otherMethod.member := by
  have consistent := (performAll_edits built).consistent
  refine ⟨fun text id => methodName?_of_methodNamed consistent,
    fun id method => methodNamed?_methodName consistent,
    fun id other method otherMethod isMethod isOther splittable otherSplittable same => ?_⟩
  obtain ⟨first, named, declares⟩ := methodNamed?_methodName consistent isMethod splittable
  obtain ⟨second, otherNamed, otherDeclares⟩ :=
    methodNamed?_methodName consistent isOther otherSplittable
  -- Both full names stand for one method, which has one class and one member.
  rw [same, otherNamed] at named
  cases named
  obtain ⟨found, isFound, owned, named⟩ :=
    consistent.owner_of_declared (declared?_eq_some_iff.mpr declares)
  obtain ⟨again, isAgain, otherOwned, otherNamed⟩ :=
    consistent.owner_of_declared (declared?_eq_some_iff.mpr otherDeclares)
  rw [isFound] at isAgain
  cases isAgain
  exact ⟨owned.symm.trans otherOwned, named.symm.trans otherNamed⟩

/-- A class with dots in its name. -/
def dotted : Program where
  classes := #[{ name := "lang.Object", methods := [⟨0⟩, ⟨1⟩] }]
  methods := #[
    { owner := ⟨0⟩, name := "equals", member := ⟨0⟩, params := [.unknown "a.B(c)"], result := none },
    { owner := ⟨0⟩, name := "equals", member := ⟨0⟩, params := [.unknown "a.B(c)"], result := none }]
  members := #["equals(a.B(c))"]

/-- The class has its method twice, with dots and brackets in a parameter. -/
theorem methodNamed?_roundTrip_dotted :
    (dotted.methodNamed? "lang.Object.equals(a.B(c))" = some ⟨0⟩ ∧
      dotted.methodName? ⟨0⟩ = some "lang.Object.equals(a.B(c))") ∧
    ∃ method, dotted.method? ⟨1⟩ = some method ∧ dotted.Splittable method ∧
      (∃ first, dotted.methodNamed? (dotted.methodName ⟨1⟩) = some first ∧
        dotted.FirstDeclares method.owner method.member first) ∧
      ∃ other, dotted.method? ⟨0⟩ = some other ∧ dotted.methodName ⟨0⟩ = dotted.methodName ⟨1⟩ ∧
        other.owner = method.owner ∧ other.member = method.member := by
  have built : Program.performAll {} [.addClass "lang.Object",
      .addMethod ⟨0⟩ "equals" [.unknown "a.B(c)"] none, .addMethod ⟨0⟩ "equals" [.unknown "a.B(c)"] none] =
      some (dotted, [.classId ⟨0⟩, .methodId ⟨0⟩, .methodId ⟨1⟩]) := by decide +kernel
  have named : dotted.methodNamed? "lang.Object.equals(a.B(c))" = some ⟨0⟩ := by decide +kernel
  have sameName : dotted.methodName ⟨0⟩ = dotted.methodName ⟨1⟩ := by decide +kernel
  have splittable : dotted.Splittable dotted.methods[1] := ⟨by decide +kernel, by decide +kernel⟩
  have otherSplittable : dotted.Splittable dotted.methods[0] := ⟨by decide +kernel, by decide +kernel⟩
  obtain ⟨backwards, forwards, injective⟩ := methodNamed?_roundTrip built
  exact ⟨⟨named, (backwards _ _ named).1⟩, dotted.methods[1], rfl, splittable,
    forwards ⟨1⟩ _ rfl splittable, dotted.methods[0], rfl, sameName,
    injective ⟨0⟩ ⟨1⟩ _ _ rfl rfl otherSplittable splittable sameName⟩

end Program

end CallFlow
