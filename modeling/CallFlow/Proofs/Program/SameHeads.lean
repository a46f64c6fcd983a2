/-
**Programs that differ in bodies only.**

The hierarchy asks about classes and about the heads of methods: where a method is declared, its
signature and its flags. Whether a class flows into a parameter, a result or a field depends on
declared types. So programs with the same classes, fields and heads of methods answer all of this in
the same way, whatever stands in the bodies.

* `Program.SameHeads`: two programs that differ in bodies only.
* `Program.SameHeads.any_method?`: what is asked of a method without its body has one answer.
* `Program.SameHeads.searchesFrom`, `Program.SameHeads.ascendWithin_declared?`: searches for the target
  of a call start at the same classes and take the same way.
* `Program.SameHeads.dispatch`, `Program.SameHeads.resolve`, `Program.SameHeads.receivers`: so the
  questions about calls have the same answers.
* `Program.SameHeads.granularity`: the named analyses have the same scopes.
-/

import CallFlow.Proofs.Construction.Change
import CallFlow.Proofs.Hierarchy.Walks

namespace CallFlow

/-- The method without its body. -/
def Method.withoutBody (method : Method) : Method := { method with body := [] }

namespace Program

/-- The body of a method. -/
def body (program : Program) (id : MethodId) : List Statement :=
  (program.method? id).elim [] Method.body

/-- The statement at a site is that at its place in the body. -/
theorem statement?_eq {program : Program} (site : Site) :
    program.statement? site = (program.body site.method)[site.index]? := by
  unfold statement? body
  cases program.method? site.method <;> rfl

/-- The programs have the same classes and fields, and methods that differ in their bodies only. -/
structure SameHeads (first second : Program) : Prop where
  classes : second.classes = first.classes
  fields : second.fields = first.fields
  heads : second.methods.toList.map Method.withoutBody =
    first.methods.toList.map Method.withoutBody

theorem directSupertypes_congr {program edited : Program}
    (classes : edited.classes = program.classes) :
    edited.directSupertypes = program.directSupertypes := by
  funext id
  unfold directSupertypes class?
  rw [classes]

theorem search_congr {program edited : Program} (classes : edited.classes = program.classes)
    (steps : Nat) (queue : List ClassId) (seen : SortedSet ClassId) :
    edited.search steps queue seen = program.search steps queue seen := by
  have direct := directSupertypes_congr classes
  induction steps generalizing queue seen with
  | zero => rfl
  | succ steps hyp =>
    cases queue with
    | nil => rfl
    | cons id rest =>
      unfold search
      simp only [hyp, direct]

namespace SameHeads

section Programs

variable {first second : Program} (same : first.SameHeads second)
include same

theorem symm : second.SameHeads first where
  classes := same.classes.symm
  fields := same.fields.symm
  heads := same.heads.symm

theorem class? : second.class? = first.class? := by
  funext id
  unfold Program.class?
  rw [same.classes]

theorem field? : second.field? = first.field? := by
  funext id
  unfold Program.field?
  rw [same.fields]

theorem isConcrete : second.isConcrete = first.isConcrete := by
  funext id
  unfold Program.isConcrete
  rw [same.class?]

theorem classIds : second.classIds = first.classIds := by
  unfold Program.classIds
  rw [same.classes]

/-- The heads of the methods are the same. -/
theorem map_withoutBody_method? (id : MethodId) :
    (second.method? id).map Method.withoutBody = (first.method? id).map Method.withoutBody := by
  unfold Program.method?
  rw [← Array.getElem?_toList, ← Array.getElem?_toList, ← List.getElem?_map, same.heads,
    List.getElem?_map]

theorem isSome_method? (id : MethodId) : (second.method? id).isSome = (first.method? id).isSome := by
  rw [← Option.isSome_map, same.map_withoutBody_method?, Option.isSome_map]

/-- **What is asked of a method without its body has one answer.** -/
theorem any_method? {test : Method → Bool} (bodiless : ∀ method, test method.withoutBody = test method)
    (id : MethodId) : (second.method? id).any test = (first.method? id).any test := by
  have atHead (found : Option Method) : found.any test = (found.map Method.withoutBody).any test := by
    cases found with
    | none => rfl
    | some method => exact (bodiless method).symm
  rw [atHead, same.map_withoutBody_method?, ← atHead]

theorem isAbstract : second.isAbstract = first.isAbstract :=
  funext fun id => same.any_method? (fun _ => rfl) id

theorem isStatic : second.isStatic = first.isStatic :=
  funext fun id => same.any_method? (fun _ => rfl) id

theorem declared? : second.declared? = first.declared? := by
  funext owner member
  unfold Program.declared?
  rw [same.class?]
  have declares : (fun id => (second.method? id).any fun method => decide (method.member = member)) =
      fun id => (first.method? id).any fun method => decide (method.member = member) :=
    funext fun id => same.any_method? (fun _ => rfl) id
  rw [declares]

theorem supertypesOf : second.supertypesOf = first.supertypesOf := by
  funext id
  unfold Program.supertypesOf
  rw [search_congr same.classes, same.classes]

/-- The classes below a class are the same. -/
theorem below {lower upper : ClassId} (below : Below second lower upper) : Below first lower upper := by
  induction below with
  | refl id => exact .refl id
  | step edge rest hyp =>
    rw [directSupertypes_congr same.classes] at edge
    exact .step edge hyp

/-- The searches for the target of a call start at the same classes. -/
theorem searchesFrom {call : Call} {id : ClassId} (starts : second.SearchesFrom call id) :
    first.SearchesFrom call id := by
  cases starts with
  | named direct => exact .named direct
  | receiver virtual concrete below =>
    rw [same.isConcrete] at concrete
    exact .receiver virtual concrete (same.below below)

/-- A search for a member takes the same way. -/
theorem ascendWithin_declared? (member : MemberId) (steps : Nat) (id : ClassId) :
    second.ascendWithin (fun candidate _ => second.declared? candidate member) steps id =
      first.ascendWithin (fun candidate _ => first.declared? candidate member) steps id := by
  rw [same.declared?]
  exact ascendWithin_congr same.classes steps id

/-- A method of one program is a method of the other one with another body. -/
theorem exists_method? {id : MethodId} {info : Method} (found : second.method? id = some info) :
    ∃ other, first.method? id = some other ∧ info = { other with body := info.body } := by
  have heads := same.map_withoutBody_method? id
  rw [found] at heads
  obtain ⟨other, isMethod, head⟩ := Option.map_eq_some_iff.mp heads.symm
  refine ⟨other, isMethod, ?_⟩
  cases info
  cases other
  cases head
  rfl

/-- **A program is in range if the other one is and the statements of its bodies are**, and if both
have the same member signatures. -/
theorem inRange (members : second.members = first.members) (inRange : first.InRange)
    (statements : ∀ id info, second.method? id = some info → ∀ statement ∈ info.body,
      first.statementInRange statement = true) : second.InRange := by
  refine ⟨fun info member => ?_, fun info member => ?_, fun info member => ?_⟩
  · rw [same.classes] at member
    rw [← inRange.classes info member]
    simp only [classInRange, same.class?, same.field?, same.isSome_method?]
  · obtain ⟨index, inTable, rfl⟩ := Array.mem_iff_getElem.mp member
    have found : second.method? ⟨index⟩ = some second.methods[index] :=
      Array.getElem?_eq_getElem inTable
    obtain ⟨other, isMethod, head⟩ := same.exists_method? found
    have whole := inRange.methods other (Array.mem_of_getElem? isMethod)
    have statementInRange : second.statementInRange = first.statementInRange := by
      funext statement
      cases statement <;>
        simp only [Program.statementInRange, hasType, member?, same.class?, same.field?, members]
    have body : second.methods[index].body.all second.statementInRange = true := by
      rw [statementInRange, List.all_eq_true]
      exact statements _ _ found
    rw [head] at body ⊢
    unfold methodInRange hasType at whole ⊢
    simp only [Bool.and_eq_true] at whole ⊢
    rw [same.class?, member?, members]
    exact ⟨whole.1, body⟩
  · rw [same.fields] at member
    rw [← inRange.fields info member]
    simp only [fieldInRange, hasType, same.class?]

/-- Edges of the hierarchy lead to the same classes. -/
theorem edgesInRange (inRange : first.EdgesInRange) : second.EdgesInRange := by
  unfold EdgesInRange Program.directSupertypes at *
  rw [same.classIds, same.class?, same.classes]
  exact inRange

/-- **The named analyses have the same scopes.** -/
theorem granularity (variant : Variant) : variant.granularity second = variant.granularity first := by
  have methodScope (grain : Granularity.Grain) :
      grain.methodScope second = grain.methodScope first := by
    funext id
    cases grain with
    | byClass =>
      have atHead (found : Option Method) :
          (found.elim Scope.global fun method => .declaring method.owner) =
            (found.map Method.withoutBody).elim .global fun method => .declaring method.owner := by
        cases found <;> rfl
      show (second.method? id).elim _ _ = (first.method? id).elim _ _
      rw [atHead, same.map_withoutBody_method?, ← atHead]
    | _ => rfl
  have fieldScope (grain : Granularity.Grain) : grain.fieldScope second = grain.fieldScope first := by
    funext id
    cases grain with
    | byClass =>
      show (second.field? id).elim _ _ = (first.field? id).elim _ _
      rw [same.field?]
    | _ => rfl
  cases variant <;> simp only [Variant.granularity, Granularity.ofGrains, methodScope, fieldScope]

end Programs

/-! ### Answers of the hierarchy -/

section Hierarchies

variable {first second : Hierarchy} (same : first.program.SameHeads second.program)
include same

theorem supertypes : second.supertypes = first.supertypes := by
  have table : second.table = first.table := by
    rw [second.table_eq, first.table_eq, same.classIds, same.supertypesOf]
  funext id
  unfold Hierarchy.supertypes
  rw [table]

theorem isSubtype : second.isSubtype = first.isSubtype := by
  funext lower upper
  unfold Hierarchy.isSubtype
  rw [same.supertypes]

theorem concreteSubtypes : second.concreteSubtypes = first.concreteSubtypes := by
  funext upper
  unfold Hierarchy.concreteSubtypes Hierarchy.subtypes
  rw [same.classIds, same.isSubtype, same.isConcrete]

theorem nearest : second.nearest = first.nearest := by
  funext id member
  unfold Hierarchy.nearest ascend
  rw [same.classes, same.ascendWithin_declared?]

/-- **A call on a receiver runs the same method.** -/
theorem dispatch : second.dispatch = first.dispatch := by
  have default : second.defaultMethod = first.defaultMethod := by
    funext id member
    unfold Hierarchy.defaultMethod
    rw [same.supertypes, same.class?, same.declared?, same.isAbstract]
  funext id member
  unfold Hierarchy.dispatch
  rw [same.nearest, same.isAbstract, default]

/-- **A call names the same declaration.** -/
theorem resolve : second.resolve = first.resolve := by
  funext target
  unfold Hierarchy.resolve
  rw [same.nearest, same.supertypes, same.declared?]

/-- **A virtual target has the same receivers.** -/
theorem receivers : second.receivers = first.receivers := by
  funext target
  unfold Hierarchy.receivers
  rw [same.class?, same.concreteSubtypes, same.dispatch]

/-- A call that one hierarchy answers is answered by the other one. -/
theorem answers {call : Call} (answers : second.Answers call) : first.Answers call where
  declared direct := same.resolve ▸ answers.declared direct
  received virtual := same.receivers ▸ answers.received virtual

/-! ### Where classes flow -/

variable (granularity : Granularity)

open Construction

theorem flowsInto :
    Setting.flowsInto ⟨second, granularity⟩ = Setting.flowsInto ⟨first, granularity⟩ := by
  funext id type
  unfold Setting.flowsInto
  rw [show (Setting.mk second granularity).hierarchy.isSubtype = _ from same.isSubtype]

theorem acceptsArgument :
    Setting.acceptsArgument ⟨second, granularity⟩ = Setting.acceptsArgument ⟨first, granularity⟩ := by
  funext method id
  unfold Setting.acceptsArgument
  rw [same.flowsInto granularity]
  exact same.any_method? (fun _ => rfl) method

theorem returns : Setting.returns ⟨second, granularity⟩ = Setting.returns ⟨first, granularity⟩ := by
  funext method id
  unfold Setting.returns
  rw [same.flowsInto granularity]
  exact same.any_method? (fun _ => rfl) method

theorem fieldAccepts :
    Setting.fieldAccepts ⟨second, granularity⟩ = Setting.fieldAccepts ⟨first, granularity⟩ := by
  funext field id
  unfold Setting.fieldAccepts
  rw [same.flowsInto granularity]
  exact congrArg (fun found : Option Field => found.any _) (congrFun same.field? field)

theorem holdsObjects :
    Setting.holdsObjects ⟨second, granularity⟩ = Setting.holdsObjects ⟨first, granularity⟩ := by
  funext field
  unfold Setting.holdsObjects
  exact congrArg (fun found : Option Field => found.any _) (congrFun same.field? field)

theorem receives : Setting.Receives ⟨second, granularity⟩ = Setting.Receives ⟨first, granularity⟩ := by
  funext target id callee
  unfold Setting.Receives
  rw [show (Setting.mk second granularity).hierarchy.concreteSubtypes = _ from same.concreteSubtypes,
    show (Setting.mk second granularity).hierarchy.dispatch = _ from same.dispatch]

end Hierarchies

end SameHeads

end Program

end CallFlow
