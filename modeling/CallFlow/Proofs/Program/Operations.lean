/-
**What a program is after a sequence of operations.**

Every operation that does not fail is one of the changes that keep a program consistent, and what it has
handed out stands for what was asked for. No later operation takes that away: names, signatures, heads
of methods and statements stay where they are.

* `Program.Performs`: what each operation does, if it does not fail.
* `Program.Denotes`: what was handed out stands for what was asked for.
* `Program.performAll_edits`, `Program.performAll_denotes`: what a sequence of operations does.
* `Program.Grows.keepsNames`, `Program.Consistent.listedOnce`: what growth says about full names, and
  consistency about the lists of the classes.
-/

import Mathlib.Data.List.Count
import CallFlow.Program.Operation
import CallFlow.Proofs.Construction.Change
import CallFlow.Proofs.Program.Edits

namespace CallFlow

namespace Program

/-! ### One operation -/

/-- An operation that does not fail, with the program after it and what it hands out. -/
inductive Performs (program : Program) : Operation → Program → Handed → Prop
  | addClass (name : String) :
      Performs program (.addClass name) (program.addClass name).1 (.classId (program.addClass name).2)
  | addMember (text : String) :
      Performs program (.addMember text) (program.addMember text).1
        (.memberId (program.addMember text).2)
  | addField {owner : ClassId} (isClass : (program.class? owner).isSome = true) (name : String)
      (type : Ty) :
      Performs program (.addField owner name type) (program.addField owner name type).1
        (.fieldId ⟨program.fields.size⟩)
  | addMethod {owner : ClassId} (isClass : (program.class? owner).isSome = true) (name : String)
      {params : List Ty} (typed : ∀ type ∈ params, program.hasType type = true) (result : Option Ty) :
      Performs program (.addMethod owner name params result)
        (program.addMethod owner name params result).1
        (.methodId (program.addMethod owner name params result).2)
  | addStatement {id : MethodId} {method : Method} (isMethod : program.method? id = some method)
      (statement : Statement) :
      Performs program (.addStatement id statement) (program.addStatement id statement)
        (.position method.body.length)
  | setEntry (entry : MethodId) :
      Performs program (.setEntry entry) { program with entry := some entry } .nothing
  | changeClass {id : ClassId} (isClass : (program.class? id).isSome = true) (change : ClassChange) :
      Performs program (.changeClass id change) (program.updateClass id change.apply) .nothing
  | changeMethod {id : MethodId} (isMethod : (program.method? id).isSome = true)
      (change : MethodChange) :
      Performs program (.changeMethod id change) (program.updateMethod id change.apply) .nothing

variable {program next : Program} {operation : Operation} {handed : Handed}

/-- **What an operation does, if it does not fail.** -/
theorem performs_of_perform (performed : program.perform operation = some (next, handed)) :
    program.Performs operation next handed := by
  cases operation with
  | addClass name =>
    cases performed
    exact .addClass name
  | addMember text =>
    cases performed
    exact .addMember text
  | addField owner name type =>
    obtain ⟨_, added, same⟩ := Option.map_eq_some_iff.mp performed
    obtain ⟨isClass, result⟩ := Option.ite_none_right_eq_some.mp added
    cases result
    cases same
    exact .addField isClass name type
  | addMethod owner name params type =>
    obtain ⟨_, added, same⟩ := Option.map_eq_some_iff.mp performed
    obtain ⟨inRange, result⟩ := Option.ite_none_right_eq_some.mp added
    obtain ⟨isClass, typed⟩ := (Bool.and_eq_true _ _).mp inRange
    cases result
    cases same
    exact .addMethod isClass name (List.all_eq_true.mp typed) type
  | addStatement id statement =>
    obtain ⟨_, added, same⟩ := Option.map_eq_some_iff.mp performed
    obtain ⟨method, isMethod, result⟩ := Option.map_eq_some_iff.mp added
    cases result
    cases same
    exact .addStatement isMethod statement
  | setEntry entry =>
    cases performed
    exact .setEntry entry
  | changeClass id change =>
    obtain ⟨_, updated, same⟩ := Option.map_eq_some_iff.mp performed
    obtain ⟨isClass, result⟩ := Option.ite_none_right_eq_some.mp updated
    cases result
    cases same
    exact .changeClass isClass change
  | changeMethod id change =>
    obtain ⟨_, updated, same⟩ := Option.map_eq_some_iff.mp performed
    obtain ⟨isMethod, result⟩ := Option.ite_none_right_eq_some.mp updated
    cases result
    cases same
    exact .changeMethod isMethod change

/-- **Every operation is a change** that keeps a program consistent. -/
theorem Performs.edit (performs : program.Performs operation next handed) : Edit program next := by
  cases performs with
  | addClass name => exact .newClass name
  | addMember text => exact .newMember text
  | addField isClass name type => exact .newField isClass name type
  | addMethod isClass name typed result => exact .newMethod isClass name typed result
  | addStatement isMethod statement => exact .changeMethod _ fun _ => rfl
  | setEntry entry => exact .chooseEntry (some entry)
  | changeClass isClass change =>
    exact .changeClass _ fun info => by cases change <;> exact ⟨rfl, rfl, rfl⟩
  | changeMethod isMethod change => exact .changeMethod _ fun method => by cases change <;> rfl

/-- The body of a changed method starts with its body before. -/
theorem statement?_updateMethod {id : MethodId} {change : Method → Method}
    (longer : ∀ method, method.body <+: (change method).body) {site : Site} {statement : Statement}
    (stands : program.statement? site = some statement) :
    (program.updateMethod id change).statement? site = some statement := by
  obtain ⟨method, found, here⟩ := Option.bind_eq_some_iff.mp stands
  unfold statement?
  rw [method?_updateMethod, found]
  show (if site.method = id then change method else method).body[site.index]? = _
  split
  · exact getElem?_of_prefix (longer method) here
  · exact here

/-- An added method comes after the others. -/
theorem method?_addMethod_of_method? {owner : ClassId} {name : String} {params : List Ty}
    {result : Option Ty} {id : MethodId} {method : Method} (found : program.method? id = some method) :
    (program.addMethod owner name params result).1.method? id = some method := by
  have interned : (program.addMember (program.signature name params)).1.methods = program.methods := by
    unfold addMember
    split <;> rfl
  have inside : id.index < program.methods.size := (Array.getElem?_eq_some_iff.mp found).1
  show ((program.addMember (program.signature name params)).1.methods.push _)[id.index]? = _
  rw [interned, Array.getElem?_push, if_neg (Nat.ne_of_lt inside)]
  exact found

/-- **No operation takes a statement from its place.** -/
theorem Performs.statement? (performs : program.Performs operation next handed) {site : Site}
    {statement : Statement} (stands : program.statement? site = some statement) :
    next.statement? site = some statement := by
  cases performs with
  | addClass name =>
    unfold Program.addClass
    split <;> exact stands
  | addMember text =>
    unfold Program.addMember
    split <;> exact stands
  | addField | setEntry | changeClass => exact stands
  | @addMethod owner isClass name params typed result =>
    obtain ⟨method, found, here⟩ := Option.bind_eq_some_iff.mp stands
    exact Option.bind_eq_some_iff.mpr ⟨method, method?_addMethod_of_method? found, here⟩
  | addStatement isMethod statement =>
    exact statement?_updateMethod (fun _ => List.prefix_append _ _) stands
  | changeMethod isMethod change =>
    exact statement?_updateMethod (fun _ => by cases change <;> exact List.prefix_rfl) stands

/-! ### What is handed out -/

/-- What an operation has handed out stands, in a program, for what was asked for. -/
inductive Denotes (program : Program) : Operation → Handed → Prop
  | newClass {name : String} {id : ClassId}
      (named : (program.class? id).map Class.name = some name) :
      Denotes program (.addClass name) (.classId id)
  | newMember {text : String} {id : MemberId} (known : program.member? id = some text) :
      Denotes program (.addMember text) (.memberId id)
  | newField {owner : ClassId} {name : String} {type : Ty} {id : FieldId}
      (stands : program.field? id = some ⟨owner, name, type⟩) :
      Denotes program (.addField owner name type) (.fieldId id)
  | newMethod {owner : ClassId} {name : String} {params : List Ty} {result : Option Ty}
      {id : MethodId} {method : Method} (stands : program.method? id = some method)
      (owned : method.owner = owner) (named : method.name = name) (typed : method.params = params)
      (headed : program.Headed method) :
      Denotes program (.addMethod owner name params result) (.methodId id)
  | newStatement {method : MethodId} {statement : Statement} {index : Nat}
      (stands : program.statement? ⟨method, index⟩ = some statement) :
      Denotes program (.addStatement method statement) (.position index)
  | setEntry {entry : MethodId} : Denotes program (.setEntry entry) .nothing
  | changeClass {id : ClassId} {change : ClassChange} :
      Denotes program (.changeClass id change) .nothing
  | changeMethod {id : MethodId} {change : MethodChange} :
      Denotes program (.changeMethod id change) .nothing

/-- An added class is found under its identifier. -/
theorem className_addClass (name : String) :
    ((program.addClass name).1.class? (program.addClass name).2).map Class.name = some name := by
  unfold addClass
  cases known : program.classNamed? name with
  | none => simp [class?]
  | some id =>
    obtain ⟨index, found, rfl⟩ := Option.map_eq_some_iff.mp known
    obtain ⟨inside, same, _⟩ := Array.findIdx?_eq_some_iff_getElem.mp found
    simpa [class?, Array.getElem?_eq_getElem inside] using same

/-- An added method is found under its identifier. -/
theorem method?_addMethod (owner : ClassId) (name : String) (params : List Ty) (result : Option Ty) :
    (program.addMethod owner name params result).1.method?
        (program.addMethod owner name params result).2 =
      some ⟨owner, name, (program.addMember (program.signature name params)).2, params, result, false,
        false, []⟩ :=
  Array.getElem?_push_size

/-- **What an operation hands out stands for what was asked for.** -/
theorem Performs.denotes (performs : program.Performs operation next handed) :
    next.Denotes operation handed := by
  have grows := performs.edit.grows
  cases performs with
  | addClass name => exact .newClass (className_addClass name)
  | addMember text => exact .newMember (member?_addMember text)
  | addField isClass name type => exact .newField Array.getElem?_push_size
  | addMethod isClass name typed result =>
    refine .newMethod (method?_addMethod _ name _ result) rfl rfl rfl
      ⟨grows.isClass isClass, fun type among => grows.hasType (typed type among), ?_⟩
    rw [grows.signature typed]
    exact member?_addMember _
  | @addStatement id method isMethod statement =>
    refine .newStatement ?_
    unfold Program.statement? Program.addStatement
    rw [method?_updateMethod, isMethod]
    simp
  | setEntry entry => exact .setEntry
  | changeClass isClass change => exact .changeClass
  | changeMethod isMethod change => exact .changeMethod

/-- The head of a method stays where it is. -/
theorem Grows.head? {edited : Program} (grows : Grows program edited) {id : MethodId} {method : Method}
    (found : program.method? id = some method) :
    ∃ changed, edited.method? id = some changed ∧ changed.head = method.head := by
  have here : (program.methods.toList.map Method.head)[id.index]? = some method.head := by
    rw [List.getElem?_map, Array.getElem?_toList]
    exact congrArg (Option.map Method.head) found
  have there := getElem?_of_prefix grows.heads here
  rw [List.getElem?_map, Array.getElem?_toList] at there
  exact Option.map_eq_some_iff.mp there

/-- A field stays as it is. -/
theorem Grows.field? {edited : Program} (grows : Grows program edited) {id : FieldId} {field : Field}
    (found : program.field? id = some field) : edited.field? id = some field := by
  unfold Program.field? at found ⊢
  rw [← Array.getElem?_toList] at found ⊢
  exact getElem?_of_prefix grows.fields found

/-- **What was handed out keeps its meaning** in an operation. -/
theorem Denotes.perform {asked : Operation} {given : Handed} (denotes : program.Denotes asked given)
    (performs : program.Performs operation next handed) : next.Denotes asked given := by
  have grows := performs.edit.grows
  cases denotes with
  | newClass named => exact .newClass (grows.className? named)
  | newMember known => exact .newMember (grows.member? known)
  | newField stands => exact .newField (grows.field? stands)
  | newMethod stands owned named typed headed =>
    obtain ⟨changed, found, same⟩ := grows.head? stands
    have headed := headed.grow grows same
    simp only [Method.head, Prod.mk.injEq] at same
    obtain ⟨sameOwner, sameName, -, sameParams⟩ := same
    exact .newMethod found (sameOwner.trans owned) (sameName.trans named) (sameParams.trans typed)
      headed
  | newStatement stands => exact .newStatement (performs.statement? stands)
  | setEntry => exact .setEntry
  | changeClass => exact .changeClass
  | changeMethod => exact .changeMethod

end Program

/-! ### Sequences of operations -/

section Sequences

variable {α : Type} {perform : α → Operation → Option (α × Handed)} {state last : α}
  {operations : List Operation} {answers : List Handed}

theorem performEach_cons_eq_some {operation : Operation} :
    performEach perform state (operation :: operations) = some (last, answers) ↔
      ∃ next handed others, perform state operation = some (next, handed) ∧
        performEach perform next operations = some (last, others) ∧ answers = handed :: others := by
  rw [performEach]
  cases first : perform state operation with
  | none => simp
  | some step =>
    obtain ⟨next, handed⟩ := step
    cases rest : performEach perform next operations with
    | none => simp_all
    | some run =>
      obtain ⟨final, others⟩ := run
      simp [rest, eq_comm]

/-- A sequence of operations can be cut anywhere. -/
theorem performEach_append {earlier later : List Operation} :
    performEach perform state (earlier ++ later) = some (last, answers) ↔
      ∃ middle before after, performEach perform state earlier = some (middle, before) ∧
        performEach perform middle later = some (last, after) ∧ answers = before ++ after := by
  induction earlier generalizing state answers with
  | nil =>
    constructor
    · exact fun run => ⟨state, [], answers, rfl, run, rfl⟩
    · rintro ⟨_, _, after, start, run, rfl⟩
      cases start
      exact run
  | cons operation operations hyp =>
    rw [List.cons_append, performEach_cons_eq_some]
    constructor
    · rintro ⟨next, handed, others, first, run, rfl⟩
      obtain ⟨middle, before, after, start, rest, rfl⟩ := hyp.mp run
      exact ⟨middle, handed :: before, after,
        performEach_cons_eq_some.mpr ⟨next, handed, before, first, start, rfl⟩, rest, rfl⟩
    · rintro ⟨middle, _, after, start, rest, rfl⟩
      obtain ⟨next, handed, before, first, others, rfl⟩ := performEach_cons_eq_some.mp start
      exact ⟨next, handed, before ++ after, first,
        hyp.mpr ⟨middle, before, after, others, rest, rfl⟩, rfl⟩

end Sequences

namespace Program

section Sequences

variable {program built : Program} {operations : List Operation} {answers : List Handed}

/-- A sequence of operations is a sequence of changes. -/
theorem performAll_edits (performed : program.performAll operations = some (built, answers)) :
    Edits program built := by
  induction operations generalizing program answers with
  | nil =>
    cases performed
    exact .refl
  | cons operation operations hyp =>
    obtain ⟨next, handed, others, first, rest, -⟩ := performEach_cons_eq_some.mp performed
    exact .head (performs_of_perform first).edit (hyp rest)

/-- What was handed out keeps its meaning, whatever is done. -/
theorem Denotes.performAll {asked : Operation} {given : Handed} (denotes : program.Denotes asked given)
    (performed : program.performAll operations = some (built, answers)) : built.Denotes asked given := by
  induction operations generalizing program answers with
  | nil =>
    cases performed
    exact denotes
  | cons operation operations hyp =>
    obtain ⟨next, handed, others, first, rest, -⟩ := performEach_cons_eq_some.mp performed
    exact hyp (denotes.perform (performs_of_perform first)) rest

/-- **What a sequence of operations hands out** stands, in the end, for what was asked for. -/
theorem performAll_denotes (performed : program.performAll operations = some (built, answers)) :
    List.Forall₂ built.Denotes operations answers := by
  induction operations generalizing program answers with
  | nil =>
    cases performed
    exact .nil
  | cons operation operations hyp =>
    obtain ⟨next, handed, others, first, rest, rfl⟩ := performEach_cons_eq_some.mp performed
    exact .cons ((performs_of_perform first).denotes.performAll rest) (hyp rest)

end Sequences

/-! ### Full names -/

/-- Every identifier of a program has, in a later one, the name that it has now. -/
structure KeepsNames (program later : Program) : Prop where
  classes : ∀ id name, (program.class? id).map Class.name = some name →
    (later.class? id).map Class.name = some name
  members : ∀ id text, program.member? id = some text → later.member? id = some text
  methods : ∀ id name, program.methodName? id = some name → later.methodName? id = some name
  fields : ∀ id name, program.fieldName? id = some name → later.fieldName? id = some name

/-- **Growth keeps names.** The name of a method or a field is put together from that of its owner,
which is a class as long as the program is consistent. -/
theorem Grows.keepsNames {program later : Program} (grows : Grows program later)
    (consistent : program.Consistent) : KeepsNames program later where
  classes id name := grows.className?
  members id text := grows.member?
  methods id name named := by
    obtain ⟨isMethod, same⟩ := Option.ite_none_right_eq_some.mp named
    obtain ⟨method, found⟩ := Option.isSome_iff_exists.mp isMethod
    obtain ⟨changed, foundLater, head⟩ := grows.head? found
    have headed := consistent.heads method (Array.mem_of_getElem? found)
    simp only [Method.head, Prod.mk.injEq] at head
    obtain ⟨sameOwner, -, sameMember, -⟩ := head
    have className := grows.className headed.owner
    have member := grows.member? headed.member
    refine Option.ite_none_right_eq_some.mpr ⟨by rw [foundLater]; rfl, same ▸ ?_⟩
    simp only [methodName, found, foundLater, targetName, memberName, Option.elim_some]
    rw [sameOwner, sameMember, className, member, headed.member]
  fields id name named := by
    obtain ⟨isField, same⟩ := Option.ite_none_right_eq_some.mp named
    obtain ⟨field, found⟩ := Option.isSome_iff_exists.mp isField
    have foundLater := grows.field? found
    have className := grows.className (consistent.fieldOwners field (Array.mem_of_getElem? found))
    refine Option.ite_none_right_eq_some.mpr ⟨by rw [foundLater]; rfl, same ▸ ?_⟩
    simp only [fieldName, found, foundLater, Option.elim_some]
    rw [className]

end Program

/-! ### What the classes list -/

/-- A record stands once in the lists of all classes together. -/
theorem count_flatten_of_lists {owners : List ClassId} {lists : List (List Nat)}
    (complete : ∀ owner listed, lists[owner.index]? = some listed → Lists owners owner listed)
    {index : Nat} {owner : ClassId} (owned : owners[index]? = some owner)
    (inside : owner.index < lists.length) : lists.flatten.count index = 1 := by
  have distinct : lists.flatten.Nodup := by
    refine List.nodup_flatten.mpr ⟨fun listed among => ?_, List.pairwise_iff_getElem.mpr ?_⟩
    · obtain ⟨place, here⟩ := List.mem_iff_getElem?.mp among
      exact (complete ⟨place⟩ listed here).ascending.imp Nat.ne_of_lt
    · -- A record in two lists has two owners.
      intro first second firstInside secondInside before record inFirst inSecond
      have firstOwner := ((complete ⟨first⟩ _ (List.getElem?_eq_getElem firstInside)).complete
        record).mp inFirst
      have secondOwner := ((complete ⟨second⟩ _ (List.getElem?_eq_getElem secondInside)).complete
        record).mp inSecond
      rw [firstOwner] at secondOwner
      cases secondOwner
      exact Nat.lt_irrefl _ before
  have listed := (complete owner _ (List.getElem?_eq_getElem inside)).complete index
  exact List.count_eq_one_of_mem distinct
    (List.mem_flatten.mpr ⟨_, List.getElem_mem inside, listed.mpr owned⟩)

namespace Program

/-- Every method and every field is listed once by all classes together, by the class that it names as
its owner, and the lists ascend. -/
structure ListedOnce (program : Program) : Prop where
  methodOnce : ∀ id, (program.method? id).isSome = true →
    (program.classes.toList.flatMap Class.methods).count id = 1
  methodOwner : ∀ owner info, program.class? owner = some info →
    ∀ id, id ∈ info.methods ↔ (program.method? id).map Method.owner = some owner
  methodsAscend : ∀ owner info, program.class? owner = some info →
    info.methods.Pairwise fun first second => first.index < second.index
  fieldOnce : ∀ id, (program.field? id).isSome = true →
    (program.classes.toList.flatMap Class.fields).count id = 1
  fieldOwner : ∀ owner info, program.class? owner = some info →
    ∀ id, id ∈ info.fields ↔ (program.field? id).map Field.owner = some owner
  fieldsAscend : ∀ owner info, program.class? owner = some info →
    info.fields.Pairwise fun first second => first.index < second.index

section ListedOnce

variable {program : Program} {ι : Type} {position : ι → Nat} {owners : List ClassId}
  {listed : Class → List ι}

/-- `count_flatten_of_lists` for the lists of identifiers of the classes of a program. -/
theorem count_flatMap_of_lists [DecidableEq ι] (injective : Function.Injective position)
    (complete : ∀ owner info, program.class? owner = some info →
      Lists owners owner ((listed info).map position))
    {owner : ClassId} (isClass : (program.class? owner).isSome = true) {id : ι}
    (owned : owners[position id]? = some owner) :
    (program.classes.toList.flatMap listed).count id = 1 := by
  have inside : owner.index < program.classes.size := by
    obtain ⟨info, found⟩ := Option.isSome_iff_exists.mp isClass
    exact (Array.getElem?_eq_some_iff.mp found).1
  rw [← List.count_map_of_injective _ position injective, List.map_flatMap, List.flatMap_def]
  refine count_flatten_of_lists (fun owner positions here => ?_) owned (by simpa using inside)
  rw [List.getElem?_map, Array.getElem?_toList] at here
  obtain ⟨info, found, rfl⟩ := Option.map_eq_some_iff.mp here
  exact complete owner info found

theorem mem_iff_of_lists (injective : Function.Injective position) {owner : ClassId} {ids : List ι}
    (lists : Lists owners owner (ids.map position)) (id : ι) :
    id ∈ ids ↔ owners[position id]? = some owner :=
  (List.mem_map_of_injective injective).symm.trans (lists.complete (position id))

theorem Consistent.listedOnce (consistent : program.Consistent) : program.ListedOnce := by
  have methodIndex : Function.Injective MethodId.index := fun _ _ => congrArg MethodId.mk
  have fieldIndex : Function.Injective FieldId.index := fun _ _ => congrArg FieldId.mk
  have methodOwners (id : MethodId) : (program.methods.toList.map Method.owner)[id.index]? =
      (program.method? id).map Method.owner := by
    rw [List.getElem?_map, Array.getElem?_toList]
    rfl
  have fieldOwners (id : FieldId) : (program.fields.toList.map Field.owner)[id.index]? =
      (program.field? id).map Field.owner := by
    rw [List.getElem?_map, Array.getElem?_toList]
    rfl
  refine ⟨fun id isMethod => ?_, fun owner info found id => ?_, fun owner info found => ?_,
    fun id isField => ?_, fun owner info found id => ?_, fun owner info found => ?_⟩
  · obtain ⟨method, found⟩ := Option.isSome_iff_exists.mp isMethod
    refine count_flatMap_of_lists methodIndex consistent.methods
      (consistent.heads method (Array.mem_of_getElem? found)).owner ?_
    rw [methodOwners, found]
    rfl
  · rw [← methodOwners]
    exact mem_iff_of_lists methodIndex (consistent.methods owner info found) id
  · exact List.pairwise_map.mp (consistent.methods owner info found).ascending
  · obtain ⟨field, found⟩ := Option.isSome_iff_exists.mp isField
    refine count_flatMap_of_lists fieldIndex consistent.fields
      (consistent.fieldOwners field (Array.mem_of_getElem? found)) ?_
    rw [fieldOwners, found]
    rfl
  · rw [← fieldOwners]
    exact mem_iff_of_lists fieldIndex (consistent.fields owner info found) id
  · exact List.pairwise_map.mp (consistent.fields owner info found).ascending

end ListedOnce

end Program

end CallFlow
