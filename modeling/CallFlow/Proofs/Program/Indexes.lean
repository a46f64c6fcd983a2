/-
**The indexes stay in step with the tables.**

An index is entered when something is added, a table is searched from its start: both give the same
identifier, if every addition enters both. So a program with indexes goes through the same states as
the program alone, and the indexes are inverse to the tables.

* `IndexedProgram.InStep`: the indexes hold what a search of the tables finds.
* `IndexedProgram.performAll_program`: the indexes do not change what a sequence of operations does.
* `IndexedProgram.performAll_sound`: what holds after every sequence of operations.
-/

import CallFlow.Program.Indexed
import CallFlow.Proofs.Program.Operations

namespace CallFlow

/-- A name that is entered at the front of an index is found there, and hides no other one. -/
theorem lookup_cons_eq_ite {ι : Type} {index : List (String × ι)} {known name : String} {id : ι} :
    ((known, id) :: index).lookup name = if name = known then some id else index.lookup name := by
  by_cases same : name = known
  · subst same
    rw [if_pos rfl, List.lookup_cons_self]
  · rw [if_neg same, lookup_cons_of_ne same]

/-- An unknown name that is added at the end of a table is found there, and hides no other one. -/
theorem findIdx?_push_eq_ite {α : Type} (view : α → String) {table : Array α} {entry : α} {name : String}
    (absent : table.findIdx? (fun known => view known = view entry) = none) :
    (table.push entry).findIdx? (fun known => view known = name) =
      if name = view entry then some table.size else table.findIdx? fun known => view known = name := by
  rw [Array.findIdx?_push]
  by_cases same : name = view entry
  · subst same
    simp [absent]
  · simp [same, Ne.symm same]

/-- Whether an operation may add a class or a member signature. -/
def Operation.entersName : Operation → Bool
  | .addClass _ | .addMember _ | .addMethod .. => true
  | _ => false

namespace Program

variable {program next : Program} {operation : Operation} {handed : Handed}

/-- Other operations leave names and member signatures alone. -/
theorem Performs.sameNames (performs : program.Performs operation next handed)
    (silent : operation.entersName = false) :
    next.classNames = program.classNames ∧ next.members = program.members := by
  cases performs with
  | addClass | addMember | addMethod => cases silent
  | addField isClass name type => exact ⟨classNames_fileField program _, rfl⟩
  | addStatement | setEntry | changeMethod => exact ⟨rfl, rfl⟩
  | changeClass isClass change =>
    exact ⟨classNames_updateClass _ fun _ => by cases change <;> rfl, rfl⟩

end Program

namespace IndexedProgram

/-- The indexes hold, for every name, what a search of the tables finds. -/
structure InStep (indexed : IndexedProgram) : Prop where
  classes : ∀ name, indexed.classNamed? name = indexed.program.classNamed? name
  members : ∀ text, indexed.memberNamed? text = indexed.program.memberNamed? text

variable {indexed next : IndexedProgram} {operation : Operation} {handed : Handed}

theorem InStep.empty : InStep {} where
  classes name := by simp [classNamed?, Program.classNamed?]
  members text := by simp [memberNamed?, Program.memberNamed?]

/-- A change that leaves names and member signatures alone leaves the indexes in step. -/
theorem InStep.replace (inStep : indexed.InStep) {program : Program}
    (classNames : program.classNames = indexed.program.classNames)
    (members : program.members = indexed.program.members) : InStep { indexed with program } where
  classes name := (inStep.classes name).trans (Program.classNamed?_congr classNames name).symm
  members text := by
    show indexed.memberNamed? text = program.memberNamed? text
    rw [inStep.members, Program.memberNamed?, Program.memberNamed?, members]

/-! ### One operation -/

theorem addClass_program (inStep : indexed.InStep) (name : String) :
    ((indexed.addClass name).1.program, (indexed.addClass name).2) = indexed.program.addClass name := by
  unfold addClass Program.addClass
  rw [inStep.classes]
  cases indexed.program.classNamed? name <;> rfl

theorem addMember_program (inStep : indexed.InStep) (text : String) :
    ((indexed.addMember text).1.program, (indexed.addMember text).2) =
      indexed.program.addMember text := by
  unfold addMember Program.addMember
  rw [inStep.members]
  cases indexed.program.memberNamed? text <;> rfl

/-- A name is entered into the index of the classes and into their table at once. -/
theorem InStep.addClass (inStep : indexed.InStep) (name : String) :
    (indexed.addClass name).1.InStep := by
  unfold IndexedProgram.addClass
  cases known : indexed.classNamed? name with
  | some id => exact inStep
  | none =>
    have absent : indexed.program.classes.findIdx? (fun info => info.name = name) = none :=
      Option.map_eq_none_iff.mp ((inStep.classes name).symm.trans known)
    refine ⟨fun other => ?_, inStep.members⟩
    show ((name, _) :: indexed.classIndex).lookup other =
      ((indexed.program.classes.push _).findIdx? fun info => info.name = other).map ClassId.mk
    rw [lookup_cons_eq_ite, findIdx?_push_eq_ite Class.name absent]
    split
    · rfl
    · exact inStep.classes other

/-- A text is entered into the index of the member signatures and into their table at once. -/
theorem InStep.addMember (inStep : indexed.InStep) (text : String) :
    (indexed.addMember text).1.InStep := by
  unfold IndexedProgram.addMember
  cases known : indexed.memberNamed? text with
  | some id => exact inStep
  | none =>
    have absent : indexed.program.members.findIdx? (fun known => known = text) = none :=
      Option.map_eq_none_iff.mp ((inStep.members text).symm.trans known)
    refine ⟨inStep.classes, fun other => ?_⟩
    show ((text, _) :: indexed.memberIndex).lookup other =
      ((indexed.program.members.push text).findIdx? fun known => known = other).map MemberId.mk
    rw [lookup_cons_eq_ite, findIdx?_push_eq_ite (fun known => known) absent]
    split
    · rfl
    · exact inStep.members other

theorem addMethod_program (inStep : indexed.InStep) (owner : ClassId) (name : String)
    (params : List Ty) (result : Option Ty) :
    ((indexed.addMethod owner name params result).1.program,
      (indexed.addMethod owner name params result).2) =
        indexed.program.addMethod owner name params result := by
  unfold addMethod Program.addMethod
  rw [← addMember_program inStep]

theorem InStep.addMethod (inStep : indexed.InStep) (owner : ClassId) (name : String)
    (params : List Ty) (result : Option Ty) :
    (indexed.addMethod owner name params result).1.InStep := by
  have interned := inStep.addMember (indexed.program.signature name params)
  exact interned.replace (Program.classNames_updateClass owner fun _ => rfl) rfl

/-- **Indexes that are in step do not change what an operation does.** -/
theorem perform_program (inStep : indexed.InStep) (operation : Operation) :
    (indexed.perform operation).map (fun step => (step.1.program, step.2)) =
      indexed.program.perform operation := by
  cases operation with
  | addClass name =>
    exact congrArg (fun step => some (step.1, Handed.classId step.2)) (addClass_program inStep name)
  | addMember text =>
    exact congrArg (fun step => some (step.1, Handed.memberId step.2)) (addMember_program inStep text)
  | addMethod owner name params result =>
    simp only [perform, Program.perform, Program.addMethod?]
    rw [← addMethod_program inStep]
    split <;> rfl
  | addField | addStatement | setEntry | changeClass | changeMethod =>
    simp [perform, Option.map_map, Function.comp_def]

/-- **Every operation leaves the indexes in step.** -/
theorem InStep.perform (inStep : indexed.InStep)
    (performed : indexed.perform operation = some (next, handed)) : next.InStep := by
  cases operation with
  | addClass name =>
    cases performed
    exact inStep.addClass name
  | addMember text =>
    cases performed
    exact inStep.addMember text
  | addMethod owner name params result =>
    obtain ⟨-, result⟩ := Option.ite_none_right_eq_some.mp performed
    cases result
    exact inStep.addMethod owner name params _
  | addField | addStatement | setEntry | changeClass | changeMethod =>
    simp only [IndexedProgram.perform, Option.map_eq_some_iff] at performed
    obtain ⟨⟨program, given⟩, done, same⟩ := performed
    cases same
    have names := (Program.performs_of_perform done).sameNames rfl
    exact inStep.replace names.1 names.2

/-! ### Sequences of operations -/

/-- **Indexes that are in step do not change what a sequence of operations does.** -/
theorem performAll_program (inStep : indexed.InStep) (operations : List Operation) :
    (indexed.performAll operations).map (fun run => (run.1.program, run.2)) =
      indexed.program.performAll operations := by
  induction operations generalizing indexed with
  | nil => rfl
  | cons operation operations hyp =>
    unfold performAll Program.performAll at hyp ⊢
    rw [performEach, performEach, ← perform_program inStep]
    cases first : indexed.perform operation with
    | none => rfl
    | some step =>
      obtain ⟨next, handed⟩ := step
      show ((performEach IndexedProgram.perform next operations).bind _).map _ =
        (performEach Program.perform next.program operations).bind _
      rw [← hyp (inStep.perform first)]
      cases performEach IndexedProgram.perform next operations <;> rfl

theorem program_of_performAll (inStep : indexed.InStep) {operations : List Operation}
    {answers : List Handed} (performed : indexed.performAll operations = some (next, answers)) :
    indexed.program.performAll operations = some (next.program, answers) := by
  rw [← performAll_program inStep, performed]
  rfl

/-- Every sequence of operations leaves the indexes in step. -/
theorem InStep.performAll (inStep : indexed.InStep) {operations : List Operation}
    {answers : List Handed} (performed : indexed.performAll operations = some (next, answers)) :
    next.InStep := by
  induction operations generalizing indexed answers with
  | nil =>
    cases performed
    exact inStep
  | cons operation operations hyp =>
    obtain ⟨_, _, _, first, rest, -⟩ := performEach_cons_eq_some.mp performed
    exact hyp (inStep.perform first) rest

/-- The indexes are inverse to the tables: a name is found exactly at the one identifier that has it. -/
structure Inverse (indexed : IndexedProgram) : Prop where
  classes : ∀ name id,
    indexed.classNamed? name = some id ↔ (indexed.program.class? id).map Class.name = some name
  members : ∀ text id, indexed.memberNamed? text = some id ↔ indexed.program.member? id = some text
  distinctClasses : indexed.program.classNames.Nodup
  distinctMembers : indexed.program.members.toList.Nodup

theorem InStep.inverse (inStep : indexed.InStep) (consistent : indexed.program.Consistent) :
    indexed.Inverse where
  classes name id := by
    rw [inStep.classes]
    exact Program.classNamed?_eq_some_iff consistent.distinctClasses
  members text id := by
    rw [inStep.members]
    exact Program.memberNamed?_eq_some_iff consistent.distinctMembers
  distinctClasses := consistent.distinctClasses
  distinctMembers := consistent.distinctMembers

/-- **After every sequence of operations** on the empty program the tables are those of the program
without indexes, the indexes hold what a search of the tables finds and are inverse to them, what was
handed out stands for what was asked for, every name that an identifier has had after a part of
the operations it still has, the classes list every method and every field once, and the member of a
method is its signature. -/
theorem performAll_sound {operations : List Operation} {built : IndexedProgram} {answers : List Handed}
    (performed : IndexedProgram.performAll {} operations = some (built, answers)) :
    Program.performAll {} operations = some (built.program, answers) ∧ built.InStep ∧ built.Inverse ∧
    List.Forall₂ built.program.Denotes operations answers ∧
    (∀ earlier later, operations = earlier ++ later → ∃ before handed others,
      IndexedProgram.performAll {} earlier = some (before, handed) ∧ answers = handed ++ others ∧
      before.program.KeepsNames built.program) ∧
    built.program.ListedOnce ∧
    ∀ id method, built.program.method? id = some method → built.program.member? method.member =
      some (built.program.signature method.name method.params) := by
  have inStep := InStep.empty.performAll performed
  have alone := program_of_performAll .empty performed
  have consistent := (Program.performAll_edits alone).consistent
  refine ⟨alone, inStep, inStep.inverse consistent, Program.performAll_denotes alone, ?_,
    consistent.listedOnce,
    fun id method found => (consistent.heads method (Array.mem_of_getElem? found)).member⟩
  rintro earlier later rfl
  obtain ⟨before, handed, others, first, rest, same⟩ := performEach_append.mp performed
  have earlierAlone := program_of_performAll .empty first
  have laterAlone := program_of_performAll (InStep.empty.performAll first) rest
  have grows := (Program.performAll_edits laterAlone).grows
  exact ⟨before, handed, others, first, same,
    grows.keepsNames (Program.performAll_edits earlierAlone).consistent⟩

/-- An interface that is added twice and a class, with a member signature that is known before any
method declares it, and a parameter of a class that comes after the owner. -/
def sampleOperations : List Operation :=
  [.addMember "area(Base)", .addClass "Shape", .changeClass ⟨0⟩ (.isInterface true), .addClass "Base",
    .changeClass ⟨1⟩ (.interfaces [⟨0⟩]), .addMethod ⟨0⟩ "area" [.object ⟨1⟩] none,
    .changeMethod ⟨0⟩ (.isAbstract true), .addClass "Shape", .addMethod ⟨1⟩ "area" [.object ⟨1⟩] none,
    .addField ⟨1⟩ "next" (.array (.object ⟨0⟩)), .addStatement ⟨1⟩ (.load ⟨0⟩), .setEntry ⟨1⟩]

theorem performAll_sound_sample : ∃ built : IndexedProgram,
    IndexedProgram.performAll {} sampleOperations = some (built,
      [.memberId ⟨0⟩, .classId ⟨0⟩, .nothing, .classId ⟨1⟩, .nothing, .methodId ⟨0⟩, .nothing, .classId ⟨0⟩,
        .methodId ⟨1⟩, .fieldId ⟨0⟩, .position 0, .nothing]) ∧
    built.Inverse ∧ built.program.ListedOnce ∧ built.program.member? ⟨0⟩ = some "area(Base)" := by
  obtain ⟨⟨built, answers⟩, performed⟩ := Option.isSome_iff_exists.mp
    (by decide +kernel : (IndexedProgram.performAll {} sampleOperations).isSome = true)
  have given : (IndexedProgram.performAll {} sampleOperations).map Prod.snd = some
      [.memberId ⟨0⟩, .classId ⟨0⟩, .nothing, .classId ⟨1⟩, .nothing, .methodId ⟨0⟩, .nothing, .classId ⟨0⟩,
        .methodId ⟨1⟩, .fieldId ⟨0⟩, .position 0, .nothing] := by decide +kernel
  rw [performed] at given
  cases given
  obtain ⟨-, -, inverse, denotes, -, listedOnce, -⟩ := performAll_sound performed
  refine ⟨built, performed, inverse, listedOnce, ?_⟩
  cases denotes with
  | cons first _ =>
    cases first with
    | newMember known => exact known

end IndexedProgram

end CallFlow
