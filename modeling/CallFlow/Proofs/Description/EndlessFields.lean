/-
**Descriptions over which the loader hangs.**

Nothing forbids superclasses to form a cycle, and a description with a cycle is accepted as long as no search
for a field runs into it. It needs one method more, which stores or loads a field that no class of the
cycle has, and the loader comes to that statement and never ends.

* `Description.SameClasses`: two descriptions differ at most in the methods of their classes.
* `Description.firstFails_withMethod`: one more method, of which the first statement is wrong.
* `Description.Outlines.neverEnds_iff`: the searches for fields that never end.
* `Description.HangsOver`, `Description.exists_hangsOver`: over a cycle the loader can be made to hang.
* `Hierarchy.walks_endOrNever`: walks up the superclasses end soon or never.
-/

import Mathlib.Data.Finset.Preimage
import Mathlib.Data.Set.Finite.Basic
import CallFlow.Proofs.Description.Acceptance
import CallFlow.Proofs.Description.InRange
import CallFlow.Proofs.Description.Spelling
import CallFlow.Proofs.Hierarchy.EndlessWalks

namespace CallFlow

namespace Description

/-! ### Descriptions with the same classes -/

/-- A class apart from its methods. -/
def Class.withoutMethods (info : Class) : Class := { info with methods := [] }

/-- Two descriptions differ at most in the methods of their classes, and in their entries. -/
def SameClasses (first second : Description) : Prop :=
  first.classes.map Class.withoutMethods = second.classes.map Class.withoutMethods

namespace SameClasses

variable {first second : Description}

theorem symm (same : SameClasses first second) : SameClasses second first := Eq.symm same

variable (same : SameClasses first second)
include same

theorem classNames : first.classes.map Class.name = second.classes.map Class.name := by
  have names := congrArg (List.map Class.name) same
  rw [List.map_map, List.map_map] at names
  exact names

theorem exists_class {index : Nat} {written : Class} (isWritten : first.classes[index]? = some written) :
    ∃ other, second.classes[index]? = some other ∧ other.name = written.name ∧
      other.superclass = written.superclass ∧ other.interfaces = written.interfaces ∧
      other.fields = written.fields := by
  have here := congrArg (·[index]?) same
  simp only [List.getElem?_map, isWritten, Option.map_some] at here
  obtain ⟨other, isOther, alike⟩ := Option.map_eq_some_iff.mp here.symm
  exact ⟨other, isOther, (congrArg Class.name alike :), (congrArg Class.superclass alike :),
    (congrArg Class.interfaces alike :), (congrArg Class.fields alike :)⟩

/-- Names stand for the same classes. -/
theorem named {name : String} {id : ClassId} (named : first.Named name id) : second.Named name id := by
  obtain ⟨written, isWritten, rfl⟩ := named
  obtain ⟨other, isOther, sameName, -⟩ := same.exists_class isWritten
  exact ⟨other, isOther, sameName⟩

theorem ownedFields : first.ownedFields = second.ownedFields := by
  have byClass (description : Description) : description.ownedFields =
      (description.classes.map Class.withoutMethods).zipIdx.flatMap fun item =>
        item.1.fields.map fun field => (⟨item.2⟩, field) := by
    unfold Description.ownedFields numberedClasses
    rw [List.zipIdx_map, List.flatMap_map, List.flatMap_map]
    rfl
  rw [byClass first, byClass second, same]

/-- Fields are found where they were found. -/
theorem findsField {name : String} {id : ClassId} {field : FieldId}
    (finds : first.FindsField name id field) : second.FindsField name id field := by
  induction finds with
  | own declares => exact .own (same.ownedFields ▸ declares)
  | inherited isWritten lacks extending named _ hyp =>
    obtain ⟨other, isOther, -, superclass, -, fields⟩ := same.exists_class isWritten
    exact .inherited isOther (fields ▸ lacks) (superclass.trans extending) (same.named named) hyp

theorem lacksField {name : String} {id : ClassId} (lacks : first.LacksField name id) :
    second.LacksField name id := by
  induction lacks with
  | top isWritten lacks ends =>
    obtain ⟨other, isOther, -, superclass, -, fields⟩ := same.exists_class isWritten
    exact .top isOther (fields ▸ lacks) (superclass.trans ends)
  | inherited isWritten lacks extending named _ hyp =>
    obtain ⟨other, isOther, -, superclass, -, fields⟩ := same.exists_class isWritten
    exact .inherited isOther (fields ▸ lacks) (superclass.trans extending) (same.named named) hyp

theorem fieldReferred {reference : String} {field : FieldId}
    (referred : first.FieldReferred reference field) : second.FieldReferred reference field := by
  obtain ⟨owner, name, id, splits, named, finds⟩ := referred
  exact ⟨owner, name, id, splits, same.named named, same.findsField finds⟩

theorem wellReferencedStatement {statement : Statement}
    (wellReferenced : first.WellReferencedStatement statement) :
    second.WellReferencedStatement statement := by
  cases wellReferenced with
  | new named => exact .new (same.named named)
  | newArray element => exact .newArray element
  | store referred => exact .store (same.fieldReferred referred)
  | load referred => exact .load (same.fieldReferred referred)
  | invoke kind method named => exact .invoke kind method (same.named named)
  | other => exact .other

end SameClasses

/-! ### One more method -/

/-- The class with one more method, after its others. -/
def Class.withMethod (info : Class) (method : Method) : Class :=
  { info with methods := info.methods ++ [method] }

/-- The description with one more method in a class. -/
def withMethod (description : Description) (id : ClassId) (method : Method) : Description :=
  { description with classes := description.classes.modify id.index (·.withMethod method) }

variable {description : Description}

theorem sameClasses_withMethod (description : Description) (id : ClassId) (method : Method) :
    SameClasses description (description.withMethod id method) := by
  refine List.ext_getElem? fun index => ?_
  unfold withMethod
  rw [List.getElem?_map, List.getElem?_map, List.getElem?_modify]
  cases description.classes[index]? with
  | none => rfl
  | some info =>
    show some info.withoutMethods = some (if id.index = index then _ else _ : Class).withoutMethods
    split <;> rfl

/-- What follows checks that pass fails first where it failed first alone. -/
theorem firstFails_of_pass {earlier later : List Check} {error : LoadError}
    (pass : ∀ check ∈ earlier, ∀ error, ¬ description.Fails check error)
    (fails : description.FirstFails later error) : description.FirstFails (earlier ++ later) error :=
  firstFails_append.mpr (.inr ⟨not_firstFails_iff.mpr pass, fails⟩)

/-- **The loader comes to a method that is added.** If everything else is declared, it fails over the first
statement of the method, if that is wrong. -/
theorem firstFails_withMethod {id : ClassId} {info : Class} {method : Method} {statement : Statement}
    {rest : List Statement} {cause : LoadError} (wellReferenced : description.WellReferenced)
    (isClass : description.classes[id.index]? = some info) (body : method.body = statement :: rest)
    (fails : (description.withMethod id method).StatementFails statement cause) :
    (description.withMethod id method).FirstFails (description.withMethod id method).checks
      (.inMethod (info.name ++ "." ++ method.signature) cause) := by
  have same := description.sameClasses_withMethod id method
  have distinct := same.classNames ▸ wellReferenced.distinct
  have names : ∀ check ∈ nameChecks [] (description.withMethod id method).classes, ∀ error,
      ¬ (description.withMethod id method).Fails check error :=
    nameChecks_pass.mpr ⟨distinct, fun _ _ => List.not_mem_nil⟩
  have supertypes : ∀ check ∈ (description.withMethod id method).classes.flatMap supertypeChecks,
      ∀ error, ¬ (description.withMethod id method).Fails check error := by
    unfold supertypeChecks
    simp only [List.forall_mem_flatMap, List.forall_mem_map, supertype_passes]
    intro written among name mentioned
    obtain ⟨index, isWritten⟩ := List.mem_iff_getElem?.mp among
    obtain ⟨other, isOther, -, superclass, interfaces, -⟩ := same.symm.exists_class isWritten
    rw [← superclass, ← interfaces] at mentioned
    obtain ⟨known, named⟩ :=
      wellReferenced.supertypes other (List.mem_of_getElem? isOther) name mentioned
    exact ⟨known, same.named named⟩
  have bodies (written : Class) (among : written ∈ description.classes) :
      ∀ check ∈ written.methods.flatMap (bodyChecks written), ∀ error,
        ¬ (description.withMethod id method).Fails check error := by
    unfold bodyChecks
    simp only [List.forall_mem_flatMap, List.forall_mem_map, statement_passes distinct]
    exact fun other listed statement stands =>
      same.wellReferencedStatement (wellReferenced.statements written among other listed statement stands)
  obtain ⟨inside, here⟩ := List.getElem?_eq_some_iff.mp isClass
  have split : (description.withMethod id method).classes = description.classes.take id.index ++
      info.withMethod method :: description.classes.drop (id.index + 1) := by
    rw [← here]
    exact List.modify_eq_take_cons_drop inside
  have added : (info.withMethod method).methods.flatMap (bodyChecks (info.withMethod method)) =
      info.methods.flatMap (bodyChecks info) ++ (.statement (info.name ++ "." ++ method.signature) statement ::
        rest.map (.statement (info.name ++ "." ++ method.signature))) := by
    show (info.methods ++ [method]).flatMap (bodyChecks info) = _
    rw [List.flatMap_append, List.flatMap_singleton]
    unfold bodyChecks
    rw [body, List.map_cons]
  have before : ∀ check ∈ (description.classes.take id.index).flatMap fun written =>
      written.methods.flatMap (bodyChecks written), ∀ error,
      ¬ (description.withMethod id method).Fails check error := by
    rw [List.forall_mem_flatMap]
    exact fun written among => bodies written (List.mem_of_mem_take among)
  unfold checks
  rw [List.append_assoc, List.append_assoc]
  refine firstFails_of_pass names (firstFails_of_pass supertypes ?_)
  rw [split, List.flatMap_append, List.flatMap_cons, added, List.append_assoc, List.append_assoc,
    List.append_assoc]
  exact firstFails_of_pass before (firstFails_of_pass (bodies info (List.mem_of_getElem? isClass))
    (.here (.statement _ fails)))

/-! ### Names of no field -/

theorem exists_fresh_name (names : List String) : ∃ name, name ∉ names ∧ '.' ∉ name.toList := by
  have injective : Function.Injective fun count => String.ofList (List.replicate count 'f') := by
    intro first second same
    have lengths := congrArg (fun text => text.toList.length) same
    simpa using lengths
  obtain ⟨count, fresh⟩ := Infinite.exists_notMem_finset (names.toFinset.preimage _ injective.injOn)
  refine ⟨String.ofList (List.replicate count 'f'), by simpa using fresh, ?_⟩
  simp

/-! ### Searches that never end -/

section Outlines

variable {program : Program} (outlines : Outlines description program)
include outlines

theorem Outlines.edgesInRange : program.EdgesInRange := by
  refine Program.edgesInRange_of_supertypes fun id info isClass next edge => ?_
  obtain ⟨written, _, mirrors⟩ := outlines.exists_written isClass
  exact mirrors.isClass edge

/-- **A search for a field never ends exactly if the description neither has the field nor says that there
is none.** -/
theorem Outlines.neverEnds_iff {id : ClassId} (isClass : (program.class? id).isSome = true)
    (name : String) : program.NeverEnds (fun _ info => program.ownField? info name) id ↔
      ¬ description.LacksField name id ∧ ∀ field, ¬ description.FindsField name id field := by
  have outcome := outlines.edgesInRange.lookupField_outcome isClass name
  constructor
  · intro never
    have looked := outcome.unanswered_iff.mpr never
    refine ⟨fun lacks => ?_, fun field finds => ?_⟩
    · rw [← outlines.lookupField_eq_none_iff, looked] at lacks
      cases lacks
    · rw [← outlines.lookupField_eq_some_iff, looked] at finds
      cases finds
  · rintro ⟨lacks, finds⟩
    by_contra ends
    obtain ⟨answer, looked⟩ := outcome.answered_iff.mpr ends
    cases answer with
    | none => exact lacks (outlines.lookupField_eq_none_iff.mp looked)
    | some field => exact finds field (outlines.lookupField_eq_some_iff.mp looked)

end Outlines

/-! ### Loading that never ends -/

/-- The loader hangs over a reference to a field in the body of a method. There is a text of the description,
and everything before the reference is accepted. But the search for the field never ends, whichever bodies
have been filled in by then. -/
structure HangsOver (description : Description) (reference method : String) : Prop where
  search : ∃ owner name id, SplitsAtDot reference owner name ∧ description.Named owner id ∧
    ∀ reached, Outlines description reached →
      reached.NeverEnds (fun _ info => reached.ownField? info name) id
  stops : ∃ text, description.SpelledBy text ∧
    Program.ofText text = .error (.load (.inMethod method (.endlessField reference)))

/-- A well referenced description with one more method, of which the first statement stores or loads a
field that is searched for ever, makes the loader hang. -/
theorem hangsOver_withMethod (wellReferenced : description.WellReferenced) {id : ClassId} {written : Class}
    (isWritten : description.classes[id.index]? = some written) {name : String} (dotless : '.' ∉ name.toList)
    (unfound : ¬ description.LacksField name id ∧ ∀ field, ¬ description.FindsField name id field)
    {statement : Statement}
    (among : statement ∈ [.store (written.name ++ "." ++ name), .load (written.name ++ "." ++ name)])
    {method : Method} {rest : List Statement} (body : method.body = statement :: rest) :
    (description.withMethod id method).HangsOver (written.name ++ "." ++ name)
      (written.name ++ "." ++ method.signature) := by
  have same := description.sameClasses_withMethod id method
  have distinct := same.classNames ▸ wellReferenced.distinct
  have splits : SplitsAtDot (written.name ++ "." ++ name) written.name name := ⟨rfl, dotless⟩
  have named : (description.withMethod id method).Named written.name id :=
    same.named ⟨written, isWritten, rfl⟩
  have unfoundThere : ¬ (description.withMethod id method).LacksField name id ∧
      ∀ field, ¬ (description.withMethod id method).FindsField name id field :=
    ⟨fun lacks => unfound.1 (same.symm.lacksField lacks),
      fun field finds => unfound.2 field (same.symm.findsField finds)⟩
  refine ⟨⟨written.name, name, id, splits, named, fun reached outlines => ?_⟩, ?_⟩
  · obtain ⟨other, isOther, -⟩ := same.exists_class isWritten
    obtain ⟨found, isFound, -⟩ := outlines.exists_class isOther
    exact (outlines.neverEnds_iff (by rw [isFound]; rfl) name).mpr unfoundThere
  · have reference : (description.withMethod id method).ReferenceFails (written.name ++ "." ++ name)
        (.endlessField (written.name ++ "." ++ name)) :=
      .endless splits named fun other others => named.unique distinct others ▸ unfoundThere
    have wrong : (description.withMethod id method).StatementFails statement
        (.endlessField (written.name ++ "." ++ name)) := by
      rcases List.mem_pair.mp among with rfl | rfl
      · exact .store reference
      · exact .load reference
    have first := firstFails_withMethod wellReferenced isWritten body wrong
    obtain ⟨text, spelled⟩ := exists_spelledBy (description.withMethod id method)
    refine ⟨text, spelled, ?_⟩
    rw [Program.ofText_of_described spelled.ofText, (resolve_decides _ _).mpr first]
    rfl

/-- **Over a cycle the loader can be made to hang.** Let a method be added to a class on a cycle that begins
by storing or loading a field of which no class has the name. The loader comes to this statement, and
hangs. -/
theorem exists_hangsOver {program : Program} (resolved : description.resolve = .ok program)
    {id : ClassId} (onCycle : program.OnCycle id) :
    ∃ reference, ∀ statement ∈ [Statement.store reference, .load reference],
      ∀ method rest, method.body = statement :: rest →
        (description.withMethod id method).HangsOver reference
          (program.className id ++ "." ++ method.signature) := by
  obtain ⟨edits, mirrors⟩ := mirrors_of_resolve resolved
  have outlines := mirrors.outlines edits
  obtain ⟨info, next, isClass, above, back⟩ := onCycle
  obtain ⟨written, isWritten, sameClass⟩ := outlines.exists_written isClass
  obtain ⟨name, fresh, dotless⟩ := exists_fresh_name
    (description.classes.flatMap fun info => info.fields.map Field.name)
  have nothing : program.NoneOnChain (fun _ info => program.ownField? info name) id := by
    intro upper upperInfo _ isUpper
    obtain ⟨text, isText, -⟩ := outlines.exists_written isUpper
    refine (outlines.ownField_eq_none_iff isUpper isText).mpr fun record among named => fresh ?_
    exact List.mem_flatMap.mpr ⟨text, List.mem_of_getElem? isText, List.mem_map.mpr ⟨record, among, named⟩⟩
  have never : program.NeverEnds (fun _ info => program.ownField? info name) id :=
    Program.neverEnds_iff.mpr ⟨⟨id, .refl id, info, next, isClass, above, back⟩, nothing⟩
  have unfound := (outlines.neverEnds_iff (by rw [isClass]; rfl) name).mp never
  have wellReferenced : description.WellReferenced := wellReferenced_iff.mpr fun error fails => by
    rw [← resolve_decides description error, resolved] at fails
    cases fails
  have className : program.className id = written.name := by
    rw [Program.className, isClass]
    exact sameClass.name
  rw [className]
  exact ⟨written.name ++ "." ++ name, fun statement among method rest body =>
    hangsOver_withMethod wellReferenced isWritten dotless unfound among body⟩

end Description

/-! ### Walks -/

namespace Hierarchy

/-- **Walks up the superclasses end soon or never.** From every class, the walk for a member and the walk for
a field end within as many steps as there are classes, or they never end; they never end exactly if the
superclass chain of the class runs into a cycle and no class on it declares the member, or has the field. What
runs on a receiver, what a call names and which field is meant has an answer exactly if the walk ends. So
it always has one if no superclasses form a cycle. Where some do, a description that was accepted needs but
one method more, and the loader hangs over a store or a load. -/
theorem walks_endOrNever (hierarchy : Hierarchy) :
    (∀ id, (hierarchy.program.class? id).isSome = true →
      (∀ member,
        hierarchy.program.WalkOutcome (fun candidate _ => hierarchy.program.declared? candidate member) id
          (hierarchy.dispatch id member) ∧
        hierarchy.program.WalkOutcome (fun candidate _ => hierarchy.program.declared? candidate member) id
          (hierarchy.resolve ⟨id, member⟩)) ∧
      ∀ name, hierarchy.program.WalkOutcome (fun _ info => hierarchy.program.ownField? info name) id
        (hierarchy.program.lookupField id name)) ∧
    ((∀ id, ¬ hierarchy.program.OnCycle id) → ∀ id, (hierarchy.program.class? id).isSome = true →
      (∀ member, (∃ answer, hierarchy.dispatch id member = .ok answer) ∧
        ∃ answer, hierarchy.resolve ⟨id, member⟩ = .ok answer) ∧
      ∀ name, ∃ answer, hierarchy.program.lookupField id name = .ok answer) ∧
    ∀ (description : Description) (program : Program), description.resolve = .ok program →
      ∀ id, program.OnCycle id →
        ∃ reference, ∀ statement ∈ [Description.Statement.store reference, .load reference],
          ∀ method rest, method.body = statement :: rest →
            (description.withMethod id method).HangsOver reference
              (program.className id ++ "." ++ method.signature) := by
  have inRange := hierarchy.edgesInRange
  refine ⟨fun id isClass => ⟨fun member => ⟨dispatch_outcome isClass member, resolve_outcome isClass member⟩,
    inRange.lookupField_outcome isClass⟩, fun acyclic id isClass => ?_,
    fun description program resolved id => Description.exists_hangsOver resolved⟩
  have straight : ¬ hierarchy.program.RunsIntoCycle id := fun ⟨again, _, onCycle⟩ => acyclic again onCycle
  exact ⟨fun member => ⟨(dispatch_outcome isClass member).answered straight,
    (resolve_outcome isClass member).answered straight⟩,
    fun name => (inRange.lookupField_outcome isClass name).answered straight⟩

/-- Two classes extend each other, and a third one extends the first of them. -/
def twistedDescription : Description where
  classes := [
    { name := "Low", superclass := some "Left", methods := [{ name := "stop" }] },
    { name := "Left", superclass := some "Right", methods := [{ name := "run" }] },
    { name := "Right", superclass := some "Left" }]

/-- The program of the description. -/
def twisted : Program where
  classes := #[
    { name := "Low", superclass := some ⟨1⟩, methods := [⟨0⟩] },
    { name := "Left", superclass := some ⟨2⟩, methods := [⟨1⟩] },
    { name := "Right", superclass := some ⟨1⟩ }]
  methods := #[
    { owner := ⟨0⟩, name := "stop", member := ⟨0⟩, params := [], result := none },
    { owner := ⟨1⟩, name := "run", member := ⟨1⟩, params := [], result := none }]
  members := #["stop()", "run()"]

/-- The hierarchy of the program. -/
def twistedHierarchy : Hierarchy := ⟨twisted, by decide, _, rfl⟩

/-- Below the cycle both members are found, on the cycle only the one that it declares. One class of the
cycle is enough to make the loader hang. -/
theorem walks_endOrNever_twisted :
    twistedHierarchy.dispatch ⟨0⟩ ⟨0⟩ = .ok (some ⟨0⟩) ∧
    twistedHierarchy.dispatch ⟨2⟩ ⟨1⟩ = .ok (some ⟨1⟩) ∧
    twistedHierarchy.dispatch ⟨2⟩ ⟨0⟩ = .error .endlessWalk ∧
    (twisted.NeverEnds (fun candidate _ => twisted.declared? candidate ⟨0⟩) ⟨2⟩ ∧
      twisted.RunsIntoCycle ⟨2⟩) ∧
    ∃ reference, (twistedDescription.withMethod ⟨2⟩ { name := "hang", body := [.load reference] }).HangsOver
      reference "Right.hang()" := by
  have unanswered : twistedHierarchy.dispatch ⟨2⟩ ⟨0⟩ = .error .endlessWalk := by decide +kernel
  have resolved : twistedDescription.resolve = .ok twisted := by decide +kernel
  have onCycle : twisted.OnCycle ⟨2⟩ :=
    ⟨twisted.classes[2], ⟨1⟩, rfl, rfl, .step rfl rfl (.refl ⟨2⟩)⟩
  obtain ⟨fromClass, -, loading⟩ := walks_endOrNever twistedHierarchy
  have outcome := ((fromClass ⟨2⟩ rfl).1 ⟨0⟩).1
  have never := outcome.unanswered_iff.mp unanswered
  obtain ⟨reference, hangs⟩ := loading twistedDescription twisted resolved ⟨2⟩ onCycle
  have hangsOver := hangs (.load reference) (List.mem_pair.mpr (.inr rfl))
    { name := "hang", body := [.load reference] } [] rfl
  exact ⟨by decide +kernel, by decide +kernel, unanswered, ⟨never, (outcome.neverEnds_iff.mp never).1⟩,
    reference, hangsOver⟩

end Hierarchy

end CallFlow
