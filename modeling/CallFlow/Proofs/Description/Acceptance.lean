/-
**Which descriptions are accepted.**

Each pass of the loader goes along a list of places in the description, in order, and stops at the first
one where something is wrong. So the first check that fails decides, and where none does there is a
program, which mirrors the description.

* `Description.Decides`: a pass fails over the first of its checks that fails, and over nothing else.
* `Description.resolve_decides`: the loader as a whole does so.
* `Description.resolve_accepts`: exactly the well referenced descriptions have a program.
-/

import CallFlow.Proofs.Description.Checks

namespace CallFlow

namespace Description

variable (description : Description)

/-! ### Passes -/

/-- A pass fails over the first check that fails, and over nothing else. -/
def Decides {α : Type} (checks : List Check) (outcome : Except LoadError α) : Prop :=
  ∀ error, outcome = .error error ↔ description.FirstFails checks error

variable {description}

/-- What fails in one way is an error exactly where something is wrong. -/
theorem eq_error_iff {α : Type} {outcome : Except LoadError α} {wrong : LoadError → Prop}
    (unique : ∀ {first second}, wrong first → wrong second → first = second)
    (right : ∀ answer, outcome = .ok answer → ∀ error, ¬ wrong error)
    (fails : ∀ error, outcome = .error error → wrong error) {error : LoadError} :
    outcome = .error error ↔ wrong error := by
  refine ⟨fails error, fun isWrong => ?_⟩
  cases outcome with
  | ok answer => exact absurd isWrong (right answer rfl error)
  | error found => rw [unique (fails found rfl) isWrong]

theorem firstFails_singleton {check : Check} {error : LoadError} :
    description.FirstFails [check] error ↔ description.Fails check error := by
  refine ⟨fun fails => ?_, .here⟩
  cases fails with
  | here fails => exact fails
  | later _ fails => cases fails

namespace Decides

variable {α β : Type} {checks more : List Check}

/-- A pass with one check. -/
theorem single {check : Check} {outcome : Except LoadError α}
    (right : ∀ answer, outcome = .ok answer → ∀ error, ¬ description.Fails check error)
    (fails : ∀ error, outcome = .error error → description.Fails check error) :
    description.Decides [check] outcome :=
  fun _ => (eq_error_iff Fails.unique right fails).trans firstFails_singleton.symm

theorem of_ok (answer : α) : description.Decides [] (.ok answer) :=
  fun _ => ⟨nofun, nofun⟩

/-- What follows a pass is looked at if nothing was wrong. -/
theorem bind {outcome : Except LoadError α} {next : α → Except LoadError β}
    (first : description.Decides checks outcome)
    (rest : ∀ answer, outcome = .ok answer → description.Decides more (next answer)) :
    description.Decides (checks ++ more) (outcome >>= next) := by
  intro error
  rw [firstFails_append]
  cases outcome with
  | error found =>
    have fails := (first found).mp rfl
    constructor
    · intro same
      cases same
      exact .inl fails
    · rintro (other | ⟨none, _⟩)
      · rw [fails.unique other]
        rfl
      · exact absurd fails (none found)
  | ok answer =>
    have none error : ¬ description.FirstFails checks error := fun fails =>
      nomatch (first error).mpr fails
    exact (rest answer rfl error).trans ⟨fun fails => .inr ⟨none, fails⟩, fun fails =>
      (fails.resolve_left (none error)).2⟩

/-- What is made of the answer of a pass can not be wrong. -/
theorem map {outcome : Except LoadError α} (first : description.Decides checks outcome)
    (make : α → β) : description.Decides checks (outcome.map make) := by
  intro error
  rw [← first error]
  cases outcome <;> simp [Except.map]

/-- **A pass along a list** comes to its items one by one, in states with a property that it keeps. -/
theorem foldlM {σ ι : Type} {step : σ → ι → Except LoadError σ} {checksOf : ι → List Check}
    {kept : σ → Prop} {items : List ι}
    (each : ∀ item ∈ items, ∀ state, kept state →
      description.Decides (checksOf item) (step state item) ∧
        ∀ next, step state item = .ok next → kept next)
    {state : σ} (start : kept state) :
    description.Decides (items.flatMap checksOf) (items.foldlM step state) := by
  induction items generalizing state with
  | nil => exact .of_ok state
  | cons item rest hyp =>
    obtain ⟨decides, keeps⟩ := each item List.mem_cons_self state start
    rw [List.flatMap_cons, List.foldlM_cons]
    exact decides.bind fun next stepped =>
      hyp (fun later among => each later (List.mem_cons_of_mem _ among)) (keeps next stepped)

theorem mapM {ι : Type} {ask : ι → Except LoadError α} {checkOf : ι → Check} {items : List ι}
    (each : ∀ item, description.Decides [checkOf item] (ask item)) :
    description.Decides (items.map checkOf) (items.mapM ask) := by
  induction items with
  | nil => exact .of_ok []
  | cons item rest hyp =>
    rw [List.mapM_cons]
    exact (each item).bind fun answer _ => hyp.map fun answers => answer :: answers

end Decides

/-! ### Classes -/

/-- The first pass fails over the first name that stands twice. -/
theorem addClasses_decides {classes : List Class} {program : Program} :
    description.Decides (nameChecks program.classNames classes) (addClasses classes program) := by
  induction classes generalizing program with
  | nil => exact .of_ok program
  | cons first rest hyp =>
    unfold addClasses at hyp ⊢
    rw [List.foldlM_cons]
    cases known : program.classNamed? first.name with
    | some id =>
      have taken : first.name ∈ program.classNames := by
        by_contra fresh
        rw [Program.classNamed?_eq_none_iff.mpr fresh] at known
        cases known
      have refused : description.Decides [.className program.classNames first.name]
          (Except.error (LoadError.duplicateClass first.name) : Except LoadError Program) := by
        refine .single (by rintro _ ⟨⟩) fun error same => ?_
        cases same
        exact .className taken
      exact refused.bind (by rintro _ ⟨⟩)
    | none =>
      have fresh := Program.classNamed?_eq_none_iff.mp known
      have added : (program.addClass first.name).1.classNames = program.classNames ++ [first.name] := by
        unfold Program.addClass
        rw [known]
        simp [Program.classNames]
      have accepted : description.Decides [.className program.classNames first.name]
          (Except.ok (program.addClass first.name).1 : Except LoadError Program) := by
        refine .single (fun _ _ error fails => ?_) (by rintro _ ⟨⟩)
        cases fails with
        | className taken => exact fresh taken
      refine accepted.bind fun next same => ?_
      cases same
      rw [← added]
      exact hyp

section Classes

variable {program : Program} (distinct : program.classNames.Nodup)
  (names : program.classNames = description.classes.map Class.name)
include distinct names

theorem classReferred_decides (referrer name : String) :
    description.Decides [.supertype name referrer] (classReferred program name referrer) := by
  refine .single (fun id referred => ?_) fun error failed => ?_
  · have named := classReferred_eq_ok.mp referred
    exact supertype_passes.mpr ⟨id, (classNamed_iff distinct names).mp named⟩
  · unfold classReferred at failed
    cases unknown : program.classNamed? name with
    | some id => rw [unknown] at failed; cases failed
    | none =>
      rw [unknown] at failed
      cases failed
      refine .supertype referrer fun id named => ?_
      rw [← classNamed_iff distinct names, unknown] at named
      cases named

/-- The second pass comes to the superclass and then to the interfaces of a class. -/
theorem setSupertypes_decides (id : ClassId) (written : Class) :
    description.Decides (supertypeChecks written) (setSupertypes program id written) := by
  have superclass : description.Decides
      (written.superclass.toList.map fun name => .supertype name written.name)
      (written.superclass.mapM fun name => classReferred program name written.name) := by
    cases written.superclass with
    | none => exact .of_ok none
    | some name => exact (classReferred_decides distinct names written.name name).map some
  have interfaces : description.Decides
      (written.interfaces.map fun name => .supertype name written.name)
      (written.interfaces.mapM fun name => classReferred program name written.name) :=
    .mapM (classReferred_decides distinct names written.name)
  unfold supertypeChecks setSupertypes
  rw [List.map_append]
  exact superclass.bind fun _ _ => interfaces.map _

end Classes

/-! ### Bodies -/

/-- The methods of a description with their classes, in order of appearance. -/
def placedMethods (description : Description) : List (Class × ClassId × Method) :=
  description.numberedClasses.flatMap fun (info, id) => info.methods.map fun method => (info, id, method)

theorem ownedMethods_eq : description.ownedMethods = description.placedMethods.map Prod.snd := by
  unfold ownedMethods placedMethods
  rw [List.map_flatMap]
  simp only [List.map_map, Function.comp_def]

theorem numberedMethods_eq : description.numberedMethods =
    description.placedMethods.zipIdx.map fun item => (item.1.2.2, ⟨item.2⟩) := by
  unfold numberedMethods
  rw [← map_snd_ownedMethods, ownedMethods_eq, List.map_map, List.zipIdx_map, List.map_map]
  rfl

theorem bodyChecks_eq : (description.classes.flatMap fun info => info.methods.flatMap (bodyChecks info)) =
    description.placedMethods.zipIdx.flatMap fun item => bodyChecks item.1.1 item.1.2.2 := by
  have byPlace : description.placedMethods.zipIdx.map Prod.fst = description.placedMethods :=
    List.zipIdx_map_fst 0 _
  calc (description.classes.flatMap fun info => info.methods.flatMap (bodyChecks info))
      = description.numberedClasses.flatMap fun item =>
          item.1.methods.flatMap (bodyChecks item.1) := by
        rw [← map_fst_numberedClasses, List.flatMap_map]
    _ = description.placedMethods.flatMap fun placed => bodyChecks placed.1 placed.2.2 := by
        unfold placedMethods
        rw [List.flatMap_assoc]
        simp only [List.flatMap_map]
    _ = _ := by
        conv => lhs; rw [← byPlace, List.flatMap_map]

theorem class_of_mem_placedMethods {info : Class} {owner : ClassId} {method : Method}
    (among : (info, owner, method) ∈ description.placedMethods) :
    description.classes[owner.index]? = some info := by
  obtain ⟨⟨written, id⟩, isClass, inClass⟩ := List.mem_flatMap.mp among
  obtain ⟨_, _, same⟩ := List.mem_map.mp inClass
  cases same
  exact mem_numberedClasses.mp isClass

namespace Outlines

variable {program : Program} (outlines : Outlines description program)
include outlines

theorem classReferred_eq_error {name referrer : String} {error : LoadError} :
    classReferred program name referrer = .error error ↔
      (∀ id, ¬ description.Named name id) ∧ error = .unknownClass name referrer := by
  rw [classReferred_decides outlines.consistent.distinctClasses outlines.classNames referrer name error,
    firstFails_singleton]
  constructor
  · rintro ⟨⟩
    next unnamed => exact ⟨unnamed, rfl⟩
  · rintro ⟨unnamed, rfl⟩
    exact .supertype referrer unnamed

/-- **The loader rejects exactly the wrong references.** -/
theorem fieldReferred_eq_error {reference : String} {error : LoadError} :
    fieldReferred program reference = .error error ↔ description.ReferenceFails reference error := by
  refine eq_error_iff ReferenceFails.unique (fun field referred => ?_) fun error failed => ?_
  · exact (reference_passes outlines.distinct).mpr ⟨field, outlines.fieldReferred_iff.mp referred⟩
  · unfold fieldReferred at failed
    cases parts : Text.splitAtLast '.' reference.toList with
    | none =>
      rw [parts] at failed
      cases failed
      exact .undotted (Text.splitAtLast_eq_none_iff.mp parts)
    | some pair =>
      obtain ⟨owner, name⟩ := pair
      have splits := splitsAtDot_of_splitAtLast parts
      rw [parts] at failed
      dsimp only at failed
      cases referred : classReferred program (String.ofList owner) reference with
      | error cause =>
        rw [referred] at failed
        cases failed
        obtain ⟨unnamed, rfl⟩ := outlines.classReferred_eq_error.mp referred
        exact .undeclared splits unnamed
      | ok id =>
        have named := outlines.classNamed_iff.mp (classReferred_eq_ok.mp referred)
        rw [referred] at failed
        dsimp only [bind, Except.bind] at failed
        rcases looked : program.lookupField id (String.ofList name) with fault | _ | field <;>
          rw [looked] at failed <;> cases failed
        · refine .endless splits named fun other others => ?_
          obtain rfl := named.unique outlines.distinct others
          rw [← outlines.lookupField_eq_none_iff, looked]
          refine ⟨nofun, fun field finds => ?_⟩
          rw [← outlines.lookupField_eq_some_iff, looked] at finds
          cases finds
        · exact .lacking splits named (outlines.lookupField_eq_none_iff.mp looked)

theorem resolveStatement_eq_error {statement : Statement} {error : LoadError} :
    resolveStatement program statement = .error error ↔
      description.StatementFails statement error := by
  have passed {α β : Type} {outcome : Except LoadError α} {make : α → β} :
      outcome.map make = .error error ↔ outcome = .error error := by
    cases outcome <;> simp [Except.map]
  cases statement with
  | new name =>
    have same : resolveStatement program (.new name) =
        (classReferred program name "new").map fun id => (program, .new id) := rfl
    rw [same, passed, outlines.classReferred_eq_error]
    constructor
    · rintro ⟨unnamed, rfl⟩
      exact .new unnamed
    · rintro ⟨⟩
      next unnamed => exact ⟨unnamed, rfl⟩
  | newArray element => exact ⟨by rintro ⟨⟩, by rintro ⟨⟩⟩
  | store reference =>
    have same : resolveStatement program (.store reference) =
        (fieldReferred program reference).map fun field => (program, .store field) := rfl
    rw [same, passed, outlines.fieldReferred_eq_error]
    refine ⟨.store, fun fails => ?_⟩
    cases fails with
    | store fails => exact fails
  | load reference =>
    have same : resolveStatement program (.load reference) =
        (fieldReferred program reference).map fun field => (program, .load field) := rfl
    rw [same, passed, outlines.fieldReferred_eq_error]
    refine ⟨.load, fun fails => ?_⟩
    cases fails with
    | load fails => exact fails
  | invoke kind className method =>
    have same : resolveStatement program (.invoke kind className method) =
        (classReferred program className "invoke").map fun owner =>
          let added := program.addMember (Text.removeBlanks method)
          (added.1, .invoke ⟨CallKind.ofName kind, ⟨owner, added.2⟩⟩) := rfl
    rw [same, passed, outlines.classReferred_eq_error]
    constructor
    · rintro ⟨unnamed, rfl⟩
      exact .invoke kind method unnamed
    · rintro ⟨⟩
      next unnamed => exact ⟨unnamed, rfl⟩
  | other => exact ⟨by rintro ⟨⟩, by rintro ⟨⟩⟩

theorem addStatement_decides (id : MethodId) (statement : Statement) :
    description.Decides [.statement (program.methodName id) statement]
      (addStatement id program statement) := by
  refine .single (fun next added error fails => ?_) fun error failed => ?_
  · cases fails with
    | statement _ fails =>
      unfold addStatement at added
      rw [outlines.resolveStatement_eq_error.mpr fails] at added
      cases added
  · unfold addStatement at failed
    cases resolved : resolveStatement program statement with
    | ok result => rw [resolved] at failed; cases failed
    | error cause =>
      rw [resolved] at failed
      cases failed
      exact .statement _ (outlines.resolveStatement_eq_error.mp resolved)

/-- The full name of a method is spelled as its description spells it. -/
theorem methodName_eq {index : Nat} {info : Class} {owner : ClassId} {method : Method}
    (here : description.placedMethods[index]? = some (info, owner, method)) :
    program.methodName ⟨index⟩ = info.name ++ "." ++ method.signature := by
  have owned : description.ownedMethods[index]? = some (owner, method) := by
    rw [ownedMethods_eq, List.getElem?_map, here]
    rfl
  obtain ⟨record, isMethod, mirrors⟩ := (forall₂_toList_iff.mp outlines.methods).2 index _ owned
  have isMethod : program.method? ⟨index⟩ = some record := isMethod
  obtain ⟨known, isClass, sameName⟩ :=
    outlines.exists_class (class_of_mem_placedMethods (List.mem_of_getElem? here))
  have isOwner : program.class? record.owner = some known := mirrors.owner ▸ isClass
  unfold Program.methodName Program.targetName Program.className Program.memberName
  rw [isMethod, Option.elim_some, isOwner, Option.elim_some, sameName.name,
    mirrors.member outlines.consistent isMethod, Option.getD_some]

/-- The pass over the bodies comes to the statements one by one. -/
theorem addBodies_decides :
    description.Decides (description.classes.flatMap fun info => info.methods.flatMap (bodyChecks info))
      (description.numberedMethods.foldlM (fun program (written, id) => addBody program id written)
        program) := by
  have each : ∀ item ∈ description.placedMethods.zipIdx, ∀ state, Outlines description state →
      description.Decides (bodyChecks item.1.1 item.1.2.2) (addBody state ⟨item.2⟩ item.1.2.2) ∧
        ∀ next, addBody state ⟨item.2⟩ item.1.2.2 = .ok next → Outlines description next := by
    rintro ⟨⟨info, owner, method⟩, index⟩ among state outlines
    have here := List.mem_zipIdx_iff_getElem?.mp among
    refine ⟨?_, fun next added => (addBody_translates added).1.outlines outlines⟩
    unfold bodyChecks addBody
    rw [List.map_eq_flatMap]
    refine .foldlM (fun statement _ state outlines => ⟨?_, fun next added =>
      (addStatement_translates added).1.outlines outlines⟩) outlines
    rw [← outlines.methodName_eq here]
    exact outlines.addStatement_decides ⟨index⟩ statement
  rw [bodyChecks_eq, numberedMethods_eq, List.foldlM_map]
  exact .foldlM each outlines

theorem setEntry_decides (entry : Option String) :
    description.Decides (entry.toList.map .entry) (setEntry entry program) := by
  cases entry with
  | none => exact .of_ok program
  | some name =>
    have referred : description.Decides [.entry name] (methodReferred program name) := by
      refine .single (fun method referred => ?_) fun error failed => ?_
      · exact entry_passes.mpr ⟨method, outlines.methodReferred_iff.mp referred⟩
      · have unresolved method : ¬ description.MethodReferred name method := by
          rw [← outlines.methodReferred_iff, failed]
          nofun
        unfold methodReferred at failed
        split at failed <;> cases failed
        exact .entry unresolved
    have chosen : setEntry (some name) program =
        (methodReferred program name).map fun method => { program with entry := some method } := by
      unfold setEntry
      dsimp only
      cases methodReferred program name <;> rfl
    rw [chosen]
    exact referred.map _

end Outlines

/-! ### The whole -/

/-- The second pass comes to the supertypes of one class after the other. -/
theorem setAllSupertypes_decides {program : Program} (distinct : program.classNames.Nodup)
    (names : program.classNames = description.classes.map Class.name) :
    description.Decides (description.classes.flatMap supertypeChecks)
      (description.numberedClasses.foldlM (fun program (written, id) => setSupertypes program id written)
        program) := by
  have each : ∀ item ∈ description.numberedClasses, ∀ state : Program,
      state.classNames = program.classNames →
      description.Decides (supertypeChecks item.1) (setSupertypes state item.2 item.1) ∧
        ∀ next, setSupertypes state item.2 item.1 = .ok next → next.classNames = program.classNames := by
    intro item _ state same
    exact ⟨setSupertypes_decides (same ▸ distinct) (same.trans names) item.2 item.1,
      fun next updated => (changesClasses_of_setSupertypes updated).classNames.trans same⟩
  have visited : description.classes.flatMap supertypeChecks =
      description.numberedClasses.flatMap fun item => supertypeChecks item.1 := by
    rw [← map_fst_numberedClasses, List.flatMap_map]
  rw [visited]
  exact .foldlM each rfl

/-- **The loader fails over the first check of a description that fails**, and over nothing else. -/
theorem resolve_decides (description : Description) :
    description.Decides description.checks description.resolve := by
  have classes : description.Decides (nameChecks [] description.classes)
      (addClasses description.classes {}) := addClasses_decides
  unfold checks resolve
  simp only [foldl_addFields, foldl_addMethods]
  rw [List.append_assoc, List.append_assoc]
  refine classes.bind fun first named => ?_
  obtain ⟨edits, same⟩ := addClasses_eq_ok named
  have names : first.classNames = description.classes.map Class.name := by
    rw [same]
    simp [Program.classNames]
  refine (setAllSupertypes_decides edits.consistent.distinctClasses names).bind fun second updated => ?_
  obtain ⟨outlines, _, heads⟩ := outlines_of_passes named updated rfl rfl
  refine outlines.addBodies_decides.bind fun fifth filled => ?_
  exact ((methods_of_addBodies heads filled).1.outlines outlines).setEntry_decides description.entry

/-! ### Faithful programs -/

/-- A program is what a description means, place by place. Its classes list what they own in order of
appearance, and every name stands in it for what it stands for in the description. -/
structure Faithful (description : Description) (program : Program) : Prop
    extends Mirrors description program where
  fieldLists : ∀ id info, program.class? id = some info →
    Lists (description.ownedFields.map Prod.fst) id (info.fields.map FieldId.index)
  methodLists : ∀ id info, program.class? id = some info →
    Lists (description.ownedMethods.map Prod.fst) id (info.methods.map MethodId.index)
  classNamed : ∀ name id, program.classNamed? name = some id ↔ description.Named name id
  fieldReferred : ∀ reference field,
    fieldReferred program reference = .ok field ↔ description.FieldReferred reference field
  methodReferred : ∀ name method,
    methodReferred program name = .ok method ↔ description.MethodReferred name method

theorem faithful_of_resolve {program : Program} (resolved : description.resolve = .ok program) :
    Faithful description program := by
  obtain ⟨edits, mirrors⟩ := mirrors_of_resolve resolved
  have outlines := mirrors.outlines edits
  have consistent := edits.consistent
  have fieldOwners : program.fields.toList.map CallFlow.Field.owner =
      description.ownedFields.map Prod.fst :=
    map_eq_map_of_forall₂ (mirrors.fields.imp fun _ _ => FieldMirrors.owner)
  have methodOwners : program.methods.toList.map CallFlow.Method.owner =
      description.ownedMethods.map Prod.fst :=
    map_eq_map_of_forall₂ (mirrors.methods.imp fun _ _ mirrors => mirrors.owner)
  exact ⟨mirrors, fieldOwners ▸ consistent.fields, methodOwners ▸ consistent.methods,
    fun _ _ => outlines.classNamed_iff, fun _ _ => outlines.fieldReferred_iff,
    fun _ _ => outlines.methodReferred_iff⟩

/-- There is a program if and only if the description is well referenced. -/
theorem exists_resolve_iff :
    (∃ program, description.resolve = .ok program) ↔ description.WellReferenced := by
  rw [wellReferenced_iff]
  simp only [← resolve_decides description _]
  cases description.resolve with
  | ok program => exact ⟨fun _ => nofun, fun _ => ⟨program, rfl⟩⟩
  | error error => exact ⟨nofun, fun passes => absurd rfl (passes error)⟩

end Description

end CallFlow
