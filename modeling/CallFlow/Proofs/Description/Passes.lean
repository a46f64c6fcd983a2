/-
**What the passes of the loader do.**

The classes and the bodies are visited one by one, and a visit changes what it visits only. Fields
and methods are added one after the other. Once the classes have their names, no pass changes which
class or which type a name stands for.

* `exists_visit`: in a series of visits each entry is changed by its own visit.
* `Description.stands_of_foldl`: records that are added one by one come last, in order.
* `Description.ClassMirrors`, `Description.FieldMirrors`, `Description.HeadMirrors`,
  `Description.Translates`: what a class, a field, a method and a statement of a description become.
-/

import Mathlib.Data.List.Forall2
import CallFlow.Description.Resolve
import CallFlow.Proofs.Hierarchy.Walks
import CallFlow.Proofs.Program.Edits

namespace CallFlow

namespace Program

variable {program edited : Program}

/-! ### What names depend on -/

/-- Which type a name stands for depends on the names of the classes only. -/
theorem typeNamed_congr (same : edited.classNames = program.classNames) (name : String) :
    edited.typeNamed name = program.typeNamed name := by
  unfold typeNamed baseTypeNamed
  simp only [classNamed?_congr same]

theorem class?_of_classNamed {name : String} {id : ClassId}
    (named : program.classNamed? name = some id) : (program.class? id).isSome = true := by
  obtain ⟨index, found, rfl⟩ := Option.map_eq_some_iff.mp named
  obtain ⟨inside, _⟩ := Array.findIdx?_eq_some_iff_getElem.mp found
  rw [class?, Array.getElem?_eq_getElem inside]
  rfl

/-- The type that a name stands for mentions classes of the program only. -/
theorem hasType_typeNamed (name : String) : program.hasType (program.typeNamed name) = true := by
  have base (name : String) : program.hasType (program.baseTypeNamed name) = true := by
    unfold baseTypeNamed
    split
    · rfl
    · cases named : program.classNamed? name with
      | none => rfl
      | some id => exact class?_of_classNamed named
  have wrapped (count : Nat) (type : Ty) (known : program.hasType type = true) :
      program.hasType (arrayOf count type) = true := by
    induction count with
    | zero => exact known
    | succ count hyp => exact hyp
  exact wrapped _ _ (base _)

/-- Which field a name stands for depends on the tables of classes and fields only. -/
theorem lookupField_congr (classes : edited.classes = program.classes)
    (fields : edited.fields = program.fields) (id : ClassId) (name : String) :
    edited.lookupField id name = program.lookupField id name := by
  have own : edited.ownField? = program.ownField? := by
    funext info name
    unfold ownField? field?
    rw [fields]
  unfold lookupField ascend
  rw [own, classes, ascendWithin_congr classes]

end Program

/-! ### Visits -/

/-- **In a series of visits each entry is changed by its own visit.** Between the start and this
visit, and between this visit and the end, the states are related as one visit relates them. -/
theorem exists_visit {σ ε α ι β : Type} (look : σ → ι → Option β) {step : σ → α × ι → Except ε σ}
    {Related : σ → σ → Prop} (relatedRefl : ∀ state, Related state state)
    (relatedTrans : ∀ {first middle last}, Related first middle → Related middle last →
      Related first last)
    (visits_one : ∀ {state visit next}, step state visit = .ok next →
      Related state next ∧ ∀ other, other ≠ visit.2 → look next other = look state other)
    {visits : List (α × ι)} (distinct : (visits.map Prod.snd).Nodup) {start final : σ}
    (folded : visits.foldlM step start = .ok final) :
    Related start final ∧
      (∀ other, other ∉ visits.map Prod.snd → look final other = look start other) ∧
      ∀ visit ∈ visits, ∃ before after, Related start before ∧
        look before visit.2 = look start visit.2 ∧ step before visit = .ok after ∧
        Related after final ∧ look final visit.2 = look after visit.2 := by
  induction visits generalizing start with
  | nil =>
    cases folded
    exact ⟨relatedRefl _, fun _ _ => rfl, nofun⟩
  | cons first rest hyp =>
    obtain ⟨once, restDistinct⟩ := List.nodup_cons.mp distinct
    rw [List.foldlM_cons] at folded
    cases stepped : step start first with
    | error fault => rw [stepped] at folded; cases folded
    | ok next =>
      rw [stepped] at folded
      obtain ⟨related, unvisited⟩ := visits_one stepped
      obtain ⟨restRelated, restUnvisited, restVisited⟩ := hyp restDistinct folded
      refine ⟨relatedTrans related restRelated, fun other absent => ?_, fun visit among => ?_⟩
      · obtain ⟨notFirst, notLater⟩ := List.ne_and_not_mem_of_not_mem_cons absent
        rw [restUnvisited other notLater, unvisited other notFirst]
      · rcases List.mem_cons.mp among with rfl | later
        · exact ⟨start, next, relatedRefl start, rfl, stepped, restRelated, restUnvisited _ once⟩
        · obtain ⟨before, after, earlier, unchanged, visited⟩ := restVisited visit later
          have notFirst : visit.2 ≠ first.2 := fun same =>
            once (same ▸ List.mem_map_of_mem later)
          exact ⟨before, after, relatedTrans related earlier,
            unchanged.trans (unvisited _ notFirst), visited⟩

namespace Description

open Program (Edits)

/-! ### Classes -/

/-- A class of the program is what the description of a class means. -/
structure ClassMirrors (program : Program) (written : Class) (info : CallFlow.Class) : Prop where
  name : info.name = written.name
  superclass : written.superclass.mapM program.classNamed? = some info.superclass
  interfaces : written.interfaces.mapM program.classNamed? = some info.interfaces
  isAbstract : info.isAbstract = written.isAbstract
  isInterface : info.isInterface = written.isInterface

/-- A class extends what its description names, if it names anything. -/
theorem ClassMirrors.superclass_cases {program : Program} {written : Class} {info : CallFlow.Class}
    (mirrors : ClassMirrors program written info) :
    (written.superclass = none ∧ info.superclass = none) ∨
      ∃ name above, written.superclass = some name ∧ program.classNamed? name = some above ∧
        info.superclass = some above := by
  have superclass := mirrors.superclass
  cases extending : written.superclass with
  | none =>
    rw [extending] at superclass
    exact .inl ⟨rfl, (Option.some.inj superclass).symm⟩
  | some name =>
    rw [extending, Option.mapM_some] at superclass
    obtain ⟨above, named, same⟩ := Option.map_eq_some_iff.mp superclass
    exact .inr ⟨name, above, rfl, named, same.symm⟩

/-- The first pass adds the classes by name. -/
theorem addClasses_eq_ok {classes : List Class} {program final : Program}
    (added : addClasses classes program = .ok final) :
    Edits program final ∧ final = { program with
      classes := program.classes ++ (classes.map fun written => { name := written.name }).toArray } := by
  induction classes generalizing program with
  | nil =>
    cases added
    exact ⟨.refl, by simp⟩
  | cons first rest hyp =>
    unfold addClasses at added hyp
    rw [List.foldlM_cons] at added
    cases known : program.classNamed? first.name with
    | some id => rw [known] at added; cases added
    | none =>
      rw [known] at added
      obtain ⟨edits, same⟩ := hyp added
      refine ⟨.head (.newClass first.name) edits, ?_⟩
      rw [same, Program.addClass, known]
      simp

theorem classReferred_eq_ok {program : Program} {name referrer : String} {id : ClassId} :
    classReferred program name referrer = .ok id ↔ program.classNamed? name = some id := by
  unfold classReferred
  cases program.classNamed? name <;> simp

/-- A reference to a field is split at its last dot; the field is looked up by name on the superclass
chain of the class before the dot. -/
theorem fieldReferred_eq_ok {program : Program} {reference : String} {field : FieldId} :
    fieldReferred program reference = .ok field ↔ ∃ owner name id,
      Text.splitAtLast '.' reference.toList = some (owner, name) ∧
      program.classNamed? (String.ofList owner) = some id ∧
      program.lookupField id (String.ofList name) = .ok (some field) := by
  unfold fieldReferred classReferred
  cases parts : Text.splitAtLast '.' reference.toList with
  | none => simp
  | some pair =>
    obtain ⟨owner, name⟩ := pair
    cases named : program.classNamed? (String.ofList owner) with
    | none => simp [named, bind, Except.bind]
    | some id =>
      rcases looked : program.lookupField id (String.ofList name) with fault | _ | found <;>
        simp [named, looked, bind, Except.bind]

theorem mapM_classReferred_eq_ok {program : Program} {names : List String} {referrer : String}
    {ids : List ClassId} : (names.mapM fun name => classReferred program name referrer) = .ok ids ↔
      names.mapM program.classNamed? = some ids := by
  induction names generalizing ids with
  | nil => simp [pure, Except.pure]
  | cons name rest hyp =>
    rw [List.mapM_cons, List.mapM_cons, classReferred]
    cases program.classNamed? name with
    | none => simp [bind, Except.bind]
    | some id =>
      cases later : rest.mapM program.classNamed? with
      | some found => simp [hyp.mpr later, bind, Except.bind, pure, Except.pure]
      | none =>
        cases failed : rest.mapM fun name => classReferred program name referrer with
        | error fault => simp [bind, Except.bind]
        | ok found => rw [hyp.mp failed] at later; cases later

/-- The second pass sets what the description of a class says, when every class it mentions is
known. -/
theorem setSupertypes_eq_ok {program final : Program} {id : ClassId} {written : Class} :
    setSupertypes program id written = .ok final ↔ ∃ superclass interfaces,
      written.superclass.mapM program.classNamed? = some superclass ∧
      written.interfaces.mapM program.classNamed? = some interfaces ∧
      final = program.updateClass id fun known =>
        { known with
          superclass := superclass
          interfaces := interfaces
          isAbstract := written.isAbstract
          isInterface := written.isInterface } := by
  have superclassReferred (superclass : Option ClassId) :
      (written.superclass.mapM fun name => classReferred program name written.name) =
        .ok superclass ↔ written.superclass.mapM program.classNamed? = some superclass := by
    cases written.superclass with
    | none => simp [pure, Except.pure]
    | some name =>
      simp only [Option.mapM_some]
      unfold classReferred
      cases program.classNamed? name <;> simp [Functor.map, Except.map]
  unfold setSupertypes
  constructor
  · intro updated
    cases first : written.superclass.mapM fun name => classReferred program name written.name with
    | error fault => rw [first] at updated; cases updated
    | ok superclass =>
      cases second : written.interfaces.mapM fun name => classReferred program name written.name with
      | error fault => rw [first, second] at updated; cases updated
      | ok interfaces =>
        rw [first, second] at updated
        cases updated
        exact ⟨superclass, interfaces, (superclassReferred superclass).mp first,
          mapM_classReferred_eq_ok.mp second, rfl⟩
  · rintro ⟨superclass, interfaces, first, second, rfl⟩
    rw [(superclassReferred superclass).mpr first, mapM_classReferred_eq_ok.mpr second]
    rfl

/-- A pass that changes what classes say about themselves. -/
structure ChangesClasses (program final : Program) : Prop where
  edits : Edits program final
  classNames : final.classNames = program.classNames
  rest : final = { program with classes := final.classes }

theorem ChangesClasses.refl (program : Program) : ChangesClasses program program := ⟨.refl, rfl, rfl⟩

theorem ChangesClasses.trans {program middle final : Program} (first : ChangesClasses program middle)
    (second : ChangesClasses middle final) : ChangesClasses program final := by
  refine ⟨first.edits.trans second.edits, second.classNames.trans first.classNames, ?_⟩
  have rest := second.rest
  rw [first.rest] at rest
  exact rest

theorem changesClasses_of_setSupertypes {program final : Program} {id : ClassId} {written : Class}
    (updated : setSupertypes program id written = .ok final) : ChangesClasses program final := by
  obtain ⟨superclass, interfaces, _, _, rfl⟩ := setSupertypes_eq_ok.mp updated
  exact ⟨.single (.changeClass id fun _ => ⟨rfl, rfl, rfl⟩),
    Program.classNames_updateClass id fun _ => rfl, rfl⟩

/-- The second pass turns named classes into what their descriptions mean. -/
theorem classMirrors_of_setSupertypes {visits : List (Class × ClassId)}
    (distinct : (visits.map Prod.snd).Nodup) {program final : Program}
    (folded : visits.foldlM (fun program (written, id) => setSupertypes program id written) program =
      .ok final) : ChangesClasses program final ∧
      ∀ written id info, (written, id) ∈ visits → program.class? id = some info →
        info.name = written.name →
        ∃ changed, final.class? id = some changed ∧ ClassMirrors final written changed := by
  have one {state next : Program} {visit : Class × ClassId}
      (stepped : setSupertypes state visit.2 visit.1 = .ok next) : ChangesClasses state next ∧
        ∀ other, other ≠ visit.2 → next.class? other = state.class? other := by
    refine ⟨changesClasses_of_setSupertypes stepped, fun other different => ?_⟩
    obtain ⟨superclass, interfaces, _, _, rfl⟩ := setSupertypes_eq_ok.mp stepped
    rw [Program.class?_updateClass]
    simp only [if_neg different, Option.map_id']
  obtain ⟨changes, _, visited⟩ :=
    exists_visit Program.class? ChangesClasses.refl ChangesClasses.trans one distinct folded
  refine ⟨changes, fun written id info among isClass named => ?_⟩
  obtain ⟨before, after, earlier, unchanged, stepped, later, last⟩ := visited _ among
  obtain ⟨superclass, interfaces, first, second, rfl⟩ := setSupertypes_eq_ok.mp stepped
  have sameNames : before.classNamed? = final.classNamed? := by
    funext name
    exact Program.classNamed?_congr (earlier.classNames.trans changes.classNames.symm) name
  rw [sameNames] at first second
  rw [Program.class?_updateClass, unchanged] at last
  simp only [isClass, Option.map_some, if_true] at last
  exact ⟨_, last, named, first, second, rfl, rfl⟩

/-! ### Fields and methods -/

/-- What a class says about itself, without what it owns. -/
def headOf (info : CallFlow.Class) : CallFlow.Class := { info with methods := [], fields := [] }

/-- A pass that adds what classes own. -/
structure AddsRecords (program final : Program) : Prop where
  edits : Edits program final
  heads : final.classes.toList.map headOf = program.classes.toList.map headOf
  entry : final.entry = program.entry

namespace AddsRecords

variable {program middle final : Program}

theorem refl (program : Program) : AddsRecords program program := ⟨.refl, rfl, rfl⟩

theorem trans (first : AddsRecords program middle) (second : AddsRecords middle final) :
    AddsRecords program final :=
  ⟨first.edits.trans second.edits, second.heads.trans first.heads, second.entry.trans first.entry⟩

theorem classNames (adds : AddsRecords program final) : final.classNames = program.classNames := by
  have byHeads (program : Program) : program.classNames =
      (program.classes.toList.map headOf).map CallFlow.Class.name := by
    rw [List.map_map]
    rfl
  rw [byHeads, byHeads, adds.heads]

end AddsRecords

/-- A field of the program is what the description of a field, in its class, means. -/
structure FieldMirrors (program : Program) (written : ClassId × Field) (field : CallFlow.Field) :
    Prop where
  owner : field.owner = written.1
  name : field.name = written.2.name
  type : field.type = program.typeNamed written.2.type

/-- A method of the program is, apart from its body, what the description of a method, in its class,
means. -/
structure HeadMirrors (program : Program) (written : ClassId × Method) (method : CallFlow.Method) :
    Prop where
  owner : method.owner = written.1
  name : method.name = written.2.name
  params : method.params = written.2.params.map program.typeNamed
  result : method.result = resultType program written.2.result
  isStatic : method.isStatic = written.2.isStatic
  isAbstract : method.isAbstract = written.2.isAbstract

theorem FieldMirrors.congr {program final : Program} (classNames : final.classNames = program.classNames)
    {written : ClassId × Field} {field : CallFlow.Field} (mirrors : FieldMirrors program written field) :
    FieldMirrors final written field := by
  obtain ⟨owner, name, type⟩ := mirrors
  rw [← Program.typeNamed_congr classNames] at type
  exact ⟨owner, name, type⟩

theorem HeadMirrors.congr {program final : Program} (classNames : final.classNames = program.classNames)
    {written : ClassId × Method} {method : CallFlow.Method}
    (mirrors : HeadMirrors program written method) : HeadMirrors final written method := by
  obtain ⟨owner, name, params, result, isStatic, isAbstract⟩ := mirrors
  have sameTypes : final.typeNamed = program.typeNamed := funext (Program.typeNamed_congr classNames)
  rw [← sameTypes] at params
  rw [resultType, ← sameTypes] at result
  exact ⟨owner, name, params, result, isStatic, isAbstract⟩

/-- **Records that are added one by one come last, in order**, and each stands for what it was added
for. A table that no step touches stays as it is. -/
theorem stands_of_foldl {α ρ τ : Type} (table : Program → List ρ) (untouched : Program → τ)
    (Stands : Program → ClassId × α → ρ → Prop) {step : Program → ClassId × α → Program}
    (congr : ∀ {program final written record}, final.classNames = program.classNames →
      Stands program written record → Stands final written record)
    (adds_one : ∀ {program written}, (program.class? written.1).isSome = true →
      AddsRecords program (step program written) ∧
        untouched (step program written) = untouched program ∧
        ∃ record, table (step program written) = table program ++ [record] ∧
          Stands program written record)
    {owned : List (ClassId × α)} {program final : Program}
    (owners : ∀ written ∈ owned, (program.class? written.1).isSome = true)
    (folded : owned.foldl step program = final) :
    AddsRecords program final ∧ untouched final = untouched program ∧
      ∃ added, table final = table program ++ added ∧ List.Forall₂ (Stands program) owned added := by
  induction owned generalizing program with
  | nil =>
    cases folded
    exact ⟨.refl _, rfl, [], (List.append_nil _).symm, .nil⟩
  | cons first rest hyp =>
    rw [List.foldl_cons] at folded
    obtain ⟨adds, same, record, records, stands⟩ := adds_one (owners first List.mem_cons_self)
    obtain ⟨restAdds, restSame, added, restRecords, restStand⟩ := hyp
      (fun written among =>
        adds.edits.grows.isClass (owners written (List.mem_cons_of_mem _ among))) folded
    refine ⟨adds.trans restAdds, restSame.trans same, record :: added, ?_,
      .cons stands (restStand.imp fun _ _ => congr adds.classNames.symm)⟩
    rw [restRecords, records, List.append_assoc, List.singleton_append]

/-- One field is added. -/
theorem addField_mirrors {program : Program} {owner : ClassId}
    (isClass : (program.class? owner).isSome = true) (written : Field) :
    AddsRecords program
        (program.addField owner written.name (program.typeNamed written.type)).1 ∧
      (program.addField owner written.name (program.typeNamed written.type)).1.methods =
        program.methods ∧
      ∃ field, (program.addField owner written.name
            (program.typeNamed written.type)).1.fields.toList = program.fields.toList ++ [field] ∧
        FieldMirrors program (owner, written) field :=
  ⟨⟨.single (.newField isClass _ _), map_toList_modify fun _ => rfl, rfl⟩, rfl, _,
    Array.toList_push, rfl, rfl, rfl⟩

/-- The third pass adds the fields in order. -/
theorem fieldMirrors_of_foldl {owned : List (ClassId × Field)} {program final : Program}
    (owners : ∀ written ∈ owned, (program.class? written.1).isSome = true)
    (folded : owned.foldl (fun program (owner, field) =>
      (program.addField owner field.name (program.typeNamed field.type)).1) program = final) :
    AddsRecords program final ∧ final.methods = program.methods ∧
      ∃ added, final.fields.toList = program.fields.toList ++ added ∧
        List.Forall₂ (FieldMirrors program) owned added :=
  stands_of_foldl (fun program => program.fields.toList) Program.methods FieldMirrors
    (fun same mirrors => mirrors.congr same) (fun isClass => addField_mirrors isClass _) owners folded

/-- Adding a member signature changes the table of members only. -/
theorem addMember_eq (program : Program) (text : String) :
    ∃ members, (program.addMember text).1 = { program with members } := by
  unfold Program.addMember
  split
  · exact ⟨program.members, rfl⟩
  · exact ⟨_, rfl⟩

theorem toList_modify_push {α : Type} (table : Array α) (entry : α) (change : α → α) :
    ((table.push entry).modify table.size change).toList = table.toList ++ [change entry] := by
  rw [Array.toList_modify, Array.toList_push, List.modify_eq_take_cons_drop (by simp)]
  simp

/-- One method is added without its body. -/
theorem addMethod_mirrors {program : Program} {owner : ClassId}
    (isClass : (program.class? owner).isSome = true) (written : Method) :
    AddsRecords program (addMethod program owner written) ∧
      (addMethod program owner written).fields = program.fields ∧
      ∃ method, (addMethod program owner written).methods.toList =
          program.methods.toList ++ [method] ∧
        HeadMirrors program (owner, written) method ∧ method.body = [] := by
  have inRange : ∀ type ∈ written.params.map program.typeNamed, program.hasType type = true := by
    intro type among
    obtain ⟨name, _, rfl⟩ := List.mem_map.mp among
    exact Program.hasType_typeNamed name
  have edits : Edits program (addMethod program owner written) :=
    .tail (.single (.newMethod isClass written.name inRange (resultType program written.result)))
      (.changeMethod _ fun _ => rfl)
  obtain ⟨members, interned⟩ := addMember_eq program
    (program.signature written.name (written.params.map program.typeNamed))
  unfold addMethod Program.addMethod at edits ⊢
  revert edits interned
  cases program.addMember (program.signature written.name (written.params.map program.typeNamed)) with
  | mk grown member =>
    rintro edits (rfl : grown = _)
    exact ⟨⟨edits, map_toList_modify fun _ => rfl, rfl⟩, rfl, _, toList_modify_push _ _ _,
      ⟨rfl, rfl, rfl, rfl, rfl, rfl⟩, rfl⟩

/-- The fourth pass adds the methods in order, without their bodies. -/
theorem headMirrors_of_foldl {owned : List (ClassId × Method)} {program final : Program}
    (owners : ∀ written ∈ owned, (program.class? written.1).isSome = true)
    (folded : owned.foldl (fun program (owner, method) => addMethod program owner method) program =
      final) :
    AddsRecords program final ∧ final.fields = program.fields ∧
      ∃ added, final.methods.toList = program.methods.toList ++ added ∧
        List.Forall₂ (fun written method => HeadMirrors program written method ∧ method.body = [])
          owned added :=
  stands_of_foldl (fun program => program.methods.toList) Program.fields
    (fun program written method => HeadMirrors program written method ∧ method.body = [])
    (fun same mirrors => ⟨mirrors.1.congr same, mirrors.2⟩)
    (fun isClass => addMethod_mirrors isClass _) owners folded

/-! ### Bodies -/

/-- A statement of a body is what the description of a statement means: its names are looked up, and
the member of a call is the signature without its blanks. -/
inductive Translates (program : Program) : Statement → CallFlow.Statement → Prop where
  | new {name : String} {id : ClassId} (named : program.classNamed? name = some id) :
      Translates program (.new name) (.new id)
  | newArray (element : String) :
      Translates program (.newArray element) (.newArray (program.typeNamed element))
  | store {reference : String} {field : FieldId}
      (referred : fieldReferred program reference = .ok field) :
      Translates program (.store reference) (.store field)
  | load {reference : String} {field : FieldId}
      (referred : fieldReferred program reference = .ok field) :
      Translates program (.load reference) (.load field)
  | invoke (kind : String) {className method : String} {owner : ClassId} {member : MemberId}
      (named : program.classNamed? className = some owner)
      (known : program.member? member = some (Text.removeBlanks method)) :
      Translates program (.invoke kind className method)
        (.invoke ⟨CallKind.ofName kind, ⟨owner, member⟩⟩)
  | other : Translates program .other .other

/-- What a method says about itself, without its body. -/
def bodiless (method : CallFlow.Method) : CallFlow.Method := { method with body := [] }

/-- A pass that fills bodies. -/
structure FillsBodies (program final : Program) : Prop where
  edits : Edits program final
  classes : final.classes = program.classes
  fields : final.fields = program.fields
  entry : final.entry = program.entry
  heads : final.methods.toList.map bodiless = program.methods.toList.map bodiless

namespace FillsBodies

variable {program middle final : Program}

theorem refl (program : Program) : FillsBodies program program := ⟨.refl, rfl, rfl, rfl, rfl⟩

theorem trans (first : FillsBodies program middle) (second : FillsBodies middle final) :
    FillsBodies program final :=
  ⟨first.edits.trans second.edits, second.classes.trans first.classes,
    second.fields.trans first.fields, second.entry.trans first.entry, second.heads.trans first.heads⟩

theorem addMember (program : Program) (text : String) :
    FillsBodies program (program.addMember text).1 := by
  have edits : Edits program (program.addMember text).1 := .single (.newMember text)
  obtain ⟨members, same⟩ := addMember_eq program text
  rw [same] at edits ⊢
  exact ⟨edits, rfl, rfl, rfl, rfl⟩

theorem addStatement (program : Program) (id : MethodId) (statement : CallFlow.Statement) :
    FillsBodies program (program.addStatement id statement) :=
  ⟨.single (.changeMethod id fun _ => rfl), rfl, rfl, rfl, map_toList_modify fun _ => rfl⟩

theorem classNames (fills : FillsBodies program final) : final.classNames = program.classNames :=
  congrArg (fun table => table.toList.map CallFlow.Class.name) fills.classes

/-- What methods say about themselves stays as it is. -/
theorem headMirrors (fills : FillsBodies program final) {owned : List (ClassId × Method)}
    (mirrors : List.Forall₂ (HeadMirrors program) owned program.methods.toList) :
    List.Forall₂ (HeadMirrors final) owned final.methods.toList := by
  have each {program : Program} : List.Forall₂ (HeadMirrors final) owned program.methods.toList ↔
      List.Forall₂ (HeadMirrors final) owned (program.methods.toList.map bodiless) := by
    rw [List.forall₂_map_right_iff]
    refine ⟨fun all => all.imp fun _ _ head => ?_, fun all => all.imp fun _ _ head => ?_⟩ <;>
      exact ⟨head.owner, head.name, head.params, head.result, head.isStatic, head.isAbstract⟩
  rw [each, fills.heads, ← each]
  exact mirrors.imp fun _ _ => .congr fills.classNames

end FillsBodies

/-- What a statement means depends on the tables of classes and fields and on the members. -/
theorem Translates.congr {program final : Program} (classes : final.classes = program.classes)
    (fields : final.fields = program.fields) (grows : Program.Grows program final)
    {written : Statement} {statement : CallFlow.Statement}
    (translates : Translates program written statement) : Translates final written statement := by
  have classNames : final.classNames = program.classNames :=
    congrArg (fun table => table.toList.map CallFlow.Class.name) classes
  have classNamed : final.classNamed? = program.classNamed? :=
    funext (Program.classNamed?_congr classNames)
  have fieldReferred : fieldReferred final = fieldReferred program := by
    funext reference
    unfold Description.fieldReferred classReferred
    simp only [classNamed, Program.lookupField_congr classes fields]
  cases translates with
  | new named => exact .new (classNamed ▸ named)
  | newArray element =>
    rw [← Program.typeNamed_congr classNames]
    exact .newArray element
  | store referred => exact .store (fieldReferred ▸ referred)
  | load referred => exact .load (fieldReferred ▸ referred)
  | invoke kind named known => exact .invoke kind (classNamed ▸ named) (grows.member? known)
  | other => exact .other

theorem FillsBodies.translates {program final : Program} (fills : FillsBodies program final)
    {written : Statement} {statement : CallFlow.Statement} :
    Translates program written statement → Translates final written statement :=
  .congr fills.classes fills.fields fills.edits.grows

/-- What a statement resolves to is what it means, once its member is known. -/
theorem translates_of_resolveStatement {program grown : Program} {written : Statement}
    {statement : CallFlow.Statement}
    (resolved : resolveStatement program written = .ok (grown, statement)) :
    FillsBodies program grown ∧ grown.methods = program.methods ∧
      Translates grown written statement := by
  cases written with
  | new name =>
    cases referred : classReferred program name "new" with
    | error fault => rw [resolveStatement, referred] at resolved; cases resolved
    | ok id =>
      rw [resolveStatement, referred] at resolved
      cases resolved
      exact ⟨.refl _, rfl, .new (classReferred_eq_ok.mp referred)⟩
  | newArray element =>
    cases resolved
    exact ⟨.refl _, rfl, .newArray element⟩
  | store reference =>
    cases referred : fieldReferred program reference with
    | error fault => rw [resolveStatement, referred] at resolved; cases resolved
    | ok field =>
      rw [resolveStatement, referred] at resolved
      cases resolved
      exact ⟨.refl _, rfl, .store referred⟩
  | load reference =>
    cases referred : fieldReferred program reference with
    | error fault => rw [resolveStatement, referred] at resolved; cases resolved
    | ok field =>
      rw [resolveStatement, referred] at resolved
      cases resolved
      exact ⟨.refl _, rfl, .load referred⟩
  | invoke kind className method =>
    cases referred : classReferred program className "invoke" with
    | error fault => rw [resolveStatement, referred] at resolved; cases resolved
    | ok owner =>
      rw [resolveStatement, referred] at resolved
      cases resolved
      have fills := FillsBodies.addMember program (Text.removeBlanks method)
      have named := classReferred_eq_ok.mp referred
      rw [← Program.classNamed?_congr fills.classNames] at named
      have methods : (program.addMember (Text.removeBlanks method)).1.methods = program.methods := by
        obtain ⟨members, same⟩ := addMember_eq program (Text.removeBlanks method)
        rw [same]
      exact ⟨fills, methods, .invoke kind named (Program.member?_addMember _)⟩
  | other =>
    cases resolved
    exact ⟨.refl _, rfl, .other⟩

/-- A statement is appended to its method, and no other method changes. -/
theorem addStatement_translates {program final : Program} {id : MethodId} {written : Statement}
    (added : addStatement id program written = .ok final) :
    FillsBodies program final ∧
      (∀ other, other ≠ id → final.method? other = program.method? other) ∧
      ∀ method, program.method? id = some method → ∃ statement,
        final.method? id = some { method with body := method.body ++ [statement] } ∧
          Translates final written statement := by
  unfold addStatement at added
  cases resolved : resolveStatement program written with
  | error cause => rw [resolved] at added; cases added
  | ok result =>
    obtain ⟨grown, statement⟩ := result
    rw [resolved] at added
    cases added
    obtain ⟨fills, methods, translates⟩ := translates_of_resolveStatement resolved
    have appends := FillsBodies.addStatement grown id statement
    have look (other : MethodId) : (grown.addStatement id statement).method? other =
        (program.method? other).map fun method =>
          if other = id then { method with body := method.body ++ [statement] } else method := by
      unfold Program.addStatement
      rw [Program.method?_updateMethod, Program.method?, methods]
      rfl
    refine ⟨fills.trans appends, fun other different => ?_, fun method isMethod =>
      ⟨statement, ?_, appends.translates translates⟩⟩
    · rw [look]
      simp only [if_neg different, Option.map_id']
    · rw [look, isMethod, Option.map_some, if_pos rfl]

/-- The statements of a body are appended in order. -/
theorem addBody_translates {statements : List Statement} {program final : Program} {id : MethodId}
    (added : statements.foldlM (addStatement id) program = .ok final) :
    FillsBodies program final ∧
      (∀ other, other ≠ id → final.method? other = program.method? other) ∧
      ∀ method, program.method? id = some method → ∃ body,
        final.method? id = some { method with body := method.body ++ body } ∧
          List.Forall₂ (Translates final) statements body := by
  induction statements generalizing program with
  | nil =>
    cases added
    refine ⟨.refl _, fun _ _ => rfl, fun method isMethod => ⟨[], ?_, .nil⟩⟩
    rw [List.append_nil]
    exact isMethod
  | cons first rest hyp =>
    rw [List.foldlM_cons] at added
    cases stepped : addStatement id program first with
    | error fault => rw [stepped] at added; cases added
    | ok next =>
      rw [stepped] at added
      obtain ⟨fills, others, appended⟩ := addStatement_translates stepped
      obtain ⟨restFills, restOthers, restAppended⟩ := hyp added
      refine ⟨fills.trans restFills, fun other different =>
        (restOthers other different).trans (others other different), fun method isMethod => ?_⟩
      obtain ⟨statement, isNext, translates⟩ := appended method isMethod
      obtain ⟨body, isFinal, restTranslates⟩ := restAppended _ isNext
      refine ⟨statement :: body, ?_, .cons (restFills.translates translates) restTranslates⟩
      rw [isFinal]
      simp

/-- The fifth pass fills the empty bodies of the methods it visits. -/
theorem translates_of_addBodies {visits : List (Method × MethodId)}
    (distinct : (visits.map Prod.snd).Nodup) {program final : Program}
    (folded : visits.foldlM (fun program (written, id) => addBody program id written) program =
      .ok final) : FillsBodies program final ∧
      ∀ written id method, (written, id) ∈ visits → program.method? id = some method →
        method.body = [] → ∃ body, final.method? id = some { method with body } ∧
          List.Forall₂ (Translates final) written.body body := by
  have one {state next : Program} {visit : Method × MethodId}
      (stepped : addBody state visit.2 visit.1 = .ok next) : FillsBodies state next ∧
        ∀ other, other ≠ visit.2 → next.method? other = state.method? other := by
    obtain ⟨fills, others, _⟩ := addBody_translates stepped
    exact ⟨fills, others⟩
  obtain ⟨fills, _, visited⟩ :=
    exists_visit Program.method? FillsBodies.refl FillsBodies.trans one distinct folded
  refine ⟨fills, fun written id method among isMethod empty => ?_⟩
  obtain ⟨before, after, _, unchanged, stepped, later, last⟩ := visited _ among
  obtain ⟨_, _, appended⟩ := addBody_translates stepped
  obtain ⟨body, isAfter, translates⟩ := appended method (unchanged.trans isMethod)
  rw [empty, List.nil_append] at isAfter
  exact ⟨body, last.trans isAfter, translates.imp fun _ _ => later.translates⟩

end Description

end CallFlow
