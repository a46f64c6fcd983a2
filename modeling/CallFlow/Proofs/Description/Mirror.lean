/-
**A loaded program mirrors its description.**

The classes, fields and methods of a description become those of the program in order of appearance,
each with everything its description says, and every statement of a body becomes what it means.

* `Description.Mirrors`: a program is what a description means.
* `Description.Outlines`: it is, apart from the bodies and the entry.
* `Description.mirrors_of_resolve`: every program that is loaded is built by changes, so that it is
  consistent, and mirrors its description.
-/

import Mathlib.Data.List.Nodup
import CallFlow.Description.Load
import CallFlow.Proofs.Description.Passes

namespace CallFlow

/-- The entries of a table stand for the entries of a list, in order. -/
theorem forall₂_toList_iff {α β : Type} {stands : α → β → Prop} {written : List α}
    {table : Array β} : List.Forall₂ stands written table.toList ↔
      written.length = table.size ∧ ∀ (index : Nat) entry, written[index]? = some entry →
        ∃ record, table[index]? = some record ∧ stands entry record := by
  rw [List.forall₂_iff_get]
  refine and_congr_right fun sizes =>
    ⟨fun each index entry here => ?_, fun each index inList inTable => ?_⟩
  · obtain ⟨inList, rfl⟩ := List.getElem?_eq_some_iff.mp here
    have inTable : index < table.toList.length := sizes ▸ inList
    exact ⟨table.toList[index], Array.getElem?_eq_getElem inTable, each index inList inTable⟩
  · obtain ⟨record, here, stands⟩ := each index _ (List.getElem?_eq_getElem inList)
    obtain ⟨_, rfl⟩ := Array.getElem?_eq_some_iff.mp here
    exact stands

namespace Description

open Program (Edits)

variable (description : Description)

/-! ### Positions in a description -/

/-- The fields of a description, each with its class, in order of appearance. -/
def ownedFields : List (ClassId × Field) :=
  description.numberedClasses.flatMap fun (info, id) => info.fields.map fun field => (id, field)

/-- The methods of a description, each with its class, in order of appearance. -/
def ownedMethods : List (ClassId × Method) :=
  description.numberedClasses.flatMap fun (info, id) => info.methods.map fun method => (id, method)

variable {description}

theorem mem_numberedClasses {written : Class} {id : ClassId} :
    (written, id) ∈ description.numberedClasses ↔
      description.classes[id.index]? = some written := by
  unfold numberedClasses
  rw [List.mem_map]
  constructor
  · rintro ⟨⟨_, index⟩, among, same⟩
    cases same
    exact List.mem_zipIdx_iff_getElem?.mp among
  · exact fun here => ⟨(written, id.index), List.mem_zipIdx_iff_getElem?.mpr here, rfl⟩

/-- The class of a field or a method of a description is one of its classes. -/
theorem class_of_mem_flatMap {α : Type} {items : Class → List α} {id : ClassId} {item : α}
    (among : (id, item) ∈ description.numberedClasses.flatMap fun (info, id) =>
      (items info).map fun item => (id, item)) :
    ∃ written, description.classes[id.index]? = some written ∧ item ∈ items written := by
  obtain ⟨⟨written, other⟩, isClass, inClass⟩ := List.mem_flatMap.mp among
  obtain ⟨_, listed, same⟩ := List.mem_map.mp inClass
  cases same
  exact ⟨written, mem_numberedClasses.mp isClass, listed⟩

/-- Numbered things have distinct numbers. -/
theorem nodup_numbered {α ι : Type} {items : List α} {make : Nat → ι}
    (injective : Function.Injective make) :
    ((items.zipIdx.map fun (item, index) => (item, make index)).map Prod.snd).Nodup := by
  rw [List.map_map]
  show (items.zipIdx.map (make ∘ Prod.snd)).Nodup
  rw [← List.map_map, List.zipIdx_map_snd]
  exact List.Nodup.map injective List.nodup_range'

theorem map_fst_numberedClasses : description.numberedClasses.map Prod.fst = description.classes := by
  unfold numberedClasses
  rw [List.map_map]
  exact List.zipIdx_map_fst 0 description.classes

theorem map_snd_ownedMethods :
    description.ownedMethods.map Prod.snd = description.classes.flatMap Class.methods := by
  rw [← map_fst_numberedClasses, List.flatMap_map, ownedMethods, List.map_flatMap]
  simp only [List.map_map, Function.comp_def, List.map_id']

theorem mem_numberedMethods {owner : ClassId} {written : Method} {id : MethodId}
    (here : description.ownedMethods[id.index]? = some (owner, written)) :
    (written, id) ∈ description.numberedMethods := by
  unfold numberedMethods
  refine List.mem_map.mpr ⟨(written, id.index), List.mem_zipIdx_iff_getElem?.mpr ?_, rfl⟩
  rw [← map_snd_ownedMethods, List.getElem?_map]
  exact congrArg (Option.map Prod.snd) here

/-! ### The whole -/

/-- A method of the program is what the description of a method, in its class, means. -/
structure MethodMirrors (program : Program) (written : ClassId × Method)
    (method : CallFlow.Method) : Prop extends HeadMirrors program written method where
  body : List.Forall₂ (Translates program) written.2.body method.body

/-- A program is what a description means. -/
structure Mirrors (description : Description) (program : Program) : Prop where
  classes : List.Forall₂ (ClassMirrors program) description.classes program.classes.toList
  fields : List.Forall₂ (FieldMirrors program) description.ownedFields program.fields.toList
  methods : List.Forall₂ (MethodMirrors program) description.ownedMethods program.methods.toList
  entry : description.entry.mapM (fun name => program.methodNamed? (Text.removeBlanks name)) =
    some program.entry

/-- A program has everything of a description apart from the bodies and the entry. -/
structure Outlines (description : Description) (program : Program) : Prop where
  edits : Edits {} program
  classes : List.Forall₂ (ClassMirrors program) description.classes program.classes.toList
  fields : List.Forall₂ (FieldMirrors program) description.ownedFields program.fields.toList
  methods : List.Forall₂ (HeadMirrors program) description.ownedMethods program.methods.toList

/-! ### From pass to pass -/

section Passes

variable {program final : Program}

theorem ClassMirrors.congr (classNames : final.classNames = program.classNames) {written : Class}
    {info changed : CallFlow.Class} (head : headOf changed = headOf info)
    (mirrors : ClassMirrors program written info) : ClassMirrors final written changed := by
  obtain ⟨name, superclass, interfaces, isAbstract, isInterface⟩ := mirrors
  have sameNames : final.classNamed? = program.classNamed? :=
    funext (Program.classNamed?_congr classNames)
  rw [← sameNames] at superclass interfaces
  cases info
  cases changed
  cases head
  exact ⟨name, superclass, interfaces, isAbstract, isInterface⟩

/-- Once the first two passes are done the classes mirror their descriptions. -/
theorem classes_of_setSupertypes {first second : Program}
    (named : addClasses description.classes {} = .ok first)
    (updated : description.numberedClasses.foldlM
      (fun program (written, id) => setSupertypes program id written) first = .ok second) :
    Edits {} second ∧ second = { classes := second.classes } ∧
      List.Forall₂ (ClassMirrors second) description.classes second.classes.toList := by
  obtain ⟨adds, rfl⟩ := addClasses_eq_ok named
  have distinct : (description.numberedClasses.map Prod.snd).Nodup :=
    nodup_numbered fun _ _ same => congrArg ClassId.index same
  obtain ⟨changes, visited⟩ := classMirrors_of_setSupertypes distinct updated
  refine ⟨adds.trans changes.edits, changes.rest, forall₂_toList_iff.mpr ⟨?_, ?_⟩⟩
  · have sizes := congrArg List.length changes.classNames
    simp only [Program.classNames, List.length_map, Array.length_toList] at sizes
    rw [sizes]
    simp
  · intro index written here
    refine visited written ⟨index⟩ { name := written.name } (mem_numberedClasses.mpr here) ?_ rfl
    simp [Program.class?, here]

/-- The passes that add what classes own leave them mirroring their descriptions. -/
theorem AddsRecords.classes (adds : AddsRecords program final)
    (mirrors : List.Forall₂ (ClassMirrors program) description.classes program.classes.toList) :
    List.Forall₂ (ClassMirrors final) description.classes final.classes.toList := by
  obtain ⟨size, each⟩ := forall₂_toList_iff.mp mirrors
  refine forall₂_toList_iff.mpr ⟨?_, fun index written here => ?_⟩
  · have sizes := congrArg List.length adds.heads
    simp only [List.length_map, Array.length_toList] at sizes
    rw [size, sizes]
  · obtain ⟨info, isClass, mirrors⟩ := each index written here
    have heads := congrArg (fun heads => heads[index]?) adds.heads
    simp only [List.getElem?_map, Array.getElem?_toList, isClass, Option.map_some] at heads
    obtain ⟨changed, isChanged, head⟩ := Option.map_eq_some_iff.mp heads
    exact ⟨changed, isChanged, mirrors.congr adds.classNames head⟩

/-- The pass that fills the bodies turns methods into what their descriptions mean. -/
theorem methods_of_addBodies
    (heads : List.Forall₂ (fun written method => HeadMirrors program written method ∧ method.body = [])
      description.ownedMethods program.methods.toList)
    (filled : description.numberedMethods.foldlM
      (fun program (written, id) => addBody program id written) program = .ok final) :
    FillsBodies program final ∧
      List.Forall₂ (MethodMirrors final) description.ownedMethods final.methods.toList := by
  have distinct : (description.numberedMethods.map Prod.snd).Nodup :=
    nodup_numbered fun _ _ same => congrArg MethodId.index same
  obtain ⟨fills, each⟩ := translates_of_addBodies distinct filled
  obtain ⟨size, headed⟩ := forall₂_toList_iff.mp heads
  have sizes := congrArg List.length fills.heads
  simp only [List.length_map, Array.length_toList] at sizes
  refine ⟨fills, forall₂_toList_iff.mpr ⟨size.trans sizes.symm, fun index written here => ?_⟩⟩
  obtain ⟨method, isMethod, head, empty⟩ := headed index written here
  obtain ⟨body, isFinal, translates⟩ :=
    each written.2 ⟨index⟩ method (mem_numberedMethods here) isMethod empty
  have head : HeadMirrors final written { method with body } :=
    ⟨head.owner, head.name, (head.congr fills.classNames).params, (head.congr fills.classNames).result,
      head.isStatic, head.isAbstract⟩
  exact ⟨_, isFinal, head, translates⟩

/-- The last pass sets the entry and nothing else. -/
theorem entry_of_setEntry {entry : Option String} (unset : program.entry = none)
    (entered : setEntry entry program = .ok final) :
    Program.Edit program final ∧ final.classes = program.classes ∧ final.fields = program.fields ∧
      final.methods = program.methods ∧
      entry.mapM (fun name => final.methodNamed? (Text.removeBlanks name)) = some final.entry := by
  cases entry with
  | none =>
    cases entered
    exact ⟨.chooseEntry program.entry, rfl, rfl, rfl, congrArg some unset.symm⟩
  | some name =>
    unfold setEntry methodReferred at entered
    cases named : program.methodNamed? (Text.removeBlanks name) with
    | none => simp only [named] at entered; cases entered
    | some method =>
      simp only [named] at entered
      cases entered
      refine ⟨.chooseEntry (some method), rfl, rfl, rfl, ?_⟩
      rw [Option.mapM_some]
      exact congrArg (Option.map some) named

end Passes

theorem foldl_addFields (program : Program) :
    description.numberedClasses.foldl (fun program (written, id) => addFields program id written)
        program =
      description.ownedFields.foldl (fun program (owner, field) =>
        (program.addField owner field.name (program.typeNamed field.type)).1) program := by
  rw [ownedFields, List.foldl_flatMap]
  simp only [List.foldl_map]
  rfl

theorem foldl_addMethods (program : Program) :
    description.numberedClasses.foldl (fun program (written, id) => addMethods program id written)
        program =
      description.ownedMethods.foldl (fun program (owner, method) => addMethod program owner method)
        program := by
  rw [ownedMethods, List.foldl_flatMap]
  simp only [List.foldl_map]
  rfl

/-- A description that has a program passes every pass. -/
theorem passes_of_resolve {program : Program} (resolved : description.resolve = .ok program) :
    ∃ first second third fourth fifth, addClasses description.classes {} = .ok first ∧
      description.numberedClasses.foldlM
        (fun program (written, id) => setSupertypes program id written) first = .ok second ∧
      description.ownedFields.foldl (fun program (owner, field) =>
        (program.addField owner field.name (program.typeNamed field.type)).1) second = third ∧
      description.ownedMethods.foldl (fun program (owner, method) => addMethod program owner method)
        third = fourth ∧
      description.numberedMethods.foldlM (fun program (written, id) => addBody program id written)
        fourth = .ok fifth ∧
      setEntry description.entry fifth = .ok program := by
  unfold resolve at resolved
  simp only [bind, Except.bind, foldl_addFields, foldl_addMethods] at resolved
  split at resolved
  · cases resolved
  · next first named =>
    split at resolved
    · cases resolved
    · next second updated =>
      split at resolved
      · cases resolved
      · next fifth filled =>
        exact ⟨first, second, _, _, fifth, named, updated, rfl, rfl, filled, resolved⟩

/-- **The passes before the bodies** leave a program with everything else, in which all bodies are empty. -/
theorem outlines_of_passes {first second third fourth : Program}
    (named : addClasses description.classes {} = .ok first)
    (updated : description.numberedClasses.foldlM
      (fun program (written, id) => setSupertypes program id written) first = .ok second)
    (addedFields : description.ownedFields.foldl (fun program (owner, field) =>
      (program.addField owner field.name (program.typeNamed field.type)).1) second = third)
    (addedMethods : description.ownedMethods.foldl
      (fun program (owner, method) => addMethod program owner method) third = fourth) :
    Outlines description fourth ∧ fourth.entry = none ∧
      List.Forall₂ (fun written method => HeadMirrors fourth written method ∧ method.body = [])
        description.ownedMethods fourth.methods.toList := by
  obtain ⟨edits, others, classes⟩ := classes_of_setSupertypes named updated
  obtain ⟨size, isClass⟩ := forall₂_toList_iff.mp classes
  have owners {α : Type} {items : Class → List α} (written : ClassId × α)
      (among : written ∈ description.numberedClasses.flatMap fun (info, id) =>
        (items info).map fun item => (id, item)) : (second.class? written.1).isSome = true := by
    obtain ⟨info, here, _⟩ := class_of_mem_flatMap among
    obtain ⟨found, isFound, _⟩ := isClass written.1.index info here
    rw [Program.class?, isFound]
    rfl
  obtain ⟨addsFields, noMethods, fields, allFields, fieldMirrors⟩ :=
    fieldMirrors_of_foldl (fun written among => owners written among) addedFields
  obtain ⟨addsMethods, sameFields, methods, allMethods, headMirrors⟩ := headMirrors_of_foldl
    (fun written among => addsFields.edits.grows.isClass (owners written among)) addedMethods
  -- Nothing is in the tables of fields and methods before the passes that fill them.
  rw [others, List.nil_append] at allFields
  rw [noMethods, others, List.nil_append] at allMethods
  rw [← allMethods] at headMirrors
  have heads := headMirrors.imp fun _ _ mirrors =>
    (⟨mirrors.1.congr addsMethods.classNames, mirrors.2⟩ : HeadMirrors fourth _ _ ∧ _)
  have secondNames := addsMethods.classNames.trans addsFields.classNames
  refine ⟨⟨edits.trans (addsFields.edits.trans addsMethods.edits),
    addsMethods.classes (addsFields.classes classes), ?_, heads.imp fun _ _ => And.left⟩, ?_, heads⟩
  · rw [sameFields, allFields]
    exact fieldMirrors.imp fun _ _ => .congr secondNames
  · rw [addsMethods.entry, addsFields.entry, others]

/-- The pass that fills the bodies changes nothing else. -/
theorem FillsBodies.outlines {program final : Program} (fills : FillsBodies program final)
    (outlines : Outlines description program) : Outlines description final := by
  refine ⟨outlines.edits.trans fills.edits, ?_, ?_, fills.headMirrors outlines.methods⟩
  · rw [fills.classes]
    exact outlines.classes.imp fun _ _ => .congr fills.classNames rfl
  · rw [fills.fields]
    exact outlines.fields.imp fun _ _ => .congr fills.classNames

/-- **Every program that is loaded is built by changes and mirrors its description.** -/
theorem mirrors_of_resolve {program : Program} (resolved : description.resolve = .ok program) :
    Edits {} program ∧ Mirrors description program := by
  obtain ⟨first, second, third, fourth, fifth, named, updated, addedFields, addedMethods, filled,
    entered⟩ := passes_of_resolve resolved
  obtain ⟨outlines, unentered, heads⟩ := outlines_of_passes named updated addedFields addedMethods
  obtain ⟨fills, methodMirrors⟩ := methods_of_addBodies heads filled
  have filledOutlines := fills.outlines outlines
  obtain ⟨last, lastClasses, lastFields, lastMethods, entry⟩ :=
    entry_of_setEntry (fills.entry.trans unentered) entered
  have lastNames : program.classNames = fifth.classNames :=
    congrArg (fun table => table.toList.map CallFlow.Class.name) lastClasses
  refine ⟨filledOutlines.edits.tail last, ?_, ?_, ?_, entry⟩
  · rw [lastClasses]
    exact filledOutlines.classes.imp fun _ _ => .congr lastNames rfl
  · rw [lastFields]
    exact filledOutlines.fields.imp fun _ _ => .congr lastNames
  · rw [lastMethods]
    exact methodMirrors.imp fun _ _ mirrors => ⟨mirrors.toHeadMirrors.congr lastNames,
      mirrors.body.imp fun _ _ => .congr lastClasses lastFields last.grows⟩

/-- A text has the program of its description. -/
theorem ofText_eq_ok_iff {text : String} {program : Program} : Program.ofText text = .ok program ↔
    ∃ description, ofText text = .ok description ∧ description.resolve = .ok program := by
  unfold Program.ofText
  cases described : ofText text with
  | error problem => simp
  | ok description => cases resolved : description.resolve <;> simp [resolved]

/-- What is loaded from a text mirrors the description that the text gives. -/
theorem mirrors_of_ofText {text : String} {program : Program}
    (loaded : Program.ofText text = .ok program) : ∃ description, ofText text = .ok description ∧
      Edits {} program ∧ Mirrors description program := by
  obtain ⟨description, described, resolved⟩ := ofText_eq_ok_iff.mp loaded
  exact ⟨description, described, mirrors_of_resolve resolved⟩

end Description

end CallFlow
