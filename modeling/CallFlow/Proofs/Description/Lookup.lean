/-
**What names stand for.**

The loader looks names up in a program that it has only begun to make. What it finds depends on the
description alone: a class is found by its name, a field on the chain of superclasses that the classes
name, a method by its signature in its class.

* `Description.Named`, `Description.FindsField`, `Description.LacksField`: classes and fields by name.
* `Description.FieldReferred`, `Description.MethodReferred`: what a reference to a field and a full name
  of a method stand for.
* `Description.Outlines.fieldReferred_iff`, `Description.Outlines.methodReferred_iff`: that is what the
  loader finds, as soon as it has everything of the description apart from the bodies and the entry.
-/

import Mathlib.Data.List.TakeDrop
import Mathlib.Data.List.TakeWhile
import Mathlib.Data.Nat.Find
import CallFlow.Proofs.Description.Reference

namespace CallFlow

/-! ### Full names -/

/-- A text is split at its last dot. -/
structure SplitsAtDot (text owner name : String) : Prop where
  whole : text = owner ++ "." ++ name
  last : '.' ∉ name.toList

/-- A full method name is split at the last dot before its first bracket. -/
structure SplitsBeforeBracket (text owner signature : String) : Prop where
  whole : text = owner ++ "." ++ signature
  unopened : '(' ∉ owner.toList
  bracket : ∃ simple rest, signature = simple ++ "(" ++ rest ∧ '.' ∉ simple.toList ∧
    '(' ∉ simple.toList

namespace SplitsAtDot

variable {text owner name : String} (splits : SplitsAtDot text owner name)
include splits

theorem splitAtLast : Text.splitAtLast '.' text.toList = some (owner.toList, name.toList) := by
  obtain ⟨rfl, last⟩ := splits
  simpa using Text.splitAtLast_append owner.toList last

theorem dotted : '.' ∈ text.toList := by
  rw [splits.whole]
  simp

/-- There is one way to split a text at its last dot. -/
theorem unique {otherOwner otherName : String} (others : SplitsAtDot text otherOwner otherName) :
    owner = otherOwner ∧ name = otherName := by
  have same := splits.splitAtLast.symm.trans others.splitAtLast
  rw [Option.some.injEq, Prod.mk.injEq, String.toList_inj, String.toList_inj] at same
  exact same

end SplitsAtDot

theorem splitsAtDot_of_splitAtLast {text : String} {owner name : List Char}
    (parts : Text.splitAtLast '.' text.toList = some (owner, name)) :
    SplitsAtDot text (String.ofList owner) (String.ofList name) := by
  obtain ⟨whole, last⟩ := Text.splitAtLast_eq_some_iff.mp parts
  refine ⟨?_, by simpa using last⟩
  rw [← String.toList_inj, whole]
  simp

/-- The characters before the first occurrence of a mark, and those from it on. -/
theorem span_eq_iff {mark : Char} {chars before after : List Char} :
    chars.span (fun char => char ≠ mark) = (before, mark :: after) ↔
      chars = before ++ mark :: after ∧ mark ∉ before := by
  rw [List.span_eq_takeWhile_dropWhile, Prod.mk.injEq]
  constructor
  · rintro ⟨rfl, rest⟩
    refine ⟨?_, fun among => ?_⟩
    · rw [← rest, List.takeWhile_append_dropWhile]
    · simpa using List.mem_takeWhile_imp among
  · rintro ⟨rfl, absent⟩
    have others : ∀ char ∈ before, decide (char ≠ mark) = true :=
      fun char among => decide_eq_true fun same => absent (same ▸ among)
    rw [List.takeWhile_append_of_pos others, List.dropWhile_append_of_pos others]
    simp

theorem splitMethodName_eq_some {text owner signature : String} :
    Program.splitMethodName text = some (owner, signature) ↔
      SplitsBeforeBracket text owner signature := by
  unfold Program.splitMethodName
  constructor
  · intro parts
    cases spanned : text.toList.span (fun char => char ≠ '(') with
    | mk before after =>
      rw [spanned] at parts
      cases after with
      | nil => cases parts
      | cons char rest =>
        obtain ⟨⟨owner, simple⟩, split, same⟩ := Option.map_eq_some_iff.mp parts
        cases same
        have mark : char = '(' := by
          have head := List.head?_dropWhile_not (fun char => decide (char ≠ '(')) text.toList
          rw [List.span_eq_takeWhile_dropWhile, Prod.mk.injEq] at spanned
          rw [spanned.2] at head
          simpa using head
        subst mark
        obtain ⟨whole, closed⟩ := span_eq_iff.mp spanned
        obtain ⟨rfl, undotted⟩ := Text.splitAtLast_eq_some_iff.mp split
        refine ⟨?_, ?_, String.ofList simple, String.ofList rest, ?_, ?_, ?_⟩
        · rw [← String.toList_inj, whole]
          simp
        · simpa using fun among => closed (List.mem_append_left _ among)
        · simp [← String.toList_inj]
        · simpa using undotted
        · simpa using fun among => closed (List.mem_append_right _ (List.mem_cons_of_mem _ among))
  · rintro ⟨rfl, unopened, simple, rest, rfl, undotted, closed⟩
    have absent : '(' ∉ owner.toList ++ '.' :: simple.toList := by
      simp [unopened, closed]
    have chars : (owner ++ "." ++ (simple ++ "(" ++ rest)).toList =
        (owner.toList ++ '.' :: simple.toList) ++ '(' :: rest.toList := by simp
    rw [span_eq_iff.mpr ⟨chars, absent⟩]
    simp [Text.splitAtLast_append _ undotted, ← String.toList_inj]

/-- A method is found by its full name in three steps, and each of them must find something. -/
theorem methodNamed_eq_some {program : Program} {text : String} {id : MethodId} :
    program.methodNamed? text = some id ↔ ∃ owner signature declaring member,
      SplitsBeforeBracket text owner signature ∧ program.classNamed? owner = some declaring ∧
      program.memberNamed? signature = some member ∧ program.declared? declaring member = some id := by
  simp only [← splitMethodName_eq_some]
  constructor
  · intro named
    obtain ⟨⟨owner, signature⟩, split, named⟩ := Option.bind_eq_some_iff.mp named
    obtain ⟨declaring, isOwner, named⟩ := Option.bind_eq_some_iff.mp named
    obtain ⟨member, known, declared⟩ := Option.bind_eq_some_iff.mp named
    exact ⟨owner, signature, declaring, member, split, isOwner, known, declared⟩
  · rintro ⟨owner, signature, declaring, member, split, isOwner, known, declared⟩
    exact Option.bind_eq_some_iff.mpr ⟨(owner, signature), split,
      Option.bind_eq_some_iff.mpr ⟨declaring, isOwner,
        Option.bind_eq_some_iff.mpr ⟨member, known, declared⟩⟩⟩

/-! ### Records of a class -/

/-- Where the entries of two lists agree in what is looked at, the lists do. -/
theorem map_eq_map_of_forall₂ {α β γ : Type} {entries : List α} {records : List β} {view : α → γ}
    {look : β → γ} (each : List.Forall₂ (fun entry record => look record = view entry) entries records) :
    records.map look = entries.map view := by
  have mapped := List.forall₂_map_left_iff.mpr (List.forall₂_map_right_iff.mpr each.flip)
  rw [List.forall₂_eq_eq_eq] at mapped
  exact mapped

/-- A record is the first one of its class with a property. -/
structure FirstOwned {α : Type} (owned : List (ClassId × α)) (owner : ClassId) (holds : α → Prop)
    (index : Nat) : Prop where
  here : ∃ record, owned[index]? = some (owner, record) ∧ holds record
  first : ∀ earlier < index, ∀ other, owned[earlier]? = some (owner, other) → ¬ holds other

/-- A class has a first record with a property if it has any. -/
theorem exists_firstOwned_iff {α : Type} {owned : List (ClassId × α)} {owner : ClassId}
    {holds : α → Prop} : (∃ index, FirstOwned owned owner holds index) ↔
      ∃ record, (owner, record) ∈ owned ∧ holds record := by
  classical
  constructor
  · rintro ⟨index, ⟨record, here, holding⟩, _⟩
    exact ⟨record, List.mem_of_getElem? here, holding⟩
  · rintro ⟨record, among, holding⟩
    obtain ⟨index, here⟩ := List.mem_iff_getElem?.mp among
    have some_index : ∃ index, ∃ record, owned[index]? = some (owner, record) ∧ holds record :=
      ⟨index, record, here, holding⟩
    exact ⟨Nat.find some_index, Nat.find_spec some_index, fun earlier less other before holding =>
      Nat.find_min some_index less ⟨other, before, holding⟩⟩

/-- **The first record that a class lists with a property** is the first one of the class with what the
property means. -/
theorem find?_eq_some_iff_firstOwned {α ρ ι : Type} {owned : List (ClassId × α)} {table : Array ρ}
    {ownerOf : ρ → ClassId} {position : ι → Nat} (injective : Function.Injective position)
    {ids : List ι} {owner : ClassId} (lists : Lists (table.toList.map ownerOf) owner (ids.map position))
    {test : ρ → Bool} {holds : α → Prop}
    (each : List.Forall₂ (fun written record => ownerOf record = written.1 ∧
      (test record = true ↔ holds written.2)) owned table.toList) {id : ι} :
    ids.find? (fun id => (table[position id]?).any test) = some id ↔
      FirstOwned owned owner holds (position id) := by
  have byPosition : ids.find? (fun id => (table[position id]?).any test) = some id ↔
      (ids.map position).find? (fun index => (table[index]?).any test) = some (position id) := by
    rw [List.find?_map, Option.map_eq_some_iff]
    exact ⟨fun found => ⟨id, found, rfl⟩, fun ⟨other, found, same⟩ => injective same ▸ found⟩
  obtain ⟨size, stands⟩ := forall₂_toList_iff.mp each
  have sameOwner (index : Nat) :
      (table.toList.map ownerOf)[index]? = (owned[index]?).map Prod.fst := by
    rw [List.getElem?_map, Array.getElem?_toList]
    cases written : owned[index]? with
    | none =>
      rw [List.getElem?_eq_none_iff, size] at written
      rw [Array.getElem?_eq_none written]
      rfl
    | some entry =>
      obtain ⟨record, here, same, _⟩ := stands index entry written
      rw [here, Option.map_some, Option.map_some, same]
  have passes {index : Nat} {record : α} (written : owned[index]? = some (owner, record)) :
      (table[index]?).any test = true ↔ holds record := by
    obtain ⟨found, here, _, meaning⟩ := stands index _ written
    rw [here, Option.any_some]
    exact meaning
  rw [byPosition, lists.find?_eq_some_iff]
  simp only [sameOwner, Option.map_eq_some_iff, Prod.exists, exists_and_right, exists_eq_right]
  constructor
  · rintro ⟨⟨record, written⟩, passed, first⟩
    refine ⟨⟨record, written, (passes written).mp passed⟩, fun earlier less other before holds => ?_⟩
    rw [← passes before, first earlier less ⟨other, before⟩] at holds
    cases holds
  · rintro ⟨⟨record, written, holds⟩, first⟩
    refine ⟨⟨record, written⟩, (passes written).mpr holds, fun earlier less ⟨other, before⟩ => ?_⟩
    exact Bool.eq_false_iff.mpr fun passed => first earlier less other before ((passes before).mp passed)

namespace Description

variable (description : Description)

/-! ### Names in a description -/

/-- The class at a position has a name. -/
def Named (name : String) (id : ClassId) : Prop :=
  ∃ written, description.classes[id.index]? = some written ∧ written.name = name

/-- A field is the first one with a name in the nearest class, upwards from a class, that has one. -/
inductive FindsField (name : String) : ClassId → FieldId → Prop where
  | own {id : ClassId} {field : FieldId}
      (declares : FirstOwned description.ownedFields id (fun record => record.name = name) field.index) :
      FindsField name id field
  | inherited {id above : ClassId} {written : Class} {superclass : String} {field : FieldId}
      (isClass : description.classes[id.index]? = some written)
      (lacks : ∀ record ∈ written.fields, record.name ≠ name)
      (extending : written.superclass = some superclass) (named : description.Named superclass above)
      (rest : FindsField name above field) : FindsField name id field

/-- The classes upwards from a class come to an end, and none of them has a field with a name. -/
inductive LacksField (name : String) : ClassId → Prop where
  | top {id : ClassId} {written : Class} (isClass : description.classes[id.index]? = some written)
      (lacks : ∀ record ∈ written.fields, record.name ≠ name) (ends : written.superclass = none) :
      LacksField name id
  | inherited {id above : ClassId} {written : Class} {superclass : String}
      (isClass : description.classes[id.index]? = some written)
      (lacks : ∀ record ∈ written.fields, record.name ≠ name)
      (extending : written.superclass = some superclass) (named : description.Named superclass above)
      (rest : LacksField name above) : LacksField name id

/-- A reference stands for a field: up to its last dot it names a class, and after it a field that is
found from there. -/
def FieldReferred (reference : String) (field : FieldId) : Prop :=
  ∃ owner name id, SplitsAtDot reference owner name ∧ description.Named owner id ∧
    description.FindsField name id field

/-- A full name, in which blanks do not count, stands for a method: the first one with its signature in
the class that it names. -/
def MethodReferred (name : String) (method : MethodId) : Prop :=
  ∃ owner signature id, SplitsBeforeBracket (Text.removeBlanks name) owner signature ∧
    description.Named owner id ∧
    FirstOwned description.ownedMethods id (fun record => record.signature = signature) method.index

variable {description}

/-- Among distinct names a name belongs to one class. -/
theorem Named.unique (distinct : (description.classes.map Class.name).Nodup) {name : String}
    {id other : ClassId} (named : description.Named name id) (others : description.Named name other) :
    id = other := by
  obtain ⟨written, isWritten, rfl⟩ := named
  obtain ⟨otherWritten, isOther, same⟩ := others
  have place : (description.classes.map Class.name)[id.index]? = some written.name := by
    rw [List.getElem?_map, isWritten]
    rfl
  have otherPlace : (description.classes.map Class.name)[other.index]? = some written.name := by
    rw [List.getElem?_map, isOther, Option.map_some, same]
  have inside := (List.getElem?_eq_some_iff.mp place).1
  exact congrArg ClassId.mk
    ((List.getElem?_inj inside distinct).mp (place.trans otherPlace.symm))

theorem mem_ownedFields {id : ClassId} {record : Field} :
    (id, record) ∈ description.ownedFields ↔
      ∃ written, description.classes[id.index]? = some written ∧ record ∈ written.fields := by
  refine ⟨class_of_mem_flatMap, fun ⟨written, isWritten, among⟩ => ?_⟩
  exact List.mem_flatMap.mpr ⟨(written, id), mem_numberedClasses.mpr isWritten,
    List.mem_map.mpr ⟨record, among, rfl⟩⟩

/-- Among distinct names a search for a field finds one or comes to an end, not both. -/
theorem FindsField.not_lacks (distinct : (description.classes.map Class.name).Nodup) {name : String}
    {id : ClassId} {field : FieldId} (finds : description.FindsField name id field) :
    ¬ description.LacksField name id := by
  induction finds with
  | @own id field declares =>
    obtain ⟨record, owned, named⟩ := declares.here
    obtain ⟨written, isWritten, among⟩ := mem_ownedFields.mp (List.mem_of_getElem? owned)
    rintro (⟨isClass, lacks, _⟩ | ⟨isClass, lacks, _, _, _⟩) <;>
    · rw [isWritten] at isClass
      cases isClass
      exact lacks record among named
  | inherited isWritten _ extending named _ hyp =>
    rintro (⟨isClass, _, ends⟩ | ⟨isClass, _, otherwise, others, rest⟩)
    · rw [isWritten] at isClass
      cases isClass
      rw [extending] at ends
      cases ends
    · rw [isWritten] at isClass
      cases isClass
      rw [extending] at otherwise
      cases otherwise
      exact hyp (named.unique distinct others ▸ rest)

/-! ### Programs that have everything apart from the bodies -/

variable {program : Program}

theorem Mirrors.outlines (mirrors : Mirrors description program) (edits : Program.Edits {} program) :
    Outlines description program :=
  ⟨edits, mirrors.classes, mirrors.fields, mirrors.methods.imp fun _ _ => MethodMirrors.toHeadMirrors⟩

/-- Among distinct names the loader finds the class at the position with the name. -/
theorem classNamed_iff (distinct : program.classNames.Nodup)
    (names : program.classNames = description.classes.map Class.name) {name : String} {id : ClassId} :
    program.classNamed? name = some id ↔ description.Named name id := by
  rw [Program.classNamed?_eq_some_iff distinct, ← program.classNames_getElem?, names,
    List.getElem?_map, Option.map_eq_some_iff]
  rfl

namespace Outlines

variable (outlines : Outlines description program)
include outlines

theorem consistent : program.Consistent := outlines.edits.consistent

theorem classNames : program.classNames = description.classes.map Class.name :=
  map_eq_map_of_forall₂ (outlines.classes.imp fun _ _ => ClassMirrors.name)

theorem distinct : (description.classes.map Class.name).Nodup :=
  outlines.classNames ▸ outlines.consistent.distinctClasses

theorem classNamed_iff {name : String} {id : ClassId} :
    program.classNamed? name = some id ↔ description.Named name id :=
  Description.classNamed_iff outlines.consistent.distinctClasses outlines.classNames

/-- The class at a position of the description is the class at this position of the program. -/
theorem exists_class {id : ClassId} {written : Class}
    (isWritten : description.classes[id.index]? = some written) :
    ∃ info, program.class? id = some info ∧ ClassMirrors program written info :=
  (forall₂_toList_iff.mp outlines.classes).2 id.index written isWritten

theorem exists_written {id : ClassId} {info : CallFlow.Class} (isClass : program.class? id = some info) :
    ∃ written, description.classes[id.index]? = some written ∧ ClassMirrors program written info := by
  obtain ⟨inside, _⟩ := Array.getElem?_eq_some_iff.mp isClass
  have size := (forall₂_toList_iff.mp outlines.classes).1
  have isWritten := List.getElem?_eq_getElem (size.symm ▸ inside)
  obtain ⟨found, same, mirrors⟩ := outlines.exists_class isWritten
  rw [isClass] at same
  cases same
  exact ⟨_, isWritten, mirrors⟩

/-! ### Fields -/

/-- The loader finds the first field of a class with a name. -/
theorem ownField_iff {id : ClassId} {info : CallFlow.Class} (isClass : program.class? id = some info)
    {name : String} {field : FieldId} : program.ownField? info name = some field ↔
      FirstOwned description.ownedFields id (fun record => record.name = name) field.index := by
  have injective : Function.Injective FieldId.index := fun _ _ same => congrArg FieldId.mk same
  refine find?_eq_some_iff_firstOwned injective (outlines.consistent.fields id info isClass) ?_
  refine outlines.fields.imp fun written record mirrors => ⟨mirrors.owner, ?_⟩
  rw [decide_eq_true_iff, mirrors.name]

/-- A class that has no field with a name declares none in its description. -/
theorem ownField_eq_none_iff {id : ClassId} {info : CallFlow.Class} {written : Class}
    (isClass : program.class? id = some info) (isWritten : description.classes[id.index]? = some written)
    {name : String} : program.ownField? info name = none ↔
      ∀ record ∈ written.fields, record.name ≠ name := by
  rw [Option.eq_none_iff_forall_ne_some]
  constructor
  · intro lacks record among named
    have owned := mem_ownedFields.mpr ⟨written, isWritten, among⟩
    obtain ⟨index, first⟩ : ∃ index, FirstOwned description.ownedFields id
        (fun record => record.name = name) index := exists_firstOwned_iff.mpr ⟨record, owned, named⟩
    exact lacks ⟨index⟩ ((outlines.ownField_iff isClass).mpr first)
  · intro lacks field found
    obtain ⟨record, owned, named⟩ :=
      exists_firstOwned_iff.mp ⟨field.index, (outlines.ownField_iff isClass).mp found⟩
    obtain ⟨other, isOther, among⟩ := mem_ownedFields.mp owned
    rw [isWritten] at isOther
    cases isOther
    exact lacks record among named

/-- **A walk that ends has found what the description says**, or the description says that there is
nothing. -/
theorem findsField_of_ascendWithin {name : String} (steps : Nat) {id : ClassId} :
    (∀ field, program.ascendWithin (fun _ info => program.ownField? info name) steps id =
        .ok (some field) → description.FindsField name id field) ∧
      (program.ascendWithin (fun _ info => program.ownField? info name) steps id = .ok none →
        description.LacksField name id) := by
  induction steps generalizing id with
  | zero => exact ⟨by rintro _ ⟨⟩, by rintro ⟨⟩⟩
  | succ steps hyp =>
    unfold Program.ascendWithin
    cases isClass : program.class? id with
    | none => exact ⟨by rintro _ ⟨⟩, by rintro ⟨⟩⟩
    | some info =>
      obtain ⟨written, isWritten, mirrors⟩ := outlines.exists_written isClass
      cases own : program.ownField? info name with
      | some first =>
        simp only [own]
        refine ⟨fun field same => ?_, by rintro ⟨⟩⟩
        cases same
        exact .own ((outlines.ownField_iff isClass).mp own)
      | none =>
        have lacks := (outlines.ownField_eq_none_iff isClass isWritten).mp own
        rcases mirrors.superclass_cases with ⟨top, ends⟩ | ⟨text, above, extending, named, next⟩
        · simp only [own, ends]
          exact ⟨by rintro _ ⟨⟩, fun _ => .top isWritten lacks top⟩
        · simp only [own, next]
          have named := outlines.classNamed_iff.mp named
          exact ⟨fun field found => .inherited isWritten lacks extending named (hyp.1 field found),
            fun nothing => .inherited isWritten lacks extending named (hyp.2 nothing)⟩

/-- From a class that lacks a field a walk goes on at the superclass. -/
theorem ascendWithin_succ {name superclass : String} {id above : ClassId} {written : Class}
    (isWritten : description.classes[id.index]? = some written)
    (lacks : ∀ record ∈ written.fields, record.name ≠ name)
    (extending : written.superclass = some superclass) (named : description.Named superclass above)
    (steps : Nat) :
    program.ascendWithin (fun _ info => program.ownField? info name) (steps + 1) id =
      program.ascendWithin (fun _ info => program.ownField? info name) steps above := by
  obtain ⟨info, isClass, mirrors⟩ := outlines.exists_class isWritten
  have own := (outlines.ownField_eq_none_iff isClass isWritten).mpr lacks
  have next : info.superclass = some above := by
    rcases mirrors.superclass_cases with ⟨top, _⟩ | ⟨text, found, same, known, next⟩
    · rw [extending] at top
      cases top
    · rw [extending] at same
      cases same
      rw [outlines.classNamed_iff.mpr named] at known
      rw [next, known]
  conv => lhs; unfold Program.ascendWithin
  simp only [isClass, own, next]

/-- A field that the description finds is found by a walk. -/
theorem ascendWithin_of_findsField {name : String} {id : ClassId} {field : FieldId}
    (finds : description.FindsField name id field) :
    ∃ steps, program.ascendWithin (fun _ info => program.ownField? info name) steps id =
      .ok (some field) := by
  induction finds with
  | @own id field declares =>
    obtain ⟨record, owned, _⟩ := declares.here
    obtain ⟨written, isWritten, _⟩ := mem_ownedFields.mp (List.mem_of_getElem? owned)
    obtain ⟨info, isClass, _⟩ := outlines.exists_class isWritten
    refine ⟨1, ?_⟩
    unfold Program.ascendWithin
    simp only [isClass, (outlines.ownField_iff isClass).mpr declares]
  | inherited isWritten lacks extending named rest hyp =>
    obtain ⟨steps, found⟩ := hyp
    exact ⟨steps + 1, (outlines.ascendWithin_succ isWritten lacks extending named steps).trans found⟩

theorem ascendWithin_of_lacksField {name : String} {id : ClassId}
    (lacks : description.LacksField name id) :
    ∃ steps, program.ascendWithin (fun _ info => program.ownField? info name) steps id = .ok none := by
  induction lacks with
  | top isWritten lacks ends =>
    obtain ⟨info, isClass, mirrors⟩ := outlines.exists_class isWritten
    have own := (outlines.ownField_eq_none_iff isClass isWritten).mpr lacks
    refine ⟨1, ?_⟩
    unfold Program.ascendWithin
    rcases mirrors.superclass_cases with ⟨_, top⟩ | ⟨_, _, extending, _⟩
    · simp only [isClass, own, top]
    · rw [ends] at extending
      cases extending
  | inherited isWritten lacks extending named rest hyp =>
    obtain ⟨steps, nothing⟩ := hyp
    exact ⟨steps + 1, (outlines.ascendWithin_succ isWritten lacks extending named steps).trans nothing⟩

/-- **The loader finds a field exactly if the description has one.** -/
theorem lookupField_eq_some_iff {name : String} {id : ClassId} {field : FieldId} :
    program.lookupField id name = .ok (some field) ↔ description.FindsField name id field := by
  refine ⟨(outlines.findsField_of_ascendWithin _).1 field, fun finds => ?_⟩
  obtain ⟨steps, found⟩ := outlines.ascendWithin_of_findsField finds
  rw [Program.lookupField, Program.ascend_of_ends (by rw [found]; nofun), found]

theorem lookupField_eq_none_iff {name : String} {id : ClassId} :
    program.lookupField id name = .ok none ↔ description.LacksField name id := by
  refine ⟨(outlines.findsField_of_ascendWithin _).2, fun lacks => ?_⟩
  obtain ⟨steps, found⟩ := outlines.ascendWithin_of_lacksField lacks
  rw [Program.lookupField, Program.ascend_of_ends (by rw [found]; nofun), found]

/-- **What a reference to a field stands for** is what the loader finds. -/
theorem fieldReferred_iff {reference : String} {field : FieldId} :
    fieldReferred program reference = .ok field ↔ description.FieldReferred reference field := by
  rw [fieldReferred_eq_ok]
  constructor
  · rintro ⟨owner, name, id, parts, named, looked⟩
    exact ⟨_, _, id, splitsAtDot_of_splitAtLast parts, outlines.classNamed_iff.mp named,
      outlines.lookupField_eq_some_iff.mp looked⟩
  · rintro ⟨owner, name, id, splits, named, finds⟩
    refine ⟨owner.toList, name.toList, id, splits.splitAtLast, ?_, ?_⟩
    · rw [String.ofList_toList]
      exact outlines.classNamed_iff.mpr named
    · rw [String.ofList_toList]
      exact outlines.lookupField_eq_some_iff.mpr finds

/-! ### Methods -/

/-- The loader finds the first method of a class with a signature. -/
theorem declared_iff {id : ClassId} {member : MemberId} {signature : String} {method : MethodId}
    (isClass : (program.class? id).isSome = true) (known : program.member? member = some signature) :
    program.declared? id member = some method ↔
      FirstOwned description.ownedMethods id (fun record => record.signature = signature)
        method.index := by
  obtain ⟨info, found⟩ := Option.isSome_iff_exists.mp isClass
  have injective : Function.Injective MethodId.index := fun _ _ same => congrArg MethodId.mk same
  obtain ⟨size, heads⟩ := forall₂_toList_iff.mp outlines.methods
  unfold Program.declared?
  rw [found, Option.bind_some]
  refine find?_eq_some_iff_firstOwned injective (outlines.consistent.methods id info found)
    (forall₂_toList_iff.mpr ⟨size, fun index written here => ?_⟩)
  obtain ⟨record, isMethod, mirrors⟩ := heads index written here
  have isMethod : program.method? ⟨index⟩ = some record := isMethod
  refine ⟨record, isMethod, mirrors.owner, ?_⟩
  rw [decide_eq_true_iff,
    member_eq_iff outlines.consistent (mirrors.member outlines.consistent isMethod) known]

theorem methodNamed_iff {text : String} {method : MethodId} :
    program.methodNamed? text = some method ↔ ∃ owner signature id,
      SplitsBeforeBracket text owner signature ∧ description.Named owner id ∧
      FirstOwned description.ownedMethods id (fun record => record.signature = signature)
        method.index := by
  have distinct := outlines.consistent.distinctMembers
  rw [methodNamed_eq_some]
  constructor
  · rintro ⟨owner, signature, id, member, splits, isOwner, known, declared⟩
    have known := (Program.memberNamed?_eq_some_iff distinct).mp known
    exact ⟨owner, signature, id, splits, outlines.classNamed_iff.mp isOwner,
      (outlines.declared_iff (Program.class?_of_classNamed isOwner) known).mp declared⟩
  · rintro ⟨owner, signature, id, splits, named, first⟩
    have isOwner := outlines.classNamed_iff.mpr named
    obtain ⟨written, here, rfl⟩ := first.here
    obtain ⟨record, isMethod, mirrors⟩ := (forall₂_toList_iff.mp outlines.methods).2 _ _ here
    have isMethod : program.method? method = some record := isMethod
    have known := mirrors.member outlines.consistent isMethod
    exact ⟨owner, _, id, record.member, splits, isOwner,
      (Program.memberNamed?_eq_some_iff distinct).mpr known,
      (outlines.declared_iff (Program.class?_of_classNamed isOwner) known).mpr first⟩

/-- **What a full name of a method stands for** is what the loader finds. -/
theorem methodReferred_iff {name : String} {method : MethodId} :
    methodReferred program name = .ok method ↔ description.MethodReferred name method := by
  rw [MethodReferred, ← outlines.methodNamed_iff]
  unfold methodReferred
  cases program.methodNamed? (Text.removeBlanks name) with
  | none => simp
  | some found => simp

end Outlines

end Description

end CallFlow
