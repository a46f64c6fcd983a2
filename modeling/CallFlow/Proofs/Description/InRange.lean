/-
**Every loaded program is in range.**

Nothing looks at an identifier before it is stored, since it comes from a search in a table, or from the
end of one that just grew. No table shrinks afterwards, so at the end every identifier that was stored
is inside its table.

* `Description.Mirrors.inRange`: a consistent program that mirrors a description is in range.
* `Description.inRange_of_ofText`: so is every program that is loaded from a text, and its entry method
  is a method of it.
-/

import CallFlow.Proofs.Description.Mirror

namespace CallFlow

/-- Each record stands for an entry. -/
theorem exists_entry_of_mem {α β : Type} {stands : α → β → Prop} {written : List α} {records : List β}
    (each : List.Forall₂ stands written records) {record : β} (among : record ∈ records) :
    ∃ entry ∈ written, stands entry record := by
  induction each with
  | nil => cases among
  | @cons entry first entries rest here later hyp =>
    rcases List.mem_cons.mp among with rfl | among
    · exact ⟨entry, List.mem_cons_self, here⟩
    · obtain ⟨other, member, stands⟩ := hyp among
      exact ⟨other, List.mem_cons_of_mem _ member, stands⟩

/-! ### What a search finds -/

/-- What a class lists is inside the table. -/
theorem Lists.isSome_getElem? {α : Type} {table : Array α} {ownerOf : α → ClassId} {owner : ClassId}
    {listed : List Nat} (lists : Lists (table.toList.map ownerOf) owner listed) {index : Nat}
    (among : index ∈ listed) : (table[index]?).isSome = true := by
  have inside := lists.lt_length among
  rw [List.length_map, Array.length_toList] at inside
  rw [Array.getElem?_eq_getElem inside]
  rfl

namespace Program

variable {program : Program}

/-- A field that is found is a field of the program, whatever the class lists. -/
theorem isField_of_lookupField {owner : ClassId} {name : String} {field : FieldId}
    (found : program.lookupField owner name = .ok (some field)) :
    (program.field? field).isSome = true := by
  obtain ⟨_, info, _, own⟩ := exists_find_of_ascendWithin found
  have passes := List.find?_some own
  rw [Option.any_eq_true] at passes
  obtain ⟨record, isField, _⟩ := passes
  rw [isField]
  rfl

/-- A method that is found by its full name is a method of the program. -/
theorem isMethod_of_methodNamed {name : String} {method : MethodId}
    (named : program.methodNamed? name = some method) : (program.method? method).isSome = true := by
  obtain ⟨parts, _, named⟩ := Option.bind_eq_some_iff.mp named
  obtain ⟨owner, _, named⟩ := Option.bind_eq_some_iff.mp named
  obtain ⟨member, _, declared⟩ := Option.bind_eq_some_iff.mp named
  exact isMethod_of_declared declared

end Program

namespace Description

variable {program : Program}

theorem isField_of_fieldReferred {reference : String} {field : FieldId}
    (referred : fieldReferred program reference = .ok field) :
    (program.field? field).isSome = true := by
  obtain ⟨_, _, _, _, _, looked⟩ := fieldReferred_eq_ok.mp referred
  exact Program.isField_of_lookupField looked

theorem isMethod_of_methodReferred {name : String} {method : MethodId}
    (referred : methodReferred program name = .ok method) :
    (program.method? method).isSome = true := by
  unfold methodReferred at referred
  split at referred
  · next named =>
    cases referred
    exact Program.isMethod_of_methodNamed named
  · cases referred

/-! ### What the parts of a description become -/

/-- Names that are all found stand for classes of the program. -/
theorem isClass_of_mapM {names : List String} {ids : List ClassId}
    (found : names.mapM program.classNamed? = some ids) :
    ∀ id ∈ ids, (program.class? id).isSome = true := by
  induction names generalizing ids with
  | nil =>
    cases found
    nofun
  | cons name rest hyp =>
    rw [List.mapM_cons] at found
    obtain ⟨first, named, found⟩ := Option.bind_eq_some_iff.mp found
    obtain ⟨others, later, same⟩ := Option.bind_eq_some_iff.mp found
    cases same
    exact List.forall_mem_cons.mpr ⟨Program.class?_of_classNamed named, hyp later⟩

/-- The supertypes of a class are classes. -/
theorem ClassMirrors.isClass {written : Class} {info : CallFlow.Class}
    (mirrors : ClassMirrors program written info) {next : ClassId}
    (edge : next ∈ info.directSupertypes) : (program.class? next).isSome = true := by
  rcases List.mem_append.mp edge with above | above
  · rw [Option.mem_toList] at above
    rcases mirrors.superclass_cases with ⟨_, top⟩ | ⟨name, superclass, _, named, extending⟩
    · rw [top] at above
      cases above
    · rw [extending] at above
      cases above
      exact Program.class?_of_classNamed named
  · exact isClass_of_mapM mirrors.interfaces next above

/-- A statement mentions what its names stand for. -/
theorem Translates.inRange {written : Statement} {statement : CallFlow.Statement}
    (translates : Translates program written statement) :
    program.statementInRange statement = true := by
  cases translates with
  | new named => exact Program.class?_of_classNamed named
  | newArray element => exact Program.hasType_typeNamed element
  | store referred | load referred => exact isField_of_fieldReferred referred
  | invoke kind named known =>
    refine Bool.and_eq_true_iff.mpr ⟨Program.class?_of_classNamed named, ?_⟩
    simp only [known, Option.isSome_some]
  | other => rfl

/-- The parameter types, the result type and the body of a method mention what their names stand for. -/
theorem MethodMirrors.inRange (consistent : program.Consistent) {written : ClassId × Method}
    {method : CallFlow.Method} (isMethod : method ∈ program.methods)
    (mirrors : MethodMirrors program written method) : program.methodInRange method = true := by
  have headed := consistent.heads method isMethod
  have result : method.result.all program.hasType = true := by
    rw [mirrors.result, Option.all_eq_true]
    intro type isResult
    obtain ⟨name, _, rfl⟩ := Option.map_eq_some_iff.mp isResult
    exact Program.hasType_typeNamed name
  have body : ∀ statement ∈ method.body, program.statementInRange statement = true := by
    intro statement stands
    obtain ⟨written, _, translates⟩ := exists_entry_of_mem mirrors.body stands
    exact translates.inRange
  unfold Program.methodInRange
  simp only [Bool.and_eq_true, List.all_eq_true]
  refine ⟨⟨⟨⟨headed.owner, ?_⟩, headed.params⟩, result⟩, body⟩
  rw [headed.member]
  rfl

/-! ### The whole -/

/-- **A consistent program that mirrors a description is in range.** -/
theorem Mirrors.inRange {description : Description} (mirrors : Mirrors description program)
    (consistent : program.Consistent) : program.InRange where
  classes info isClass := by
    obtain ⟨index, inside, rfl⟩ := Array.mem_iff_getElem.mp isClass
    obtain ⟨written, _, classMirrors⟩ :=
      exists_entry_of_mem mirrors.classes (Array.mem_toList_iff.mpr isClass)
    have here : program.class? ⟨index⟩ = some program.classes[index] :=
      Array.getElem?_eq_getElem inside
    unfold Program.classInRange
    simp only [Bool.and_eq_true, List.all_eq_true]
    refine ⟨⟨fun next => classMirrors.isClass, fun method listed => ?_⟩, fun field listed => ?_⟩
    · exact (consistent.methods _ _ here).isSome_getElem? (List.mem_map_of_mem listed)
    · exact (consistent.fields _ _ here).isSome_getElem? (List.mem_map_of_mem listed)
  methods method isMethod := by
    obtain ⟨written, _, methodMirrors⟩ :=
      exists_entry_of_mem mirrors.methods (Array.mem_toList_iff.mpr isMethod)
    exact methodMirrors.inRange consistent isMethod
  fields field isField := by
    obtain ⟨written, _, fieldMirrors⟩ :=
      exists_entry_of_mem mirrors.fields (Array.mem_toList_iff.mpr isField)
    unfold Program.fieldInRange
    rw [consistent.fieldOwners field isField, fieldMirrors.type, Program.hasType_typeNamed]
    rfl

/-- The entry method of a program that mirrors a description is a method of it. -/
theorem Mirrors.isMethod_entry {description : Description} (mirrors : Mirrors description program)
    {entry : MethodId} (chosen : program.entry = some entry) :
    (program.method? entry).isSome = true := by
  have found := mirrors.entry
  rw [chosen] at found
  cases name : description.entry with
  | none => rw [name] at found; cases found
  | some text =>
    rw [name, Option.mapM_some] at found
    obtain ⟨method, named, same⟩ := Option.map_eq_some_iff.mp found
    exact Program.isMethod_of_methodNamed (Option.some.inj same ▸ named)

/-- **Every program that is loaded is in range**, and its entry method is a method of it. -/
theorem inRange_of_ofText {text : String} (loaded : Program.ofText text = .ok program) :
    program.InRange ∧ ∀ entry, program.entry = some entry →
      (program.method? entry).isSome = true := by
  obtain ⟨description, _, edits, mirrors⟩ := mirrors_of_ofText loaded
  exact ⟨mirrors.inRange edits.consistent, fun _ => mirrors.isMethod_entry⟩

end Description

end CallFlow
