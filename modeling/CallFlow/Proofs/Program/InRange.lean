/-
**Programs whose identifiers are in range.**

An identifier is a position in a table, and nothing in a program keeps it from pointing past the end
of its table. A program is in range if none of the identifiers that occur in it does.

* `Program.InRange`: every identifier in a class, a method or a field is inside its table.
* `Program.InRange.call`, `Program.InRange.operands`: what that says about the statements of a body.
-/

import CallFlow.Construction.Rules
import CallFlow.Program.Checked

namespace CallFlow

namespace Program

variable (program : Program)

/-! ### Identifiers inside their tables -/

/-- The identifiers of a table are those that it has an entry for. -/
theorem mem_map_range {α β : Type} {table : Array α} {make : Nat → β} {index : β → Nat}
    (make_index : ∀ id, make (index id) = id) (index_make : ∀ position, index (make position) = position)
    {id : β} : id ∈ (List.range table.size).map make ↔ (table[index id]?).isSome = true := by
  rw [isSome_getElem?, List.mem_map]
  constructor
  · rintro ⟨position, member, rfl⟩
    rw [index_make]
    exact List.mem_range.mp member
  · exact fun less => ⟨index id, List.mem_range.mpr less, make_index id⟩

theorem mem_classIds {id : ClassId} : id ∈ program.classIds ↔ (program.class? id).isSome = true :=
  mem_map_range (fun _ => rfl) fun _ => rfl

/-- A class that can be instantiated is a class of the program. -/
theorem isClass_of_isConcrete {id : ClassId} (concrete : program.isConcrete id = true) :
    (program.class? id).isSome = true := by
  obtain ⟨info, found, _⟩ := (Option.any_eq_true _ _).mp concrete
  rw [found]
  rfl

theorem length_classIds : program.classIds.length = program.classes.size := by
  rw [classIds, List.length_map, List.length_range]

/-- The classes of a program ascend. -/
theorem classIds_ascend : program.classIds.Pairwise fun first second => first.index < second.index := by
  unfold classIds
  rw [List.pairwise_map]
  exact List.pairwise_lt_range

theorem mem_methodIds {id : MethodId} :
    id ∈ program.methodIds ↔ (program.method? id).isSome = true :=
  mem_map_range (fun _ => rfl) fun _ => rfl

theorem mem_fieldIds {id : FieldId} : id ∈ program.fieldIds ↔ (program.field? id).isSome = true :=
  mem_map_range (fun _ => rfl) fun _ => rfl

/-- A superclass edge is an edge. -/
theorem mem_directSupertypes_of_superclass {lower upper : ClassId} {info : Class}
    (found : program.class? lower = some info) (superclass : info.superclass = some upper) :
    upper ∈ program.directSupertypes lower := by
  unfold directSupertypes
  rw [found]
  show upper ∈ info.superclass.toList ++ info.interfaces
  rw [superclass]
  exact List.mem_append_left _ (List.mem_singleton_self upper)

variable {program} in
/-- If the edges are in range, an edge from a class of the program leads to a class of the program. -/
theorem EdgesInRange.isClass (inRange : program.EdgesInRange) {lower upper : ClassId}
    (isClass : (program.class? lower).isSome = true) (edge : upper ∈ program.directSupertypes lower) :
    (program.class? upper).isSome = true := by
  unfold class?
  rw [isSome_getElem?]
  exact inRange lower (program.mem_classIds.mpr isClass) upper edge

variable {program} in
theorem edgesInRange_of_supertypes (supertypes : ∀ id info, program.class? id = some info →
    ∀ next ∈ info.directSupertypes, (program.class? next).isSome = true) : program.EdgesInRange := by
  intro id _ next edge
  unfold directSupertypes at edge
  cases found : program.class? id with
  | none =>
    rw [found] at edge
    exact absurd edge List.not_mem_nil
  | some info =>
    rw [found] at edge
    have isClass := supertypes id info found next edge
    unfold class? at isClass
    rw [isSome_getElem?] at isClass
    exact isClass

/-- A call stands in a method of the program. -/
theorem isMethod_of_call {site : Site} {call : Call} (isCall : program.call? site = some call) :
    (program.method? site.method).isSome = true := by
  obtain ⟨info, found, _⟩ := Option.bind_eq_some_iff.mp isCall
  rw [found]
  rfl

/-! ### Programs in range -/

/-- Whether the identifiers of a statement are inside their tables. -/
def statementInRange : Statement → Bool
  | .new allocated => (program.class? allocated).isSome
  | .newArray element => program.hasType element
  | .store field | .load field => (program.field? field).isSome
  | .invoke call =>
    (program.class? call.target.owner).isSome && (program.member? call.target.member).isSome
  | .other => true

/-- Whether the identifiers of a class are inside their tables. -/
def classInRange (info : Class) : Bool :=
  info.directSupertypes.all (fun next => (program.class? next).isSome) &&
    info.methods.all (fun id => (program.method? id).isSome) &&
    info.fields.all (fun id => (program.field? id).isSome)

/-- Whether the identifiers of a method and its body are inside their tables. -/
def methodInRange (info : Method) : Bool :=
  (program.class? info.owner).isSome && (program.member? info.member).isSome &&
    info.params.all program.hasType && info.result.all program.hasType &&
    info.body.all program.statementInRange

/-- Whether the identifiers of a field are inside their tables. -/
def fieldInRange (info : Field) : Bool :=
  (program.class? info.owner).isSome && program.hasType info.type

/-- All identifiers of the program are inside their tables. -/
structure InRange : Prop where
  classes : ∀ info ∈ program.classes, program.classInRange info = true
  methods : ∀ info ∈ program.methods, program.methodInRange info = true
  fields : ∀ info ∈ program.fields, program.fieldInRange info = true

instance : Decidable program.InRange :=
  decidable_of_iff
    ((∀ info ∈ program.classes, program.classInRange info = true) ∧
      (∀ info ∈ program.methods, program.methodInRange info = true) ∧
      ∀ info ∈ program.fields, program.fieldInRange info = true)
    ⟨fun ⟨classes, methods, fields⟩ => ⟨classes, methods, fields⟩,
      fun inRange => ⟨inRange.classes, inRange.methods, inRange.fields⟩⟩

/-- A main method asks a shape for its area. Only squares are instantiated, and an instruction in
the method of the circles is unknown. -/
def shapes : Program where
  classes := #[
    { name := "Main", methods := [⟨0⟩] },
    { name := "Shape", isAbstract := true, methods := [⟨1⟩] },
    { name := "Square", superclass := some ⟨1⟩, methods := [⟨2⟩] },
    { name := "Circle", superclass := some ⟨1⟩, methods := [⟨3⟩] }]
  methods := #[
    { owner := ⟨0⟩, name := "main", member := ⟨0⟩, params := [], result := none, isStatic := true,
      body := [.new ⟨2⟩, .invoke ⟨.virtual, ⟨1⟩, ⟨1⟩⟩] },
    { owner := ⟨1⟩, name := "area", member := ⟨1⟩, params := [], result := none,
      isAbstract := true },
    { owner := ⟨2⟩, name := "area", member := ⟨1⟩, params := [], result := none },
    { owner := ⟨3⟩, name := "area", member := ⟨1⟩, params := [], result := none,
      body := [.invoke ⟨.other, ⟨1⟩, ⟨1⟩⟩] }]
  members := #["main()", "area()"]
  entry := some ⟨0⟩

example : shapes.InRange := by decide

namespace InRange

variable {program} (inRange : program.InRange)
include inRange

theorem supertype {id : ClassId} {info : Class} (found : program.class? id = some info)
    {next : ClassId} (edge : next ∈ info.directSupertypes) : (program.class? next).isSome = true := by
  have all := inRange.classes info (Array.mem_of_getElem? found)
  unfold classInRange at all
  simp only [Bool.and_eq_true, List.all_eq_true] at all
  exact all.1.1 next edge

/-- The methods that a class lists are methods of the program. -/
theorem listed {id : ClassId} {info : Class} (found : program.class? id = some info)
    {method : MethodId} (listed : method ∈ info.methods) : (program.method? method).isSome = true := by
  have all := inRange.classes info (Array.mem_of_getElem? found)
  unfold classInRange at all
  simp only [Bool.and_eq_true, List.all_eq_true] at all
  exact all.1.2 method listed

/-- Every edge of the hierarchy leads to a class of the program. -/
theorem edgesInRange : program.EdgesInRange :=
  edgesInRange_of_supertypes fun _ _ found _ => inRange.supertype found

/-- The owner and the member signature of a method are inside their tables. -/
theorem head {method : MethodId} {info : Method} (found : program.method? method = some info) :
    (program.class? info.owner).isSome = true ∧ (program.member? info.member).isSome = true := by
  have all := inRange.methods info (Array.mem_of_getElem? found)
  unfold methodInRange at all
  simp only [Bool.and_eq_true] at all
  exact all.1.1.1

theorem statement {method : MethodId} {info : Method} (found : program.method? method = some info)
    {statement : Statement} (stands : statement ∈ info.body) :
    program.statementInRange statement = true := by
  have all := inRange.methods info (Array.mem_of_getElem? found)
  unfold methodInRange at all
  simp only [Bool.and_eq_true, List.all_eq_true] at all
  exact all.2 statement stands

/-- The class and the member signature of the target of a call are inside their tables. -/
theorem call {site : Site} {call : Call} (isCall : program.call? site = some call) :
    (program.class? call.target.owner).isSome = true ∧
      (program.member? call.target.member).isSome = true := by
  obtain ⟨info, found, inBody⟩ := Option.bind_eq_some_iff.mp isCall
  obtain ⟨statement, stands, same⟩ := Option.bind_eq_some_iff.mp inBody
  have ranged := inRange.statement found (List.mem_of_getElem? stands)
  cases statement with
  | invoke other =>
    cases same
    unfold statementInRange at ranged
    exact (Bool.and_eq_true _ _).mp ranged
  | _ => cases same

/-- Whatever the construction looks at in a body is inside its table. -/
theorem operands {setting : Construction.Setting} (same : setting.program = program)
    {method : MethodId} {info : Method} (found : program.method? method = some info) :
    info.body.all (Construction.operandsInRange setting) = true := by
  rw [List.all_eq_true]
  intro statement stands
  have ranged := inRange.statement found stands
  unfold Construction.operandsInRange
  rw [same]
  cases statement with
  | newArray element =>
    unfold statementInRange hasType at ranged
    simp [ranged]
  | invoke call => rfl
  | _ => exact ranged

end InRange

end Program

end CallFlow
