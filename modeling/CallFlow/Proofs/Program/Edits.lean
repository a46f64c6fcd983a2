/-
**What a program keeps while it grows.**

A program is built by adding classes, member signatures, fields and methods and by changing what
classes and methods say about themselves. Whatever the order, names stay distinct, each class lists
what it owns, and an identifier that was handed out keeps its meaning.

* `Program.Edit`: one change.
* `Program.Edit.grows`: no change takes the meaning from an identifier.
* `Program.Consistent`: distinct names, complete lists and the signatures of the methods.
* `Program.Edits.consistent`: a program that was built by changes is consistent.
-/

import Mathlib.Data.List.Nodup
import Mathlib.Data.List.Sort
import Mathlib.Logic.Relation
import CallFlow.Program.Checked
import CallFlow.Proofs.Program.InRange

namespace CallFlow

/-! ### Tables -/

/-- A change of an entry that keeps what is looked at changes nothing. -/
theorem map_toList_modify {α β : Type} {table : Array α} {index : Nat} {change : α → α}
    {view : α → β} (keeps : ∀ entry, view (change entry) = view entry) :
    (table.modify index change).toList.map view = table.toList.map view := by
  refine List.ext_getElem? fun position => ?_
  rw [List.getElem?_map, List.getElem?_map, Array.getElem?_toList, Array.getElem?_toList,
    Array.getElem?_modify]
  split
  · rw [Option.map_map]
    exact congrArg (fun look => Option.map look _) (funext keeps)
  · rfl

/-- In a table with identifiers, a change of one entry changes no other one. -/
theorem getElem?_modify_of_injective {α ι : Type} [DecidableEq ι] {table : Array α}
    {position : ι → Nat} (injective : Function.Injective position) {id other : ι} {change : α → α} :
    (table.modify (position id) change)[position other]? =
      (table[position other]?).map fun entry => if other = id then change entry else entry := by
  rw [Array.getElem?_modify]
  by_cases same : other = id
  · simp [same]
  · have apart : position id ≠ position other := fun equal => same (injective equal.symm)
    simp [same, apart]

/-- A longer list has the same entries at the places of the shorter one. -/
theorem getElem?_of_prefix {α : Type} {first second : List α} (starts : first <+: second)
    {index : Nat} {entry : α} (here : first[index]? = some entry) : second[index]? = some entry := by
  obtain ⟨rest, rfl⟩ := starts
  rw [List.getElem?_append_left (List.getElem?_eq_some_iff.mp here).1, here]

/-- In a table of distinct names a name is found at its place. -/
theorem findIdx?_eq_some_iff_of_nodup {α β : Type} [DecidableEq β] {table : Array α} {view : α → β}
    (distinct : (table.toList.map view).Nodup) {name : β} {index : Nat} :
    table.findIdx? (fun entry => view entry = name) = some index ↔
      (table[index]?).map view = some name := by
  rw [Array.findIdx?_eq_some_iff_getElem]
  constructor
  · rintro ⟨inside, same, _⟩
    rw [Array.getElem?_eq_getElem inside]
    exact congrArg some (of_decide_eq_true same)
  · intro here
    obtain ⟨entry, stands, same⟩ := Option.map_eq_some_iff.mp here
    obtain ⟨inside, rfl⟩ := Array.getElem?_eq_some_iff.mp stands
    refine ⟨inside, decide_eq_true same, fun earlier before => ?_⟩
    rw [decide_eq_true_eq, ← same]
    intro again
    have inList : earlier < (table.toList.map view).length := by
      simpa using Nat.lt_trans before inside
    have place : earlier = index := by
      refine (List.getElem?_inj inList distinct).mp ?_
      rw [List.getElem?_map, List.getElem?_map, Array.getElem?_toList, Array.getElem?_toList,
        Array.getElem?_eq_getElem (Nat.lt_trans before inside), Array.getElem?_eq_getElem inside]
      exact congrArg some again
    exact Nat.ne_of_lt before place

namespace Program

variable (program : Program)

/-- The names of the classes, by identifier. -/
def classNames : List String := program.classes.toList.map Class.name

theorem classNames_getElem? (id : ClassId) :
    program.classNames[id.index]? = (program.class? id).map Class.name := by
  rw [classNames, List.getElem?_map, Array.getElem?_toList]
  rfl

variable {program}

/-- A class is found at the first place of its name. -/
theorem classNamed?_eq_findIdx? (name : String) : program.classNamed? name =
    (program.classNames.findIdx? fun known => known = name).map ClassId.mk := by
  have asList : program.classes = program.classes.toList.toArray := Array.toArray_toList.symm
  rw [classNames, List.findIdx?_map, classNamed?]
  conv => lhs; rw [asList, List.findIdx?_toArray]
  rfl

/-- Which class a name stands for depends on the names of the classes only. -/
theorem classNamed?_congr {edited : Program} (same : edited.classNames = program.classNames)
    (name : String) : edited.classNamed? name = program.classNamed? name := by
  rw [classNamed?_eq_findIdx?, classNamed?_eq_findIdx?, same]

theorem classNamed?_eq_none_iff {name : String} :
    program.classNamed? name = none ↔ name ∉ program.classNames := by
  rw [classNamed?_eq_findIdx?, Option.map_eq_none_iff, List.findIdx?_eq_none_iff]
  simp only [decide_eq_false_iff_not]
  exact ⟨fun other among => other name among rfl, fun absent known among same => absent (same ▸ among)⟩

/-- Among distinct names a class is found by its own name only. -/
theorem classNamed?_eq_some_iff (distinct : program.classNames.Nodup) {name : String} {id : ClassId} :
    program.classNamed? name = some id ↔ (program.class? id).map Class.name = some name := by
  unfold classNamed? class?
  rw [← findIdx?_eq_some_iff_of_nodup distinct, Option.map_eq_some_iff]
  exact ⟨fun ⟨_, found, same⟩ => same ▸ found, fun found => ⟨id.index, found, rfl⟩⟩

/-- Among distinct signatures a member is found by its own signature only. -/
theorem memberNamed?_eq_some_iff (distinct : program.members.toList.Nodup) {text : String}
    {id : MemberId} : program.memberNamed? text = some id ↔ program.member? id = some text := by
  have distinctTexts : (program.members.toList.map fun known => known).Nodup := by
    simpa using distinct
  have place : program.members.findIdx? (fun known => known = text) = some id.index ↔
      (program.members[id.index]?).map (fun known => known) = some text :=
    findIdx?_eq_some_iff_of_nodup distinctTexts
  rw [Option.map_id_fun'] at place
  unfold memberNamed? member?
  rw [← id_eq (program.members[id.index]?), ← place, Option.map_eq_some_iff]
  exact ⟨fun ⟨_, found, same⟩ => same ▸ found, fun found => ⟨id.index, found, rfl⟩⟩

/-- An added member signature is known. -/
theorem member?_addMember (text : String) :
    (program.addMember text).1.member? (program.addMember text).2 = some text := by
  unfold addMember
  cases known : program.memberNamed? text with
  | none => simp [member?]
  | some id =>
    obtain ⟨index, found, rfl⟩ := Option.map_eq_some_iff.mp known
    obtain ⟨inside, same, _⟩ := Array.findIdx?_eq_some_iff_getElem.mp found
    simpa [member?, Array.getElem?_eq_getElem inside] using same

/-- A changed class changes no other one. -/
theorem class?_updateClass (id other : ClassId) (change : Class → Class) :
    (program.updateClass id change).class? other =
      (program.class? other).map fun info => if other = id then change info else info :=
  getElem?_modify_of_injective fun _ _ same => congrArg ClassId.mk same

/-- A changed method changes no other one. -/
theorem method?_updateMethod (id other : MethodId) (change : Method → Method) :
    (program.updateMethod id change).method? other =
      (program.method? other).map fun method => if other = id then change method else method :=
  getElem?_modify_of_injective fun _ _ same => congrArg MethodId.mk same

end Program

/-- What stands above the body of a method and never changes. -/
def Method.head (method : Method) : ClassId × String × MemberId × List Ty :=
  (method.owner, method.name, method.member, method.params)

/-! ### Lists of what a class owns -/

/-- A class lists, ascending, the positions of the records that name it as their owner. -/
structure Lists (owners : List ClassId) (owner : ClassId) (listed : List Nat) : Prop where
  ascending : listed.Pairwise (· < ·)
  complete : ∀ index, index ∈ listed ↔ owners[index]? = some owner

namespace Lists

variable {owners : List ClassId} {owner : ClassId} {listed : List Nat}

theorem lt_length (lists : Lists owners owner listed) {index : Nat} (among : index ∈ listed) :
    index < owners.length :=
  (List.getElem?_eq_some_iff.mp ((lists.complete index).mp among)).1

/-- A new record is listed by its owner and by no other class. -/
theorem push (lists : Lists owners owner listed) (other : ClassId) :
    Lists (owners ++ [other]) owner
      (if owner = other then listed ++ [owners.length] else listed) where
  ascending := by
    split
    · refine List.pairwise_append.mpr ⟨lists.ascending, List.pairwise_singleton _ _, ?_⟩
      intro index among last isLast
      rw [List.mem_singleton.mp isLast]
      exact lists.lt_length among
    · exact lists.ascending
  complete index := by
    have listedIff : index ∈ (if owner = other then listed ++ [owners.length] else listed) ↔
        index ∈ listed ∨ index = owners.length ∧ other = owner := by
      split
      · next same => simp [same]
      · next different => simp [Ne.symm different]
    rw [listedIff, lists.complete, List.getElem?_append]
    split
    · next inside => exact or_iff_left fun last => Nat.ne_of_lt inside last.1
    · next outside =>
      have beyond : index - owners.length = 0 ↔ index = owners.length := by omega
      rw [List.getElem?_eq_none (Nat.not_lt.mp outside), List.getElem?_singleton]
      simp [beyond]

/-- A record that comes last in its table is listed last by its owner. -/
theorem push_record {α : Type} {table : Array α} {ownerOf : α → ClassId}
    (lists : Lists (table.toList.map ownerOf) owner listed) (record : α) :
    Lists ((table.push record).toList.map ownerOf) owner
      (if owner = ownerOf record then listed ++ [table.size] else listed) := by
  have pushed := lists.push (ownerOf record)
  rw [List.length_map, Array.length_toList] at pushed
  rw [Array.toList_push, List.map_append]
  exact pushed

/-- The first listed record with a property is the first record of the owner with it. -/
theorem find?_eq_some_iff (lists : Lists owners owner listed) {test : Nat → Bool} {index : Nat} :
    listed.find? test = some index ↔ owners[index]? = some owner ∧ test index = true ∧
      ∀ earlier < index, owners[earlier]? = some owner → test earlier = false := by
  have found {index : Nat} (found : listed.find? test = some index) :
      owners[index]? = some owner ∧ test index = true ∧
        ∀ earlier < index, owners[earlier]? = some owner → test earlier = false := by
    obtain ⟨passes, before, after, same, failed⟩ := List.find?_eq_some_iff_append.mp found
    refine ⟨(lists.complete index).mp (List.mem_of_find?_eq_some found), passes,
      fun earlier less owned => ?_⟩
    have among := (lists.complete earlier).mpr owned
    have ascending := lists.ascending
    rw [same] at among ascending
    rcases List.mem_append.mp among with among | among
    · simpa using failed earlier among
    · -- What is listed from the found record on is not earlier.
      rcases List.mem_cons.mp among with rfl | among
      · exact absurd less (Nat.lt_irrefl _)
      · have later := List.rel_of_pairwise_cons (List.pairwise_append.mp ascending).2.1 among
        exact absurd less (Nat.not_lt.mpr (Nat.le_of_lt later))
  refine ⟨found, fun ⟨owned, passes, first⟩ => ?_⟩
  have someFound : (listed.find? test).isSome = true :=
    List.find?_isSome.mpr ⟨index, (lists.complete index).mpr owned, passes⟩
  obtain ⟨other, isFound⟩ := Option.isSome_iff_exists.mp someFound
  obtain ⟨otherOwned, otherPasses, otherFirst⟩ := found isFound
  rcases Nat.lt_trichotomy index other with less | rfl | less
  · rw [otherFirst index less owned] at passes
    cases passes
  · exact isFound
  · rw [first other less otherOwned] at otherPasses
    cases otherPasses

/-- A class lists its records in one way. -/
theorem unique (lists : Lists owners owner listed) {others : List Nat}
    (otherLists : Lists owners owner others) : others = listed :=
  otherLists.ascending.eq_of_mem_iff lists.ascending fun index =>
    (otherLists.complete index).trans (lists.complete index).symm

/-- A class that owns nothing lists nothing. -/
theorem nil_of_forall_ne (none : ∀ other ∈ owners, other ≠ owner) : Lists owners owner [] where
  ascending := List.Pairwise.nil
  complete index := by
    refine iff_of_false List.not_mem_nil fun here => ?_
    exact none owner (List.mem_of_getElem? here) rfl

end Lists

namespace Program

/-- Adds a field, listed by its owner. -/
def fileField (program : Program) (field : Field) : Program :=
  let extended := { program with fields := program.fields.push field }
  extended.updateClass field.owner fun info =>
    { info with fields := info.fields ++ [⟨program.fields.size⟩] }

/-- Adds a method, listed by its owner. -/
def fileMethod (program : Program) (method : Method) : Program :=
  let extended := { program with methods := program.methods.push method }
  extended.updateClass method.owner fun info =>
    { info with methods := info.methods ++ [⟨program.methods.size⟩] }

/-- A method is added after its signature. -/
theorem addMethod_eq (program : Program) (owner : ClassId) (name : String) (params : List Ty)
    (result : Option Ty) : (program.addMethod owner name params result).1 =
      (program.addMember (program.signature name params)).1.fileMethod
        { owner, name, params, result, member := (program.addMember (program.signature name params)).2 } :=
  rfl

/-! ### Changes -/

/-- One change of a program: something is added, or what a class or a method says about itself is
changed apart from its name and what it owns. -/
inductive Edit (program : Program) : Program → Prop where
  | newClass (name : String) : Edit program (program.addClass name).1
  | newMember (text : String) : Edit program (program.addMember text).1
  | newField {owner : ClassId} (isClass : (program.class? owner).isSome = true) (name : String)
      (type : Ty) : Edit program (program.addField owner name type).1
  | newMethod {owner : ClassId} (isClass : (program.class? owner).isSome = true) (name : String)
      {params : List Ty} (inRange : ∀ type ∈ params, program.hasType type = true)
      (result : Option Ty) : Edit program (program.addMethod owner name params result).1
  | changeClass (id : ClassId) {change : Class → Class}
      (keeps : ∀ info, (change info).name = info.name ∧ (change info).methods = info.methods ∧
        (change info).fields = info.fields) : Edit program (program.updateClass id change)
  | changeMethod (id : MethodId) {change : Method → Method}
      (keeps : ∀ method, (change method).head = method.head) :
      Edit program (program.updateMethod id change)
  | chooseEntry (entry : Option MethodId) : Edit program { program with entry }

/-- Any number of changes. -/
abbrev Edits : Program → Program → Prop := Relation.ReflTransGen Edit

/-! ### Identifiers keep their meaning -/

/-- Every identifier of the first program means in the second one what it means in the first. -/
structure Grows (program edited : Program) : Prop where
  classNames : program.classNames <+: edited.classNames
  members : program.members.toList <+: edited.members.toList
  heads : program.methods.toList.map Method.head <+: edited.methods.toList.map Method.head
  fields : program.fields.toList <+: edited.fields.toList

namespace Grows

variable {program edited last : Program}

theorem refl (program : Program) : Grows program program :=
  ⟨List.prefix_rfl, List.prefix_rfl, List.prefix_rfl, List.prefix_rfl⟩

theorem trans (first : Grows program edited) (second : Grows edited last) : Grows program last :=
  ⟨first.classNames.trans second.classNames, first.members.trans second.members,
    first.heads.trans second.heads, first.fields.trans second.fields⟩

theorem className? (grows : Grows program edited) {id : ClassId} {name : String}
    (named : (program.class? id).map Class.name = some name) :
    (edited.class? id).map Class.name = some name := by
  rw [← classNames_getElem?] at named ⊢
  exact getElem?_of_prefix grows.classNames named

theorem isClass (grows : Grows program edited) {id : ClassId}
    (isClass : (program.class? id).isSome = true) : (edited.class? id).isSome = true := by
  obtain ⟨info, found⟩ := Option.isSome_iff_exists.mp isClass
  have named : (program.class? id).map Class.name = some info.name := by
    rw [found]
    rfl
  obtain ⟨_, still, _⟩ := Option.map_eq_some_iff.mp (grows.className? named)
  rw [still]
  rfl

theorem member? (grows : Grows program edited) {id : MemberId} {text : String}
    (known : program.member? id = some text) : edited.member? id = some text := by
  unfold Program.member? at known ⊢
  rw [← Array.getElem?_toList] at known ⊢
  exact getElem?_of_prefix grows.members known

theorem className (grows : Grows program edited) {id : ClassId}
    (isClass : (program.class? id).isSome = true) : edited.className id = program.className id := by
  obtain ⟨info, found⟩ := Option.isSome_iff_exists.mp isClass
  have named : (program.class? id).map Class.name = some info.name := by
    rw [found]
    rfl
  obtain ⟨still, foundStill, same⟩ := Option.map_eq_some_iff.mp (grows.className? named)
  unfold Program.className
  rw [found, foundStill]
  exact same

theorem hasType (grows : Grows program edited) {type : Ty} (known : program.hasType type = true) :
    edited.hasType type = true := by
  unfold Program.hasType at known ⊢
  rw [Option.all_eq_true] at known ⊢
  exact fun declared base => grows.isClass (known declared base)

theorem typeName (grows : Grows program edited) {type : Ty} (known : program.hasType type = true) :
    edited.typeName type = program.typeName type := by
  induction type with
  | primitive | unknown => rfl
  | object declared =>
    refine grows.className ?_
    simpa [Program.hasType, Ty.baseClass, Ty.asClass] using known
  | array element hyp =>
    have element := hyp known
    rw [Program.typeName, Program.typeName, element]

theorem signature (grows : Grows program edited) {params : List Ty}
    (known : ∀ type ∈ params, program.hasType type = true) (name : String) :
    edited.signature name params = program.signature name params := by
  have same : params.map edited.typeName = params.map program.typeName :=
    List.map_congr_left fun type among => grows.typeName (known type among)
  unfold Program.signature
  rw [same]

end Grows

theorem classNames_updateClass {program : Program} (id : ClassId) {change : Class → Class}
    (keeps : ∀ info, (change info).name = info.name) :
    (program.updateClass id change).classNames = program.classNames :=
  map_toList_modify keeps

theorem classNames_fileField (program : Program) (field : Field) :
    (program.fileField field).classNames = program.classNames :=
  map_toList_modify fun _ => rfl

theorem classNames_fileMethod (program : Program) (method : Method) :
    (program.fileMethod method).classNames = program.classNames :=
  map_toList_modify fun _ => rfl

theorem class?_fileField (program : Program) (field : Field) (other : ClassId) :
    (program.fileField field).class? other = (program.class? other).map fun info =>
      if other = field.owner then { info with fields := info.fields ++ [⟨program.fields.size⟩] }
      else info :=
  class?_updateClass field.owner other _

theorem class?_fileMethod (program : Program) (method : Method) (other : ClassId) :
    (program.fileMethod method).class? other = (program.class? other).map fun info =>
      if other = method.owner then { info with methods := info.methods ++ [⟨program.methods.size⟩] }
      else info :=
  class?_updateClass method.owner other _

section Growth

variable (program : Program)

theorem grows_addClass (name : String) : Grows program (program.addClass name).1 := by
  unfold addClass
  split
  · exact .refl program
  · exact ⟨by simp [classNames], List.prefix_rfl, List.prefix_rfl, List.prefix_rfl⟩

theorem grows_addMember (text : String) : Grows program (program.addMember text).1 := by
  unfold addMember
  split
  · exact .refl program
  · exact ⟨List.prefix_rfl, by simp, List.prefix_rfl, List.prefix_rfl⟩

theorem grows_updateClass (id : ClassId) {change : Class → Class}
    (keeps : ∀ info, (change info).name = info.name) : Grows program (program.updateClass id change) := by
  have classNames : (program.updateClass id change).classNames = program.classNames :=
    classNames_updateClass id keeps
  exact ⟨⟨[], (List.append_nil _).trans classNames.symm⟩, List.prefix_rfl, List.prefix_rfl,
    List.prefix_rfl⟩

theorem grows_fileField (field : Field) : Grows program (program.fileField field) := by
  refine Grows.trans ?_ (grows_updateClass _ field.owner fun _ => rfl)
  exact ⟨List.prefix_rfl, List.prefix_rfl, List.prefix_rfl, by simp⟩

theorem grows_fileMethod (method : Method) : Grows program (program.fileMethod method) := by
  refine Grows.trans ?_ (grows_updateClass _ method.owner fun _ => rfl)
  exact ⟨List.prefix_rfl, List.prefix_rfl, by simp, List.prefix_rfl⟩

theorem grows_updateMethod (id : MethodId) {change : Method → Method}
    (keeps : ∀ method, (change method).head = method.head) :
    Grows program (program.updateMethod id change) := by
  have heads : (program.updateMethod id change).methods.toList.map Method.head =
      program.methods.toList.map Method.head := map_toList_modify keeps
  exact ⟨List.prefix_rfl, List.prefix_rfl, ⟨[], (List.append_nil _).trans heads.symm⟩,
    List.prefix_rfl⟩

end Growth

/-- **No change takes the meaning from an identifier.** -/
theorem Edit.grows {program edited : Program} (edit : Edit program edited) :
    Grows program edited := by
  cases edit with
  | newClass name => exact grows_addClass program name
  | newMember text => exact grows_addMember program text
  | newField isClass name type => exact grows_fileField program _
  | newMethod isClass name inRange result =>
    rw [addMethod_eq]
    exact (grows_addMember program _).trans (grows_fileMethod _ _)
  | changeClass id keeps => exact grows_updateClass program id fun info => (keeps info).1
  | changeMethod id keeps => exact grows_updateMethod program id keeps
  | chooseEntry entry =>
    exact ⟨List.prefix_rfl, List.prefix_rfl, List.prefix_rfl, List.prefix_rfl⟩

theorem Edits.grows {program edited : Program} (edits : Edits program edited) :
    Grows program edited := by
  induction edits with
  | refl => exact .refl program
  | tail earlier last hyp => exact hyp.trans last.grows

/-! ### Consistent programs -/

/-- What a program knows about its own method: the owner and the classes of the parameters are
classes of the program, and the member is the signature. -/
structure Headed (program : Program) (method : Method) : Prop where
  owner : (program.class? method.owner).isSome = true
  params : ∀ type ∈ method.params, program.hasType type = true
  member : program.member? method.member = some (program.signature method.name method.params)

theorem Headed.grow {program edited : Program} (grows : Grows program edited)
    {method changed : Method} (same : changed.head = method.head) (headed : program.Headed method) :
    edited.Headed changed := by
  obtain ⟨owner, name, member, params, _⟩ := method
  obtain ⟨_, _, _, _, _⟩ := changed
  cases same
  refine ⟨grows.isClass headed.owner, fun type among => grows.hasType (headed.params type among), ?_⟩
  rw [grows.signature headed.params]
  exact grows.member? headed.member

/-- Names are distinct, classes list what they own, and members are signatures. -/
structure Consistent (program : Program) : Prop where
  distinctClasses : program.classNames.Nodup
  distinctMembers : program.members.toList.Nodup
  methods : ∀ id info, program.class? id = some info →
    Lists (program.methods.toList.map Method.owner) id (info.methods.map MethodId.index)
  fields : ∀ id info, program.class? id = some info →
    Lists (program.fields.toList.map Field.owner) id (info.fields.map FieldId.index)
  heads : ∀ method ∈ program.methods, program.Headed method
  fieldOwners : ∀ field ∈ program.fields, (program.class? field.owner).isSome = true

namespace Consistent

variable {program : Program}

theorem empty : Consistent {} :=
  ⟨List.nodup_nil, List.nodup_nil, nofun, nofun, nofun, nofun⟩

theorem not_mem_of_memberNamed {text : String} (unknown : program.memberNamed? text = none) :
    text ∉ program.members.toList := by
  intro among
  unfold memberNamed? at unknown
  rw [Option.map_eq_none_iff, Array.findIdx?_eq_none_iff] at unknown
  simpa using unknown text (Array.mem_toList_iff.mp among)

/-- A known name keeps the program as it is; a new class comes last and owns nothing. -/
theorem addClass (consistent : program.Consistent) (name : String) :
    (program.addClass name).1.Consistent := by
  have grows := grows_addClass program name
  unfold Program.addClass at grows ⊢
  cases unknown : program.classNamed? name with
  | some id => exact consistent
  | none =>
    rw [unknown] at grows
    -- The identifier of the new class is the owner of no method and of no field.
    have unowned {owners : List ClassId} {id : ClassId} (last : id.index = program.classes.size)
        (inside : ∀ owner ∈ owners, (program.class? owner).isSome = true) : Lists owners id [] := by
      refine .nil_of_forall_ne fun owner among same => ?_
      have isOld := inside owner among
      rw [same, class?, last] at isOld
      simp at isOld
    refine ⟨?_, consistent.distinctMembers, fun id info isClass => ?_, fun id info isClass => ?_,
      fun method among => (consistent.heads method among).grow grows rfl,
      fun field among => grows.isClass (consistent.fieldOwners field among)⟩
    · have distinct := consistent.distinctClasses.concat (classNamed?_eq_none_iff.mp unknown)
      rw [List.concat_eq_append] at distinct
      rw [classNames, Array.toList_push, List.map_append]
      exact distinct
    · rw [class?, Array.getElem?_push] at isClass
      split at isClass
      · next last =>
        cases isClass
        refine unowned last fun owner among => ?_
        obtain ⟨method, isMethod, rfl⟩ := List.mem_map.mp among
        exact (consistent.heads method (Array.mem_toList_iff.mp isMethod)).owner
      · exact consistent.methods id info isClass
    · rw [class?, Array.getElem?_push] at isClass
      split at isClass
      · next last =>
        cases isClass
        refine unowned last fun owner among => ?_
        obtain ⟨field, isField, rfl⟩ := List.mem_map.mp among
        exact consistent.fieldOwners field (Array.mem_toList_iff.mp isField)
      · exact consistent.fields id info isClass

theorem addMember (consistent : program.Consistent) (text : String) :
    (program.addMember text).1.Consistent := by
  have grows := grows_addMember program text
  unfold Program.addMember at grows ⊢
  cases unknown : program.memberNamed? text with
  | some id => exact consistent
  | none =>
    rw [unknown] at grows
    refine ⟨consistent.distinctClasses, ?_, consistent.methods, consistent.fields,
      fun method among => (consistent.heads method among).grow grows rfl, consistent.fieldOwners⟩
    have distinct := consistent.distinctMembers.concat (not_mem_of_memberNamed unknown)
    rw [List.concat_eq_append] at distinct
    rw [Array.toList_push]
    exact distinct

/-- What a class says about itself, apart from its name and what it owns, may be changed. -/
theorem updateClass (consistent : program.Consistent) (id : ClassId) {change : Class → Class}
    (keeps : ∀ info, (change info).name = info.name ∧ (change info).methods = info.methods ∧
      (change info).fields = info.fields) : (program.updateClass id change).Consistent := by
  have grows := grows_updateClass program id fun info => (keeps info).1
  have unchanged {other : ClassId} {info : Class}
      (isClass : (program.updateClass id change).class? other = some info) :
      ∃ before, program.class? other = some before ∧ info.methods = before.methods ∧
        info.fields = before.fields := by
    rw [class?_updateClass] at isClass
    obtain ⟨before, found, same⟩ := Option.map_eq_some_iff.mp isClass
    refine ⟨before, found, ?_⟩
    split at same <;> cases same
    · exact (keeps before).2
    · exact ⟨rfl, rfl⟩
  refine ⟨?_, consistent.distinctMembers, fun other info isClass => ?_,
    fun other info isClass => ?_, fun method among => (consistent.heads method among).grow grows rfl,
    fun field among => grows.isClass (consistent.fieldOwners field among)⟩
  · rw [classNames_updateClass id fun info => (keeps info).1]
    exact consistent.distinctClasses
  · obtain ⟨before, found, methods, _⟩ := unchanged isClass
    rw [methods]
    exact consistent.methods other before found
  · obtain ⟨before, found, _, fields⟩ := unchanged isClass
    rw [fields]
    exact consistent.fields other before found

/-- What a method says about itself, apart from what stands above its body, may be changed. -/
theorem updateMethod (consistent : program.Consistent) (id : MethodId) {change : Method → Method}
    (keeps : ∀ method, (change method).head = method.head) :
    (program.updateMethod id change).Consistent := by
  have grows := grows_updateMethod program id keeps
  refine ⟨consistent.distinctClasses, consistent.distinctMembers, fun other info isClass => ?_,
    consistent.fields, fun method among => ?_, consistent.fieldOwners⟩
  · have owners : (program.methods.modify id.index change).toList.map Method.owner =
        program.methods.toList.map Method.owner :=
      map_toList_modify fun method => congrArg Prod.fst (keeps method)
    show Lists ((program.methods.modify id.index change).toList.map Method.owner) _ _
    rw [owners]
    exact consistent.methods other info isClass
  · have same : method.head ∈ (program.methods.modify id.index change).toList.map Method.head :=
      List.mem_map_of_mem (Array.mem_toList_iff.mpr among)
    rw [map_toList_modify keeps] at same
    obtain ⟨before, isMethod, head⟩ := List.mem_map.mp same
    exact (consistent.heads before (Array.mem_toList_iff.mp isMethod)).grow grows head.symm

theorem fileField (consistent : program.Consistent) (field : Field)
    (isClass : (program.class? field.owner).isSome = true) : (program.fileField field).Consistent := by
  have grows := grows_fileField program field
  refine ⟨?_, consistent.distinctMembers, fun other info found => ?_, fun other info found => ?_,
    fun method among => (consistent.heads method among).grow grows rfl, fun other among => ?_⟩
  · rw [classNames_fileField]
    exact consistent.distinctClasses
  · rw [class?_fileField] at found
    obtain ⟨before, isBefore, rfl⟩ := Option.map_eq_some_iff.mp found
    have lists := consistent.methods other before isBefore
    split <;> exact lists
  · rw [class?_fileField] at found
    obtain ⟨before, isBefore, rfl⟩ := Option.map_eq_some_iff.mp found
    have lists := (consistent.fields other before isBefore).push_record field
    split
    · next own =>
      rw [if_pos own] at lists
      rw [List.map_append]
      exact lists
    · next foreign =>
      rw [if_neg foreign] at lists
      exact lists
  · rcases Array.mem_push.mp among with old | rfl
    · exact grows.isClass (consistent.fieldOwners other old)
    · exact grows.isClass isClass

theorem fileMethod (consistent : program.Consistent) {method : Method}
    (headed : program.Headed method) : (program.fileMethod method).Consistent := by
  have grows := grows_fileMethod program method
  refine ⟨?_, consistent.distinctMembers, fun other info found => ?_, fun other info found => ?_,
    fun other among => ?_, fun field among => grows.isClass (consistent.fieldOwners field among)⟩
  · rw [classNames_fileMethod]
    exact consistent.distinctClasses
  · rw [class?_fileMethod] at found
    obtain ⟨before, isBefore, rfl⟩ := Option.map_eq_some_iff.mp found
    have lists := (consistent.methods other before isBefore).push_record method
    split
    · next own =>
      rw [if_pos own] at lists
      rw [List.map_append]
      exact lists
    · next foreign =>
      rw [if_neg foreign] at lists
      exact lists
  · rw [class?_fileMethod] at found
    obtain ⟨before, isBefore, rfl⟩ := Option.map_eq_some_iff.mp found
    have lists := consistent.fields other before isBefore
    split <;> exact lists
  · rcases Array.mem_push.mp among with old | rfl
    · exact (consistent.heads other old).grow grows rfl
    · exact headed.grow grows rfl

end Consistent

/-- Every change keeps a program consistent. -/
theorem Edit.consistent {program edited : Program} (edit : Edit program edited)
    (consistent : program.Consistent) : edited.Consistent := by
  have grows := edit.grows
  cases edit with
  | newClass name => exact consistent.addClass name
  | newMember text => exact consistent.addMember text
  | newField isClass name type => exact consistent.fileField ⟨_, name, type⟩ isClass
  | @newMethod owner isClass name params inRange result =>
    rw [addMethod_eq]
    have grows := grows_addMember program (program.signature name params)
    refine (consistent.addMember _).fileMethod ⟨grows.isClass isClass,
      fun type among => grows.hasType (inRange type among), ?_⟩
    rw [grows.signature inRange]
    exact member?_addMember _
  | changeClass id keeps => exact consistent.updateClass id keeps
  | changeMethod id keeps => exact consistent.updateMethod id keeps
  | chooseEntry entry =>
    exact ⟨consistent.distinctClasses, consistent.distinctMembers, consistent.methods,
      consistent.fields, fun method among => (consistent.heads method among).grow grows rfl,
      consistent.fieldOwners⟩

/-- **A program that was built by changes is consistent.** -/
theorem Edits.consistent {program : Program} (edits : Edits {} program) : program.Consistent := by
  induction edits with
  | refl => exact .empty
  | tail earlier last hyp => exact last.consistent hyp

end Program

end CallFlow
