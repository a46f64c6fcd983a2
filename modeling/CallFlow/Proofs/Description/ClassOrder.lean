/-
**The order of the classes does not matter.**

A description whose classes stand in another order mentions the same names, and every name stands for the
same record at another position. The positions of the classes are permuted, and so are those of the
fields and methods, but the records of one class stay in order. So the same descriptions are accepted,
and the programs differ in their numbers only.

* `Description.MovesRecords`: records of renumbered classes, in order class by class.
* `Description.Rearranged`: a description with the classes of another one, renumbered.
* `Description.Rearranged.wellReferenced`: names stand for renumbered records.
* `Description.Rearranged.isomorphic`: what has been loaded is renumbered.
* `Description.resolve_perm`: the order of the classes does not matter.
-/

import CallFlow.Proofs.Description.Acceptance
import CallFlow.Proofs.Program.Renumbering

namespace CallFlow

/-- The position of a class. -/
def ClassId.positions : ClassId ≃ Nat := ⟨ClassId.index, ClassId.mk, fun _ => rfl, fun _ => rfl⟩

/-- The position of a method. -/
def MethodId.positions : MethodId ≃ Nat := ⟨MethodId.index, MethodId.mk, fun _ => rfl, fun _ => rfl⟩

/-- The position of a field. -/
def FieldId.positions : FieldId ≃ Nat := ⟨FieldId.index, FieldId.mk, fun _ => rfl, fun _ => rfl⟩

namespace Description

/-! ### Records of moved classes -/

/-- The records of a list stand in another one, with their classes renumbered. Those of one class stay in
order. -/
structure MovesRecords {α : Type} (classes : Equiv.Perm ClassId) (first second : List (ClassId × α))
    (move : Equiv.Perm Nat) : Prop where
  record : ∀ index : Nat, second[move index]? = (first[index]?).map (Prod.map classes id)
  order : ∀ {earlier later : Nat} {owner : ClassId}, earlier < later →
    (first.map Prod.fst)[earlier]? = some owner → (first.map Prod.fst)[later]? = some owner →
    move earlier < move later

namespace MovesRecords

variable {α : Type} {classes : Equiv.Perm ClassId} {first second : List (ClassId × α)}
  {move : Equiv.Perm Nat}

theorem owner (moves : MovesRecords classes first second move) (index : Nat) :
    (second.map Prod.fst)[move index]? = ((first.map Prod.fst)[index]?).map classes := by
  rw [List.getElem?_map, List.getElem?_map, moves.record, Option.map_map, Option.map_map]
  rfl

theorem symm (moves : MovesRecords classes first second move) :
    MovesRecords classes.symm second first move.symm where
  record index := by
    have there := moves.record (move.symm index)
    rw [Equiv.apply_symm_apply] at there
    have back : Prod.map classes.symm id ∘ Prod.map classes id = (id : ClassId × α → ClassId × α) := by
      funext pair
      exact Prod.ext (classes.symm_apply_apply pair.1) rfl
    rw [there, Option.map_map, back, Option.map_id_fun, id]
  order {earlier later owner} less owned otherOwned := by
    have back {index : Nat} (owned : (second.map Prod.fst)[index]? = some owner) :
        (first.map Prod.fst)[move.symm index]? = some (classes.symm owner) := by
      have there := moves.owner (move.symm index)
      rw [Equiv.apply_symm_apply, owned] at there
      obtain ⟨known, here, rfl⟩ := Option.map_eq_some_iff.mp there.symm
      rw [here, Equiv.symm_apply_apply]
    have notAfter : ¬ move.symm later < move.symm earlier := fun after => by
      have reversed := moves.order after (back otherOwned) (back owned)
      rw [Equiv.apply_symm_apply, Equiv.apply_symm_apply] at reversed
      exact Nat.lt_asymm less reversed
    exact Nat.lt_of_le_of_ne (Nat.not_lt.mp notAfter) (move.symm.injective.ne (Nat.ne_of_lt less))

/-- The first record of a class with a property is moved to the first one of the renumbered class. -/
theorem firstOwned (moves : MovesRecords classes first second move) {owner : ClassId}
    {holds : α → Prop} {index : Nat} (declares : FirstOwned first owner holds index) :
    FirstOwned second (classes owner) holds (move index) := by
  obtain ⟨⟨record, here, holding⟩, least⟩ := declares
  have moved : second[move index]? = some (classes owner, record) := by
    rw [moves.record, here]
    rfl
  have owned {index : Nat} {record : α} (stands : second[index]? = some (classes owner, record)) :
      (second.map Prod.fst)[index]? = some (classes owner) := by
    rw [List.getElem?_map, stands]
    rfl
  refine ⟨⟨record, moved, holding⟩, fun earlier less other there => ?_⟩
  refine least (move.symm earlier) ?_ other ?_
  · have before := moves.symm.order less (owned there) (owned moved)
    rwa [Equiv.symm_apply_apply] at before
  · rw [moves.symm.record, there]
    simp

/-- The positions that a class lists are moved, in order. -/
theorem lists (moves : MovesRecords classes first second move) {owner : ClassId} {listed : List Nat}
    (lists : Lists (first.map Prod.fst) owner listed) :
    Lists (second.map Prod.fst) (classes owner) (listed.map move) where
  ascending := by
    rw [List.pairwise_map]
    refine lists.ascending.imp_of_mem fun among otherAmong less => ?_
    exact moves.order less ((lists.complete _).mp among) ((lists.complete _).mp otherAmong)
  complete index := by
    obtain ⟨original, rfl⟩ := move.surjective index
    rw [List.mem_map_of_injective move.injective, lists.complete, moves.owner, Option.map_eq_some_iff]
    exact ⟨fun owned => ⟨owner, owned, rfl⟩, fun ⟨other, owned, same⟩ => classes.injective same ▸ owned⟩

end MovesRecords

/-! ### Descriptions -/

/-- An entry of a list is related to the entries behind it if this holds pairwise. -/
theorem rel_of_pairwise {α : Type} {related : α → α → Prop} {entries : List α}
    (pairwise : entries.Pairwise related) {earlier later : Nat} (less : earlier < later) {first second : α}
    (here : entries[earlier]? = some first) (there : entries[later]? = some second) :
    related first second := by
  obtain ⟨_, rfl⟩ := List.getElem?_eq_some_iff.mp here
  obtain ⟨_, rfl⟩ := List.getElem?_eq_some_iff.mp there
  exact List.pairwise_iff_getElem.mp pairwise earlier later _ _ less

/-- What the classes of a description own, class by class, each item with its class and its place among
what the class owns. -/
def placedItems {α : Type} (items : Class → List α) (description : Description) :
    List ((ClassId × α) × Nat) :=
  description.numberedClasses.flatMap fun (info, id) =>
    (items info).zipIdx.map fun (item, place) => ((id, item), place)

theorem map_fst_placedItems {α : Type} (items : Class → List α) (description : Description) :
    (placedItems items description).map Prod.fst =
      description.numberedClasses.flatMap fun (info, id) => (items info).map fun item => (id, item) := by
  unfold placedItems
  rw [List.map_flatMap]
  refine congrArg (description.numberedClasses.flatMap ·) (funext fun ⟨info, id⟩ => ?_)
  have byPlace : (items info).map (fun item => (id, item)) =
      ((items info).zipIdx.map Prod.fst).map fun item => (id, item) := by
    rw [List.zipIdx_map_fst]
  refine Eq.trans ?_ byPlace.symm
  rw [List.map_map, List.map_map]
  rfl

/-- The items of one class stand in the order of their places. -/
theorem pairwise_placedItems {α : Type} (items : Class → List α) (description : Description) :
    (placedItems items description).Pairwise fun first second =>
      first.1.1 = second.1.1 → first.2 < second.2 := by
  refine List.pairwise_flatMap.mpr ⟨fun ⟨info, id⟩ _ => ?_, ?_⟩
  · have places : ((items info).zipIdx.map Prod.snd).Pairwise (· < ·) := by
      rw [List.zipIdx_map_snd]
      exact List.pairwise_lt_range'
    rw [List.pairwise_map] at places ⊢
    exact places.imp fun {first second} (less : first.2 < second.2) _ => less
  · have distinct : (description.numberedClasses.map Prod.snd).Nodup :=
      nodup_numbered fun _ _ same => congrArg ClassId.index same
    refine (List.pairwise_map.mp distinct).imp fun different left inLeft right inRight same => ?_
    obtain ⟨_, _, rfl⟩ := List.mem_map.mp inLeft
    obtain ⟨_, _, rfl⟩ := List.mem_map.mp inRight
    exact absurd same different

section Moved

variable {first second : Description} {classes : Equiv.Perm ClassId}
  (moved : ∀ id, second.classes[(classes id).index]? = first.classes[id.index]?)
include moved

theorem perm_numberedClasses :
    second.numberedClasses.Perm (first.numberedClasses.map (Prod.map id classes)) := by
  have distinct (description : Description) : description.numberedClasses.Nodup :=
    List.Nodup.of_map Prod.snd (nodup_numbered fun _ _ same => congrArg ClassId.index same)
  have members (item : Class × ClassId) :
      (Equiv.prodCongr (Equiv.refl Class) classes) item ∈ second.numberedClasses ↔
        item ∈ first.numberedClasses := by
    obtain ⟨info, id⟩ := item
    show (info, classes id) ∈ _ ↔ _
    rw [mem_numberedClasses, mem_numberedClasses, moved]
  exact perm_map_of_mem (distinct first) (distinct second) members

/-- **What the classes own is moved with them**, in order. -/
theorem exists_movesRecords {α : Type} (items : Class → List α) :
    ∃ move, MovesRecords classes
      (first.numberedClasses.flatMap fun (info, id) => (items info).map fun item => (id, item))
      (second.numberedClasses.flatMap fun (info, id) => (items info).map fun item => (id, item))
      move := by
  have perm : ((placedItems items first).map (Prod.map (Prod.map classes id) id)).Perm
      (placedItems items second) := by
    unfold placedItems
    refine List.Perm.trans ?_ (((perm_numberedClasses moved).flatMap_right _).symm)
    rw [List.map_flatMap, List.flatMap_map]
    refine List.Perm.of_eq (congrArg (first.numberedClasses.flatMap ·) (funext fun ⟨info, id⟩ => ?_))
    rw [List.map_map]
    rfl
  obtain ⟨move, placed⟩ := exists_moving_of_perm perm
  simp only [← map_fst_placedItems]
  refine ⟨move, fun index => ?_, fun {earlier later owner} less owned otherOwned => ?_⟩
  · rw [List.getElem?_map, placed, List.getElem?_map, List.getElem?_map, Option.map_map, Option.map_map]
    rfl
  · -- The places of two items of one class tell which of them stands first, in both descriptions.
    rw [List.map_map, List.getElem?_map, Option.map_eq_some_iff] at owned otherOwned
    obtain ⟨item, here, rfl⟩ := owned
    obtain ⟨otherItem, there, sameOwner⟩ := otherOwned
    have places : item.2 < otherItem.2 :=
      rel_of_pairwise (pairwise_placedItems items first) less here there sameOwner.symm
    have movedItem : (placedItems items second)[move earlier]? =
        some (Prod.map (Prod.map classes id) id item) := by
      rw [placed, List.getElem?_map, here]
      rfl
    have movedOther : (placedItems items second)[move later]? =
        some (Prod.map (Prod.map classes id) id otherItem) := by
      rw [placed, List.getElem?_map, there]
      rfl
    have notAfter : ¬ move later < move earlier := fun after => by
      have reversed := rel_of_pairwise (pairwise_placedItems items second) after movedOther movedItem
        (congrArg classes sameOwner)
      exact Nat.lt_asymm places reversed
    exact Nat.lt_of_le_of_ne (Nat.not_lt.mp notAfter) (move.injective.ne (Nat.ne_of_lt less))

end Moved

/-- A description has the classes of another one, renumbered, and the same entry. -/
structure Rearranged (first second : Description) (numbers : Renumbering) : Prop where
  classes : ∀ id, second.classes[(numbers.classes id).index]? = first.classes[id.index]?
  fields : MovesRecords numbers.classes first.ownedFields second.ownedFields
    (FieldId.positions.permCongr numbers.fields)
  methods : MovesRecords numbers.classes first.ownedMethods second.ownedMethods
    (MethodId.positions.permCongr numbers.methods)
  entry : second.entry = first.entry

/-- **A description whose classes are permuted is rearranged.** -/
theorem exists_rearranged {first second : Description} (perm : first.classes.Perm second.classes)
    (entry : second.entry = first.entry) : ∃ numbers, Rearranged first second numbers := by
  obtain ⟨move, moved⟩ := exists_moving_of_perm perm
  have classes (id : ClassId) :
      second.classes[(ClassId.positions.symm.permCongr move id).index]? = first.classes[id.index]? :=
    moved id.index
  obtain ⟨fields, fieldsMoved⟩ := exists_movesRecords classes Class.fields
  obtain ⟨methods, methodsMoved⟩ := exists_movesRecords classes Class.methods
  exact ⟨⟨ClassId.positions.symm.permCongr move, MethodId.positions.symm.permCongr methods,
    FieldId.positions.symm.permCongr fields⟩, classes, fieldsMoved, methodsMoved, entry⟩

namespace Rearranged

variable {first second : Description} {numbers : Renumbering}

theorem symm (rearranged : Rearranged first second numbers) :
    Rearranged second first ⟨numbers.classes.symm, numbers.methods.symm, numbers.fields.symm⟩ where
  classes id := by
    have there := rearranged.classes (numbers.classes.symm id)
    rw [Equiv.apply_symm_apply] at there
    exact there.symm
  fields := rearranged.fields.symm
  methods := rearranged.methods.symm
  entry := rearranged.entry.symm

/-! ### Names stand for renumbered records -/

variable (rearranged : Rearranged first second numbers)
include rearranged

theorem named {name : String} {id : ClassId} (named : first.Named name id) :
    second.Named name (numbers.classes id) := by
  obtain ⟨written, isWritten, same⟩ := named
  exact ⟨written, (rearranged.classes id).trans isWritten, same⟩

theorem findsField {name : String} {id : ClassId} {field : FieldId}
    (finds : first.FindsField name id field) :
    second.FindsField name (numbers.classes id) (numbers.fields field) := by
  induction finds with
  | own declares => exact .own (rearranged.fields.firstOwned declares)
  | @inherited id _ _ _ _ isWritten lacks extending named _ hyp =>
    exact .inherited ((rearranged.classes id).trans isWritten) lacks extending (rearranged.named named) hyp

theorem fieldReferred {reference : String} {field : FieldId}
    (referred : first.FieldReferred reference field) :
    second.FieldReferred reference (numbers.fields field) := by
  obtain ⟨owner, name, id, splits, named, finds⟩ := referred
  exact ⟨owner, name, _, splits, rearranged.named named, rearranged.findsField finds⟩

theorem methodReferred {name : String} {method : MethodId}
    (referred : first.MethodReferred name method) :
    second.MethodReferred name (numbers.methods method) := by
  obtain ⟨owner, signature, id, splits, named, declares⟩ := referred
  exact ⟨owner, signature, _, splits, rearranged.named named, rearranged.methods.firstOwned declares⟩

theorem wellReferencedStatement {statement : Statement}
    (wellReferenced : first.WellReferencedStatement statement) :
    second.WellReferencedStatement statement := by
  cases wellReferenced with
  | new named => exact .new (rearranged.named named)
  | newArray element => exact .newArray element
  | store referred => exact .store (rearranged.fieldReferred referred)
  | load referred => exact .load (rearranged.fieldReferred referred)
  | invoke kind method named => exact .invoke kind method (rearranged.named named)
  | other => exact .other

/-- **What is mentioned is declared in both descriptions or in none.** -/
theorem wellReferenced (perm : first.classes.Perm second.classes)
    (wellReferenced : first.WellReferenced) : second.WellReferenced where
  distinct := (perm.map Class.name).nodup_iff.mp wellReferenced.distinct
  supertypes info among name mentioned := by
    obtain ⟨id, named⟩ := wellReferenced.supertypes info (perm.mem_iff.mpr among) name mentioned
    exact ⟨_, rearranged.named named⟩
  statements info among method declared statement stands :=
    rearranged.wellReferencedStatement
      (wellReferenced.statements info (perm.mem_iff.mpr among) method declared statement stands)
  entry name isEntry := by
    obtain ⟨method, referred⟩ := wellReferenced.entry name (rearranged.entry ▸ isEntry)
    exact ⟨_, rearranged.methodReferred referred⟩

end Rearranged

/-! ### Programs -/

/-- What stands in a table stands for what is written at the same position. -/
theorem rel_of_forall₂ {α β : Type} {stands : α → β → Prop} {written : List α} {table : Array β}
    (each : List.Forall₂ stands written table.toList) (index : Nat) :
    Option.Rel stands written[index]? table[index]? := by
  obtain ⟨size, records⟩ := forall₂_toList_iff.mp each
  cases here : written[index]? with
  | some entry =>
    obtain ⟨record, there, stands⟩ := records index entry here
    rw [there]
    exact .some stands
  | none =>
    rw [List.getElem?_eq_none_iff, size] at here
    rw [Array.getElem?_eq_none here]
    exact .none

/-- The records of a table stand for what is moved there. -/
theorem MovesRecords.rel {α β : Type} {classes : Equiv.Perm ClassId} {first second : List (ClassId × α)}
    {move : Equiv.Perm Nat} (moves : MovesRecords classes first second move)
    {stands : ClassId × α → β → Prop} {table : Array β} (each : List.Forall₂ stands second table.toList)
    (index : Nat) : Option.Rel (fun entry record => stands (Prod.map classes id entry) record)
      first[index]? table[move index]? := by
  have isMoved := rel_of_forall₂ each (move index)
  rw [moves.record] at isMoved
  generalize first[index]? = entry at isMoved ⊢
  generalize table[move index]? = record at isMoved ⊢
  cases entry with
  | none =>
    cases isMoved
    exact .none
  | some entry =>
    cases isMoved with
    | some stands => exact .some stands

/-- Something is written for both of two records or for none. -/
theorem both_of_rel {α β γ : Type} {stands : α → β → Prop} {others : α → γ → Prop}
    {written : Option α} {found : Option β} {other : Option γ}
    (isFound : Option.Rel stands written found) (isOther : Option.Rel others written other) :
    (found = none ∧ other = none) ∨ ∃ entry record moved, found = some record ∧ other = some moved ∧
      stands entry record ∧ others entry moved := by
  cases isFound with
  | none =>
    cases isOther with
    | none => exact .inl ⟨rfl, rfl⟩
  | some stands =>
    cases isOther with
    | some others => exact .inr ⟨_, _, _, rfl, rfl, stands, others⟩

/-- What stands for the same list in two ways corresponds entry by entry. -/
theorem forall₂_of_forall₂ {α β γ : Type} {stands : α → β → Prop} {others : α → γ → Prop}
    {same : β → γ → Prop} {written : List α} {found : List β} {other : List γ}
    (isFound : List.Forall₂ stands written found) (isOther : List.Forall₂ others written other)
    (each : ∀ entry record moved, stands entry record → others entry moved → same record moved) :
    List.Forall₂ same found other := by
  induction isFound generalizing other with
  | nil =>
    cases isOther with
    | nil => exact .nil
  | cons stands _ hyp =>
    cases isOther with
    | cons others rest => exact .cons (each _ _ _ stands others) (hyp rest)

/-- What is found on both sides or on none is moved. -/
theorem eq_map_of_imp {ι : Type} {move : Equiv.Perm ι} {found other : Option ι}
    (there : ∀ id, found = some id → other = some (move id))
    (back : ∀ id, other = some id → found = some (move.symm id)) : other = found.map move := by
  cases isFound : found with
  | some id => exact there id isFound
  | none =>
    refine Option.eq_none_iff_forall_ne_some.mpr fun id isOther => ?_
    rw [back id isOther] at isFound
    cases isFound

/-- What is asked for one by one is moved if every answer is. -/
theorem mapM_eq_map {α β γ : Type} {move : β → γ} {ask : α → Option β} {askOther : α → Option γ}
    (moved : ∀ item, askOther item = (ask item).map move) (items : List α) :
    items.mapM askOther = (items.mapM ask).map (List.map move) := by
  induction items with
  | nil => rfl
  | cons item rest hyp =>
    rw [List.mapM_cons, List.mapM_cons, hyp, moved]
    cases ask item with
    | none => rfl
    | some answer => cases rest.mapM ask <;> rfl

section Loaded

variable {first second : Description} {program other : Program} {numbers : Renumbering}

/-- The methods that names stand for are those of the description. -/
theorem Faithful.methodNamed_iff (faithful : Faithful first program) {name : String}
    {method : MethodId} : program.methodNamed? (Text.removeBlanks name) = some method ↔
      first.MethodReferred name method := by
  rw [← faithful.methodReferred]
  unfold Description.methodReferred
  cases program.methodNamed? (Text.removeBlanks name) <;> simp

variable (rearranged : Rearranged first second numbers) (faithful : Faithful first program)
  (others : Faithful second other)
include rearranged faithful others

namespace Rearranged

theorem classNamed (name : String) :
    other.classNamed? name = (program.classNamed? name).map numbers.classes := by
  refine eq_map_of_imp (fun id named => ?_) fun id named => ?_
  · exact (others.classNamed name _).mpr (rearranged.named ((faithful.classNamed name id).mp named))
  · exact (faithful.classNamed name _).mpr
      (rearranged.symm.named ((others.classNamed name id).mp named))

theorem methodNamed (name : String) : other.methodNamed? (Text.removeBlanks name) =
    (program.methodNamed? (Text.removeBlanks name)).map numbers.methods := by
  refine eq_map_of_imp (fun method named => ?_) fun method named => ?_
  · exact others.methodNamed_iff.mpr (rearranged.methodReferred (faithful.methodNamed_iff.mp named))
  · exact faithful.methodNamed_iff.mpr
      (rearranged.symm.methodReferred (others.methodNamed_iff.mp named))

theorem typeNamed (text : String) : other.typeNamed text = (program.typeNamed text).renumbered numbers :=
  Program.typeNamed_renumbered (rearranged.classNamed faithful others) text

theorem head {written : Class} {info moved : CallFlow.Class} (mirrors : ClassMirrors program written info)
    (otherMirrors : ClassMirrors other written moved) :
    headOf moved = headOf (info.renumbered numbers) := by
  have classNamed := rearranged.classNamed faithful others
  have superclass : moved.superclass = info.superclass.map numbers.classes := by
    rcases mirrors.superclass_cases with ⟨top, ends⟩ | ⟨name, above, extending, named, next⟩
    · rcases otherMirrors.superclass_cases with ⟨_, otherEnds⟩ | ⟨_, _, otherwise, _⟩
      · rw [ends, otherEnds]
        rfl
      · rw [top] at otherwise
        cases otherwise
    · rcases otherMirrors.superclass_cases with ⟨otherwise, _⟩ | ⟨_, moved, sameName, otherNamed, otherNext⟩
      · rw [extending] at otherwise
        cases otherwise
      · rw [extending] at sameName
        cases sameName
        rw [classNamed, named] at otherNamed
        rw [next, otherNext, ← otherNamed]
  have interfaces : moved.interfaces = info.interfaces.map numbers.classes := by
    have here := otherMirrors.interfaces
    rw [mapM_eq_map classNamed, mirrors.interfaces] at here
    exact (Option.some.inj here).symm
  unfold headOf CallFlow.Class.renumbered
  simp only [superclass, interfaces, mirrors.name, otherMirrors.name, mirrors.isAbstract,
    otherMirrors.isAbstract, mirrors.isInterface, otherMirrors.isInterface]

theorem class? (id : ClassId) : other.class? (numbers.classes id) =
    (program.class? id).map (CallFlow.Class.renumbered numbers) := by
  have isClass : Option.Rel (ClassMirrors program) first.classes[id.index]? (program.class? id) :=
    rel_of_forall₂ faithful.classes id.index
  have isMoved : Option.Rel (ClassMirrors other) first.classes[id.index]?
      (other.class? (numbers.classes id)) :=
    rearranged.classes id ▸ rel_of_forall₂ others.classes (numbers.classes id).index
  rcases both_of_rel isClass isMoved with
    ⟨isNone, otherNone⟩ | ⟨written, info, moved, isClass, isMoved, mirrors, otherMirrors⟩
  · rw [isNone, otherNone]
    rfl
  · have head := rearranged.head faithful others mirrors otherMirrors
    have methods := (rearranged.methods.lists (faithful.methodLists id info isClass)).unique
      (others.methodLists _ moved isMoved)
    have fields := (rearranged.fields.lists (faithful.fieldLists id info isClass)).unique
      (others.fieldLists _ moved isMoved)
    have sameMethods : moved.methods = info.methods.map numbers.methods := by
      refine List.map_injective_iff.mpr MethodId.positions.injective (methods.trans ?_)
      rw [List.map_map, List.map_map]
      rfl
    have sameFields : moved.fields = info.fields.map numbers.fields := by
      refine List.map_injective_iff.mpr FieldId.positions.injective (fields.trans ?_)
      rw [List.map_map, List.map_map]
      rfl
    rw [isClass, isMoved, Option.map_some]
    cases moved
    cases head
    cases sameMethods
    cases sameFields
    rfl

theorem statement {written : Statement} {statement moved : CallFlow.Statement}
    (translates : Translates program written statement) (otherTranslates : Translates other written moved) :
    program.SameStatement numbers other statement moved := by
  have classNamed := rearranged.classNamed faithful others
  have fields {reference : String} {field otherField : FieldId}
      (referred : Description.fieldReferred program reference = .ok field)
      (otherReferred : Description.fieldReferred other reference = .ok otherField) :
      otherField = numbers.fields field := by
    have moved := rearranged.fieldReferred ((faithful.fieldReferred reference field).mp referred)
    rw [← others.fieldReferred, otherReferred] at moved
    exact Except.ok.inj moved
  cases translates with
  | new named =>
    cases otherTranslates with
    | new otherNamed =>
      rw [classNamed, named] at otherNamed
      cases otherNamed
      exact .new _
  | newArray element =>
    cases otherTranslates
    rw [rearranged.typeNamed faithful others]
    exact .newArray _
  | store referred =>
    cases otherTranslates with
    | store otherReferred =>
      rw [fields referred otherReferred]
      exact .store _
  | load referred =>
    cases otherTranslates with
    | load otherReferred =>
      rw [fields referred otherReferred]
      exact .load _
  | invoke kind named known =>
    cases otherTranslates with
    | invoke _ otherNamed otherKnown =>
      rw [classNamed, named] at otherNamed
      cases otherNamed
      exact .invoke _ _ ⟨_, known, otherKnown⟩
  | other =>
    cases otherTranslates
    exact .other

theorem field? (id : FieldId) : other.field? (numbers.fields id) =
    (program.field? id).map (CallFlow.Field.renumbered numbers) := by
  have isField : Option.Rel (FieldMirrors program) first.ownedFields[id.index]? (program.field? id) :=
    rel_of_forall₂ faithful.fields id.index
  rcases both_of_rel isField (rearranged.fields.rel others.fields id.index) with
    ⟨isNone, otherNone⟩ | ⟨written, field, moved, isField, isMoved, mirrors, otherMirrors⟩
  · rw [isNone]
    exact otherNone
  · have same : moved = field.renumbered numbers := by
      unfold CallFlow.Field.renumbered
      rw [mirrors.owner, mirrors.name, mirrors.type, ← rearranged.typeNamed faithful others]
      cases moved
      cases otherMirrors.owner
      cases otherMirrors.name
      cases otherMirrors.type
      rfl
    rw [isField, Option.map_some, ← same]
    exact isMoved

theorem method? (edits : Program.Edits {} program) (otherEdits : Program.Edits {} other) (id : MethodId) :
    Option.Rel (program.SameMethod numbers other) (program.method? id)
      (other.method? (numbers.methods id)) := by
  have isMethod : Option.Rel (MethodMirrors program) first.ownedMethods[id.index]? (program.method? id) :=
    rel_of_forall₂ faithful.methods id.index
  rcases both_of_rel isMethod (rearranged.methods.rel others.methods id.index) with
    ⟨isNone, otherNone⟩ | ⟨written, method, moved, isMethod, isMoved, mirrors, otherMirrors⟩
  · have otherNone : other.method? (numbers.methods id) = none := otherNone
    rw [isNone, otherNone]
    exact .none
  · have isMoved : other.method? (numbers.methods id) = some moved := isMoved
    have types : other.typeNamed = Ty.renumbered numbers ∘ program.typeNamed :=
      funext (rearranged.typeNamed faithful others)
    have member := mirrors.member edits.consistent isMethod
    have otherMember := otherMirrors.member otherEdits.consistent isMoved
    rw [isMethod, isMoved]
    refine .some ⟨?_, otherMirrors.name.trans mirrors.name.symm, ⟨_, member, otherMember⟩,
      ?_, ?_, otherMirrors.isStatic.trans mirrors.isStatic.symm,
      otherMirrors.isAbstract.trans mirrors.isAbstract.symm, ?_⟩
    · rw [otherMirrors.owner, mirrors.owner]
      rfl
    · rw [otherMirrors.params, mirrors.params, types, List.map_map]
      rfl
    · rw [otherMirrors.result, mirrors.result, resultType, resultType, types, Option.map_map]
      rfl
    · exact forall₂_of_forall₂ mirrors.body otherMirrors.body fun _ _ _ translates otherTranslates =>
        rearranged.statement faithful others translates otherTranslates

theorem entryMethod : other.entry = program.entry.map numbers.methods := by
  have entry := faithful.entry
  have otherEntry := others.entry
  rw [rearranged.entry] at otherEntry
  cases chosen : first.entry with
  | none =>
    rw [chosen] at entry otherEntry
    rw [← Option.some.inj entry, ← Option.some.inj otherEntry]
    rfl
  | some name =>
    rw [chosen, Option.mapM_some] at entry otherEntry
    rw [rearranged.methodNamed faithful others] at otherEntry
    obtain ⟨method, named, same⟩ := Option.map_eq_some_iff.mp entry
    rw [named] at otherEntry
    rw [← same]
    exact (Option.some.inj otherEntry).symm

/-- **What has been loaded is renumbered.** -/
theorem isomorphic (edits : Program.Edits {} program) (otherEdits : Program.Edits {} other) :
    program.Isomorphic numbers other :=
  ⟨rearranged.classNamed faithful others, rearranged.class? faithful others,
    rearranged.field? faithful others, rearranged.method? faithful others edits otherEdits,
    rearranged.entryMethod faithful others⟩

end Rearranged

end Loaded

/-! ### The whole -/

/-- Two outcomes of loading agree: there are two programs that differ in their numbers only, or there is
none. -/
inductive Alike {ε : Type} : Except ε Program → Except ε Program → Prop where
  | loaded {program other : Program} (numbers : Renumbering)
      (isomorphic : program.Isomorphic numbers other) : Alike (.ok program) (.ok other)
  | failed (error other : ε) : Alike (.error error) (.error other)

/-- **The order of the classes does not matter.** If the classes of a description are permuted, it is
accepted as before or not, and then the programs are the same up to the numbers of their classes, methods
and fields. So it is for two texts, whatever they look like, that give the two descriptions. -/
theorem resolve_perm {first second : Description} (perm : first.classes.Perm second.classes)
    (entry : second.entry = first.entry) : Alike first.resolve second.resolve ∧
      ∀ text other, ofText text = .ok first → ofText other = .ok second →
        Alike (Program.ofText text) (Program.ofText other) := by
  obtain ⟨numbers, rearranged⟩ := exists_rearranged perm entry
  have together : (∃ program, first.resolve = .ok program) ↔ ∃ program, second.resolve = .ok program := by
    rw [exists_resolve_iff, exists_resolve_iff]
    exact ⟨rearranged.wellReferenced perm, rearranged.symm.wellReferenced perm.symm⟩
  have alike : Alike first.resolve second.resolve := by
    cases loaded : first.resolve with
    | ok program =>
      obtain ⟨other, otherLoaded⟩ := together.mp ⟨program, loaded⟩
      rw [otherLoaded]
      exact .loaded numbers (rearranged.isomorphic (faithful_of_resolve loaded)
        (faithful_of_resolve otherLoaded) (mirrors_of_resolve loaded).1 (mirrors_of_resolve otherLoaded).1)
    | error error =>
      cases otherLoaded : second.resolve with
      | ok other =>
        obtain ⟨program, same⟩ := together.mpr ⟨other, otherLoaded⟩
        rw [loaded] at same
        cases same
      | error other => exact .failed error other
  refine ⟨alike, fun text other described otherDescribed => ?_⟩
  rw [Program.ofText_of_described described, Program.ofText_of_described otherDescribed]
  generalize first.resolve = outcome at alike ⊢
  generalize second.resolve = otherOutcome at alike ⊢
  cases alike with
  | loaded numbers isomorphic => exact .loaded numbers isomorphic
  | failed error other => exact .failed (TextError.load error) (TextError.load other)

/-- A square is a shape, which has a name; the main method names a square and asks for its area. -/
def shapes : Description where
  entry := some "Main.main(Shape[])"
  classes := [
    { name := "Main",
      methods := [
        { name := "main", params := ["Shape[]"], isStatic := true,
          body := [.new "Square", .store "Square.name", .invoke "virtual" "Shape" "area()"] }] },
    { name := "Square", superclass := some "Shape",
      methods := [{ name := "area", result := some "int" }] },
    { name := "Shape", isAbstract := true, fields := [{ name := "name", type := "Text" }],
      methods := [{ name := "area", result := some "int", isAbstract := true }] }]

/-- The shapes, the last class first. -/
def turnedShapes : Description := { shapes with classes := shapes.classes.reverse }

/-- The shapes are loaded in both orders; the main class is the first one and the last one. -/
theorem resolve_perm_shapes :
    ∃ program other numbers, shapes.resolve = .ok program ∧ turnedShapes.resolve = .ok other ∧
      program.classNamed? "Main" = some ⟨0⟩ ∧ other.classNamed? "Main" = some ⟨2⟩ ∧
      program.Isomorphic numbers other := by
  have main : shapes.resolve.toOption.bind (·.classNamed? "Main") = some ⟨0⟩ := by decide +kernel
  have otherMain : turnedShapes.resolve.toOption.bind (·.classNamed? "Main") = some ⟨2⟩ := by
    decide +kernel
  have perm : shapes.classes.Perm turnedShapes.classes := (List.reverse_perm shapes.classes).symm
  have entry : turnedShapes.entry = shapes.entry := rfl
  have alike := (resolve_perm perm entry).1
  generalize shapes.resolve = outcome at alike main
  generalize turnedShapes.resolve = otherOutcome at alike otherMain
  cases alike with
  | loaded numbers isomorphic => exact ⟨_, _, numbers, rfl, rfl, main, otherMain, isomorphic⟩
  | failed error other => cases main

end Description

end CallFlow
