/-
**The class hierarchy.**

The supertypes of a class are the classes that can be reached from it by superclass and interface
edges, the class itself included. Any shape of edges is allowed, cycles too.

* `Program.Below`: one class is a subtype of another one, as a relation.
* `Program.supertypesOf`: the supertypes of a class, by breadth-first search.
* `Hierarchy.of?`: the hierarchy of a program whose edges all lead to classes of the program, with
  the supertypes of every class at hand.
* `Hierarchy.supertypes_eq`: what is at hand are the supertypes.
-/

import CallFlow.Program.Basic
import CallFlow.Order.SortedSet

namespace CallFlow

namespace Program

variable (program : Program)

/-- The superclass and the interfaces of a class. -/
def directSupertypes (id : ClassId) : List ClassId :=
  (program.class? id).elim [] Class.directSupertypes

/-- The first class is a subtype of the second one: zero or more edges lead from one to the other. -/
inductive Below (program : Program) : ClassId → ClassId → Prop where
  | refl (id : ClassId) : Below program id id
  | step {lower middle upper : ClassId} (edge : middle ∈ program.directSupertypes lower)
      (rest : Below program middle upper) : Below program lower upper

/-- Breadth-first search: takes at most so many classes off the queue, and adds the direct
supertypes of each, those not seen before, to the classes seen and to the queue. -/
def search : Nat → List ClassId → SortedSet ClassId → SortedSet ClassId
  | 0, _, seen => seen
  | _ + 1, [], seen => seen
  | steps + 1, id :: queue, seen =>
    let fresh := (SortedSet.ofList (program.directSupertypes id)).filter fun next => next ∉ seen
    search steps (queue ++ fresh.toList) (fresh.toList.foldl (fun set next => set.insert next) seen)

/-- The supertypes of a class, the class included. -/
def supertypesOf (id : ClassId) : SortedSet ClassId :=
  program.search program.classes.size [id] (SortedSet.empty.insert id)

/-- Every superclass and interface edge leads to a class of the program. -/
def EdgesInRange : Prop :=
  ∀ id ∈ program.classIds, ∀ next ∈ program.directSupertypes id, next.index < program.classes.size

instance : Decidable program.EdgesInRange :=
  inferInstanceAs (Decidable (∀ id ∈ program.classIds, ∀ next ∈ program.directSupertypes id,
    next.index < program.classes.size))

end Program

/-- A program whose edges all lead to classes of the program, with the supertypes of each class. -/
structure Hierarchy where
  program : Program
  edgesInRange : program.EdgesInRange
  /-- The supertypes of the classes, by identifier. -/
  table : Array (SortedSet ClassId)
  table_eq : table = (program.classIds.map program.supertypesOf).toArray

namespace Hierarchy

/-- The hierarchy of a program, if all its edges lead to classes of the program. -/
def of? (program : Program) : Option Hierarchy :=
  if inRange : program.EdgesInRange then some ⟨program, inRange, _, rfl⟩ else none

theorem program_of? {program : Program} {hierarchy : Hierarchy} (found : of? program = some hierarchy) :
    hierarchy.program = program := by
  unfold of? at found
  split at found
  · cases found
    rfl
  · cases found

/-- There is one hierarchy for a program. -/
theorem of?_program (hierarchy : Hierarchy) : of? hierarchy.program = some hierarchy := by
  obtain ⟨program, inRange, table, rfl⟩ := hierarchy
  exact dif_pos inRange

theorem exists_of? {program : Program} (inRange : program.EdgesInRange) :
    ∃ hierarchy, of? program = some hierarchy := ⟨_, dif_pos inRange⟩

variable (hierarchy : Hierarchy)

/-- The supertypes of a class of the program; another identifier has none. -/
def supertypes (id : ClassId) : SortedSet ClassId := (hierarchy.table[id.index]?).getD ∅

/-- The supertypes at hand are the supertypes that the search finds. -/
theorem supertypes_eq {id : ClassId} (inRange : id.index < hierarchy.program.classes.size) :
    hierarchy.supertypes id = hierarchy.program.supertypesOf id := by
  simp [supertypes, hierarchy.table_eq, Program.classIds, inRange]

/-- Whether a class is a subtype of another one, itself included. -/
def isSubtype (lower upper : ClassId) : Bool := upper ∈ hierarchy.supertypes lower

/-- The subtypes of a class, the class included, ascending. -/
def subtypes (upper : ClassId) : List ClassId :=
  hierarchy.program.classIds.filter fun lower => hierarchy.isSubtype lower upper

/-- The subtypes of a class that objects can have, ascending. -/
def concreteSubtypes (upper : ClassId) : List ClassId :=
  (hierarchy.subtypes upper).filter hierarchy.program.isConcrete

end Hierarchy

end CallFlow
