/-
**Guarded questions about the hierarchy.**

The hierarchy of a program is a table with the supertypes of each class, and the first declarations of
the members of each class. Making it reads every class, every method that a class lists and every class
that a walk up the edges comes to; a question reads a row of the table, and a class or a method at each
step of a walk.

* `Guarded.table`: the table of supertypes.
* `Guarded.dispatch`, `Guarded.resolve`, `Guarded.receivers`: which method a call reaches.
-/

import CallFlow.Guarded.Program
import CallFlow.Hierarchy.TargetCache

namespace CallFlow

namespace Guarded

section Tables

variable (program : Program)

/-- Breadth-first search up the edges; each class is read when it is taken off the queue. -/
def search : Nat → List ClassId → SortedSet ClassId → Except Fault (SortedSet ClassId)
  | 0, _, seen => .ok seen
  | _ + 1, [], seen => .ok seen
  | steps + 1, id :: queue, seen => do
    let info ← readClass program id
    let fresh := (SortedSet.ofList info.directSupertypes).filter fun next => next ∉ seen
    search steps (queue ++ fresh.toList) (fresh.toList.foldl (fun set next => set.insert next) seen)

/-- Reads the methods that a class lists, for the first declaration of each member. -/
def readDeclarations (id : ClassId) : Except Fault Unit := do
  let info ← readClass program id
  info.methods.forM fun method => discard (readMethod program method)

/-- Enters a concrete class into the row of each of its supertypes. -/
def enterSubtype (table : Array (SortedSet ClassId)) (id : ClassId) : Except Fault Unit := do
  let info ← readClass program id
  if info.isConcrete then
    let above ← fetch table[id.index]?
    above.toList.forM fun upper => discard (readClass program upper)

/-- The supertypes of each class. -/
def table : Except Fault (Array (SortedSet ClassId)) := do
  program.classIds.forM (readDeclarations program)
  let rows ← program.classIds.mapM fun id =>
    search program program.classes.size [id] (SortedSet.empty.insert id)
  program.classIds.forM (enterSubtype program rows.toArray)
  pure rows.toArray

end Tables

variable (hierarchy : Hierarchy)

/-- The supertypes of a class. -/
def supertypes (id : ClassId) : Except Fault (SortedSet ClassId) := fetch hierarchy.table[id.index]?

/-- Whether a class is a subtype of another one. -/
def isSubtype (lower upper : ClassId) : Except Fault Bool := do
  let above ← supertypes hierarchy lower
  pure (upper ∈ above)

/-- The declaration of a member in an interface, if there is one that is not abstract. -/
def defaultIn (member : MemberId) (above : ClassId) : Except Fault (Option MethodId) := do
  let info ← readClass hierarchy.program above
  match info.isInterface, hierarchy.program.declared? above member with
  | true, some method =>
    let abstract ← isAbstract hierarchy.program method
    pure (if abstract then none else some method)
  | _, _ => pure none

/-- The declaration of a member that is not abstract in the first interface above a class to have
one. -/
def defaultMethod (id : ClassId) (member : MemberId) : Except Fault (Option MethodId) := do
  let above ← supertypes hierarchy id
  above.toList.findSomeM? (defaultIn hierarchy member)

/-- The method that runs when a member is called on a receiver of exactly a class. -/
def dispatch (id : ClassId) (member : MemberId) : Except Fault (Option MethodId) := do
  match ← hierarchy.nearest id member with
  | some method =>
    let abstract ← isAbstract hierarchy.program method
    pure (if abstract then none else some method)
  | none => defaultMethod hierarchy id member

/-- The declaration that a call names. -/
def resolve (target : Target) : Except Fault (Option MethodId) := do
  match ← hierarchy.nearest target.owner target.member with
  | some method => pure (some method)
  | none =>
    let above ← supertypes hierarchy target.owner
    pure (above.toList.findSome? fun upper => hierarchy.program.declared? upper target.member)

/-- The receivers of a virtual target. The class of the target must have a row of subtypes. -/
def receivers (target : Target) : Except Fault (List (ClassId × MethodId)) := do
  let _ ← readClass hierarchy.program target.owner
  let reached ← (hierarchy.concreteSubtypes target.owner).mapM fun id => do
    let method ← dispatch hierarchy id target.member
    pure (method.map fun method => (id, method))
  pure (reached.filterMap id)

/-- The receivers of a target, from memory if it is known. -/
def ask (cache : TargetCache) (target : Target) :
    Except Fault (List (ClassId × MethodId) × TargetCache) :=
  match cache.known.lookup target with
  | some receivers => .ok (receivers, { cache with hits := cache.hits + 1 })
  | none => do
    let receivers ← receivers hierarchy target
    pure (receivers,
      { cache with known := (target, receivers) :: cache.known, misses := cache.misses + 1 })

end Guarded

end CallFlow
