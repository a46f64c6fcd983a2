/-
**Which method a call reaches.**

A call on a receiver of some class reaches the nearest declaration on the superclass chain of the
class. Only where the chain has none do the interfaces count: then the first one, by identifier,
whose declaration is not abstract.

* `Hierarchy.dispatch`: the method that runs when a member is called on a receiver of a class.
* `Hierarchy.resolve`: the declaration that a static or special call names.
* `Hierarchy.receivers`: the receiver classes of a virtual call with the methods they reach.
-/

import CallFlow.Hierarchy.Basic
import CallFlow.Program.Ascent
import CallFlow.Program.Name

namespace CallFlow

namespace Hierarchy

variable (hierarchy : Hierarchy)

/-- The nearest declaration of a member on the superclass chain of a class. -/
def nearest (id : ClassId) (member : MemberId) : Except Fault (Option MethodId) :=
  hierarchy.program.ascend (fun candidate _ => hierarchy.program.declared? candidate member) id

/-- The declaration of a member that is not abstract in the first interface above a class to have
one. -/
def defaultMethod (id : ClassId) (member : MemberId) : Option MethodId :=
  (hierarchy.supertypes id).toList.findSome? fun above =>
    if (hierarchy.program.class? above).any Class.isInterface then
      (hierarchy.program.declared? above member).filter fun method =>
        !hierarchy.program.isAbstract method
    else none

/-- The method that runs when a member is called on a receiver of exactly a class. An abstract
nearest declaration means that there is none. -/
def dispatch (id : ClassId) (member : MemberId) : Except Fault (Option MethodId) :=
  (hierarchy.nearest id member).map fun
    | some method => if hierarchy.program.isAbstract method then none else some method
    | none => hierarchy.defaultMethod id member

/-- The declaration that a call names: the nearest one on the superclass chain, else the first one
among all supertypes. -/
def resolve (target : Target) : Except Fault (Option MethodId) :=
  (hierarchy.nearest target.owner target.member).map fun
    | some method => some method
    | none => (hierarchy.supertypes target.owner).toList.findSome? fun above =>
        hierarchy.program.declared? above target.member

/-- The concrete subtypes of the class of a target on which the call reaches a method, ascending,
each with that method. -/
def receivers (target : Target) : Except Fault (List (ClassId × MethodId)) :=
  if (hierarchy.program.class? target.owner).isNone then .error .outOfRange
  else do
    let reached ← (hierarchy.concreteSubtypes target.owner).mapM fun id =>
      (hierarchy.dispatch id target.member).map fun method => method.map fun method => (id, method)
    pure (reached.filterMap id)

end Hierarchy

end CallFlow
