/-
**The index of declarations.**

Which method a class declares for a member is asked at every step of a walk. So the methods that the
classes list are entered into one index, by class and member. A class may list several methods with one
member; the first one counts.

* `Program.declarations`: the index.
* `Hierarchy.dispatchTarget`: the method that runs when a target is called on a receiver of a class, with
  every declaration read from the index.
-/

import CallFlow.Hierarchy.Dispatch

namespace CallFlow

namespace Program

variable (program : Program)

/-- Enters a method that a class lists, unless the class has an earlier one with the same member. -/
def enterDeclaration (owner : ClassId) (index : List (Target × MethodId)) (id : MethodId) :
    List (Target × MethodId) :=
  match program.method? id with
  | none => index
  | some method =>
    if (index.lookup ⟨owner, method.member⟩).isSome then index
    else (⟨owner, method.member⟩, id) :: index

/-- Enters the methods that a class lists. -/
def enterDeclarations (index : List (Target × MethodId)) (owner : ClassId) :
    List (Target × MethodId) :=
  ((program.class? owner).elim [] Class.methods).foldl (program.enterDeclaration owner) index

/-- The first declaration of each member in each class. -/
def declarations : List (Target × MethodId) := program.classIds.foldl program.enterDeclarations []

end Program

namespace Hierarchy

variable (hierarchy : Hierarchy)

/-- What the index holds for a member in a class. -/
def indexed? (id : ClassId) (member : MemberId) : Option MethodId :=
  hierarchy.program.declarations.lookup ⟨id, member⟩

/-- The method that runs when a target is called on a receiver of exactly a class. -/
def dispatchTarget (id : ClassId) (target : Target) : Except Fault (Option MethodId) :=
  (hierarchy.program.ascend (fun candidate _ => hierarchy.indexed? candidate target.member) id).map fun
    | some method => if hierarchy.program.isAbstract method then none else some method
    | none => (hierarchy.supertypes id).toList.findSome? fun above =>
      if (hierarchy.program.class? above).any Class.isInterface then
        (hierarchy.indexed? above target.member).filter fun method =>
          !hierarchy.program.isAbstract method
      else none

end Hierarchy

end CallFlow
