/-
**The rows of concrete subtypes.**

Which concrete classes are below a class is asked for every virtual call. So the supertypes are turned
round once: every concrete class is entered into the rows of all its supertypes.

* `Hierarchy.subtypeRows`: the row of each class.
-/

import CallFlow.Hierarchy.Basic

namespace CallFlow

namespace Hierarchy

variable (hierarchy : Hierarchy)

/-- Enters a class into the row of each of its supertypes. -/
def enterSubtype (rows : Array (List ClassId)) (lower : ClassId) : Array (List ClassId) :=
  (hierarchy.supertypes lower).toList.foldl
    (fun rows upper => rows.modify upper.index fun row => row ++ [lower]) rows

/-- The concrete subtypes of each class, by identifier. -/
def subtypeRows : Array (List ClassId) :=
  (hierarchy.program.classIds.filter hierarchy.program.isConcrete).foldl hierarchy.enterSubtype
    (Array.replicate hierarchy.program.classes.size [])

end Hierarchy

end CallFlow
