/-
**Program descriptions.**

What is written down about a program before names are looked up: every class, field, method and
statement with the names that it mentions, as they are spelled.
-/

namespace CallFlow

namespace Description

/-- A statement. -/
inductive Statement where
  | new (className : String)
  | newArray (element : String)
  | store (field : String)
  | load (field : String)
  | invoke (kind className method : String)
  | other
  deriving DecidableEq, Repr, Inhabited

/-- A method. -/
structure Method where
  name : String
  params : List String := []
  result : Option String := none
  isStatic : Bool := false
  isAbstract : Bool := false
  body : List Statement := []
  deriving DecidableEq, Repr, Inhabited

/-- A field. -/
structure Field where
  name : String
  type : String
  deriving DecidableEq, Repr, Inhabited

/-- A class or an interface. -/
structure Class where
  name : String
  superclass : Option String := none
  interfaces : List String := []
  isAbstract : Bool := false
  isInterface : Bool := false
  fields : List Field := []
  methods : List Method := []
  deriving DecidableEq, Repr, Inhabited

end Description

/-- The description of a program. -/
structure Description where
  entry : Option String := none
  classes : List Description.Class
  deriving DecidableEq, Repr, Inhabited

end CallFlow
