/-
**Growing a program.**

Classes, methods, fields, statements and member signatures are added one at a time. Class names and
member signatures are kept once: adding a known one gives its identifier back.
-/

import CallFlow.Program.Name

namespace CallFlow

namespace Program

variable (program : Program)

/-- Adds a concrete class without supertypes, unless the name is taken. -/
def addClass (name : String) : Program × ClassId :=
  match program.classNamed? name with
  | some id => (program, id)
  | none =>
    ({ program with classes := program.classes.push ⟨name, none, [], false, false, [], []⟩ },
      ⟨program.classes.size⟩)

/-- Adds a member signature, unless it is known. -/
def addMember (text : String) : Program × MemberId :=
  match program.memberNamed? text with
  | some id => (program, id)
  | none => ({ program with members := program.members.push text }, ⟨program.members.size⟩)

/-- Changes a class. -/
def updateClass (id : ClassId) (change : Class → Class) : Program :=
  { program with classes := program.classes.modify id.index change }

/-- Changes a method. -/
def updateMethod (id : MethodId) (change : Method → Method) : Program :=
  { program with methods := program.methods.modify id.index change }

/-- Adds a field to a class. -/
def addField (owner : ClassId) (name : String) (type : Ty) : Program × FieldId :=
  let id : FieldId := ⟨program.fields.size⟩
  let extended := { program with fields := program.fields.push ⟨owner, name, type⟩ }
  (extended.updateClass owner fun info => { info with fields := info.fields ++ [id] }, id)

/-- Adds a method with an empty body, neither static nor abstract, to a class. -/
def addMethod (owner : ClassId) (name : String) (params : List Ty) (result : Option Ty) :
    Program × MethodId :=
  let (interned, member) := program.addMember (program.signature name params)
  let id : MethodId := ⟨interned.methods.size⟩
  let method : Method := ⟨owner, name, member, params, result, false, false, []⟩
  let extended := { interned with methods := interned.methods.push method }
  (extended.updateClass owner fun info => { info with methods := info.methods ++ [id] }, id)

/-- Appends a statement to the body of a method. -/
def addStatement (id : MethodId) (statement : Statement) : Program :=
  program.updateMethod id fun method => { method with body := method.body ++ [statement] }

end Program

end CallFlow
