/-
**Programs with indexes of their names.**

So that a class need not be searched by its name, nor a member signature by its text, two indexes keep
the identifiers that were handed out for them. An index is entered when something is added, and is what
decides whether a name is known; the tables are only read by identifier.

* `IndexedProgram.classNamed?`, `IndexedProgram.memberNamed?`: what the indexes hold for a name.
* `IndexedProgram.perform`, `IndexedProgram.performAll`: the operations, with their indexes.
-/

import CallFlow.Program.Operation

namespace CallFlow

/-- A program with an index of its class names and one of its member signatures, the latest entries
first. -/
structure IndexedProgram where
  program : Program := {}
  classIndex : List (String × ClassId) := []
  memberIndex : List (String × MemberId) := []
  deriving Inhabited

namespace IndexedProgram

variable (indexed : IndexedProgram)

/-- The class that the index holds for a name. -/
def classNamed? (name : String) : Option ClassId := indexed.classIndex.lookup name

/-- The member signature that the index holds for a text. -/
def memberNamed? (text : String) : Option MemberId := indexed.memberIndex.lookup text

/-- Adds a concrete class without supertypes, unless the index knows the name. -/
def addClass (name : String) : IndexedProgram × ClassId :=
  match indexed.classNamed? name with
  | some id => (indexed, id)
  | none =>
    let id : ClassId := ⟨indexed.program.classes.size⟩
    ({ indexed with
        classIndex := (name, id) :: indexed.classIndex
        program := { indexed.program with
          classes := indexed.program.classes.push ⟨name, none, [], false, false, [], []⟩ } }, id)

/-- Adds a member signature, unless the index knows it. -/
def addMember (text : String) : IndexedProgram × MemberId :=
  match indexed.memberNamed? text with
  | some id => (indexed, id)
  | none =>
    let id : MemberId := ⟨indexed.program.members.size⟩
    ({ indexed with
        memberIndex := (text, id) :: indexed.memberIndex
        program := { indexed.program with members := indexed.program.members.push text } }, id)

/-- Adds a method with an empty body, neither static nor abstract, to a class. Its signature is looked up
in the index. -/
def addMethod (owner : ClassId) (name : String) (params : List Ty) (result : Option Ty) :
    IndexedProgram × MethodId :=
  let (interned, member) := indexed.addMember (indexed.program.signature name params)
  let id : MethodId := ⟨interned.program.methods.size⟩
  let method : Method := ⟨owner, name, member, params, result, false, false, []⟩
  let extended := { interned.program with methods := interned.program.methods.push method }
  ({ interned with
      program := extended.updateClass owner fun info => { info with methods := info.methods ++ [id] } },
    id)

/-- The indexed program after an operation, unless the operation fails, and what is handed out. Only
classes and member signatures are entered into an index. -/
def perform : Operation → Option (IndexedProgram × Handed)
  | .addClass name =>
    let (next, id) := indexed.addClass name
    some (next, .classId id)
  | .addMember text =>
    let (next, id) := indexed.addMember text
    some (next, .memberId id)
  | .addMethod owner name params result =>
    if (indexed.program.class? owner).isSome && params.all indexed.program.hasType then
      let (next, id) := indexed.addMethod owner name params result
      some (next, .methodId id)
    else none
  | operation => (indexed.program.perform operation).map fun (program, handed) =>
      ({ indexed with program }, handed)

/-- The indexed program after a sequence of operations. -/
def performAll : List Operation → Option (IndexedProgram × List Handed) :=
  performEach perform indexed

end IndexedProgram

end CallFlow
