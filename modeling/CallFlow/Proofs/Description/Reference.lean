/-
**Which methods can be referred to.**

A call statement refers to a method by the text of its signature, and of this text every blank is
dropped. A declared method keeps the blanks inside its name and inside the names of its parameter
types. So a method is found under its own signature if there are none, and under no text if there
is one.

* `Description.Method.Plain`: there are no such blanks.
* `Description.member_eq_iff_plain`: a call that repeats the signature of a method mentions the
  member of the method exactly then, and then the search ends in the class of the method.
-/

import CallFlow.Proofs.Description.Mirror
import CallFlow.Proofs.Hierarchy.Walks
import CallFlow.Proofs.Program.TypeText

namespace CallFlow

namespace Description

/-! ### Signatures -/

/-- The signature of a method as its description spells it. -/
def Method.spelling (written : Method) : String :=
  written.name ++ "(" ++ ",".intercalate written.params ++ ")"

/-- The signature of a method as its program knows it. -/
def Method.signature (written : Method) : String :=
  written.name ++ "(" ++ ",".intercalate (written.params.map Text.typeText) ++ ")"

/-- No blank stands inside the name of a method or inside the texts of its parameter types. -/
structure Method.Plain (written : Method) : Prop where
  name : Text.BlankFree written.name
  params : ∀ param ∈ written.params, Text.BlankFree (Text.typeText param)

/-- The two signatures differ in blanks only. -/
theorem removeBlanks_spelling (written : Method) :
    Text.removeBlanks written.spelling = Text.removeBlanks written.signature := by
  have params : (written.params.map Text.typeText).map Text.removeBlanks =
      written.params.map Text.removeBlanks := by
    rw [List.map_map]
    exact List.map_congr_left fun param _ => Text.removeBlanks_typeText param
  unfold Method.spelling Method.signature
  simp only [Text.removeBlanks_append, Text.removeBlanks_intercalate, params]

theorem blankFree_signature {written : Method} :
    Text.BlankFree written.signature ↔ written.Plain := by
  have separators : Text.BlankFree "(" ∧ Text.BlankFree "," ∧ Text.BlankFree ")" := by
    decide +kernel
  unfold Method.signature
  simp only [Text.blankFree_append, Text.blankFree_intercalate separators.2.1, List.forall_mem_map]
  exact ⟨fun ⟨⟨⟨name, _⟩, params⟩, _⟩ => ⟨name, params⟩,
    fun plain => ⟨⟨⟨plain.name, separators.1⟩, plain.params⟩, separators.2.2⟩⟩

/-- A signature survives the loss of its blanks if it has none. -/
theorem removeBlanks_spelling_eq_iff {written : Method} :
    Text.removeBlanks written.spelling = written.signature ↔ written.Plain := by
  rw [removeBlanks_spelling, Text.removeBlanks_eq_self, blankFree_signature]

/-! ### Declared methods -/

section Declared

variable {description : Description} {program : Program}

/-- The member of a method is its signature. -/
theorem HeadMirrors.member (consistent : program.Consistent) {written : ClassId × Method}
    {id : MethodId} {method : CallFlow.Method} (isMethod : program.method? id = some method)
    (mirrors : HeadMirrors program written method) :
    program.member? method.member = some written.2.signature := by
  obtain ⟨inside, rfl⟩ := Array.getElem?_eq_some_iff.mp isMethod
  rw [(consistent.heads _ (Array.getElem_mem inside)).member, mirrors.name, mirrors.params]
  unfold Program.signature Method.signature
  rw [List.map_map]
  simp only [Function.comp_def, Program.typeName_typeNamed]

/-- Members with distinct signatures are distinct, and no others are. -/
theorem member_eq_iff (consistent : program.Consistent) {first second : MemberId}
    {firstText secondText : String} (isFirst : program.member? first = some firstText)
    (isSecond : program.member? second = some secondText) :
    first = second ↔ firstText = secondText := by
  constructor
  · rintro rfl
    exact Option.some.inj (isFirst.symm.trans isSecond)
  · rintro rfl
    rw [← Program.memberNamed?_eq_some_iff consistent.distinctMembers] at isFirst isSecond
    exact Option.some.inj (isFirst.symm.trans isSecond)

/-- The class with a name is the class that the description gives the name. -/
theorem Mirrors.classNamed (mirrors : Mirrors description program) (consistent : program.Consistent)
    {id : ClassId} {info : Class} (isClass : description.classes[id.index]? = some info) :
    program.classNamed? info.name = some id := by
  obtain ⟨found, isFound, same⟩ := (forall₂_toList_iff.mp mirrors.classes).2 id.index info isClass
  rw [Program.classNamed?_eq_some_iff consistent.distinctClasses, Program.class?, isFound]
  exact congrArg some same.name

/-- A class finds a method that it declares, or an earlier one with the same member. -/
theorem exists_declared (consistent : program.Consistent) {id : MethodId} {method : CallFlow.Method}
    (isMethod : program.method? id = some method) :
    ∃ found, program.declared? method.owner method.member = some found := by
  obtain ⟨inside, rfl⟩ := Array.getElem?_eq_some_iff.mp isMethod
  have among := Array.getElem_mem inside
  obtain ⟨info, isClass⟩ := Option.isSome_iff_exists.mp (consistent.heads _ among).owner
  have lists := consistent.methods _ info isClass
  have listed : id.index ∈ info.methods.map MethodId.index := by
    rw [lists.complete, List.getElem?_map, Array.getElem?_toList, Array.getElem?_eq_getElem inside]
    rfl
  obtain ⟨other, otherListed, same⟩ := List.mem_map.mp listed
  refine Option.isSome_iff_exists.mp ?_
  unfold Program.declared?
  rw [isClass, Option.bind_some, List.find?_isSome]
  refine ⟨other, otherListed, ?_⟩
  have isOther : program.method? other = program.method? id := by
    unfold Program.method?
    rw [same]
  rw [isOther, isMethod]
  simp

/-- The search for a member that a class declares ends in the class. -/
theorem nearest_of_declared {hierarchy : Hierarchy} {owner : ClassId} {member : MemberId}
    {found : MethodId} (declared : hierarchy.program.declared? owner member = some found) :
    hierarchy.nearest owner member = .ok (some found) := by
  obtain ⟨info, isClass⟩ := Program.exists_class_of_declared declared
  unfold Hierarchy.nearest Program.ascend Program.ascendWithin
  simp only [isClass, declared]

/-- A call statement of a body becomes a call of the class it names that mentions the text it gives,
without the blanks. -/
theorem Mirrors.call (mirrors : Mirrors description program) {site : Site}
    {caller : ClassId × Method} (isCaller : description.ownedMethods[site.method.index]? = some caller)
    {kind className text : String}
    (invokes : caller.2.body[site.index]? = some (.invoke kind className text)) :
    ∃ call, program.call? site = some call ∧
      program.classNamed? className = some call.target.owner ∧
      program.member? call.target.member = some (Text.removeBlanks text) := by
  obtain ⟨method, isMethod, same⟩ := (forall₂_toList_iff.mp mirrors.methods).2 _ caller isCaller
  have body : List.Forall₂ (Translates program) caller.2.body method.body.toArray.toList := same.body
  obtain ⟨statement, stands, translates⟩ := (forall₂_toList_iff.mp body).2 _ _ invokes
  rw [List.getElem?_toArray] at stands
  cases translates with
  | @invoke kind _ _ owner member named known =>
    refine ⟨⟨CallKind.ofName kind, ⟨owner, member⟩⟩, ?_, named, known⟩
    have isMethod : program.method? site.method = some method := isMethod
    rw [Program.call?, isMethod, Option.bind_some, stands]
    rfl

end Declared

/-! ### References -/

/-- **A method is referred to by its own signature exactly if no blank stands inside it.** Every call
statement that names the class of a method and spells its signature as the method does becomes a
call of this class. It mentions the member of the method if the signature is plain, and then the
search for the member ends in the class itself; otherwise it mentions another member. -/
theorem member_eq_iff_plain {text : String} {description : Description} {program : Program}
    (described : ofText text = .ok description) (loaded : Program.ofText text = .ok program)
    {owner : ClassId} {info : Class} (isClass : description.classes[owner.index]? = some info)
    {id : MethodId} {written : Method}
    (declares : description.ownedMethods[id.index]? = some (owner, written))
    {site : Site} {caller : ClassId × Method}
    (isCaller : description.ownedMethods[site.method.index]? = some caller) {kind : String}
    (invokes : caller.2.body[site.index]? = some (.invoke kind info.name written.spelling)) :
    ∃ method call, program.method? id = some method ∧ method.owner = owner ∧
      program.call? site = some call ∧ call.target.owner = owner ∧
      (call.target.member = method.member ↔ written.Plain) ∧
      (written.Plain → ∃ found, program.declared? owner call.target.member = some found ∧
        ∀ hierarchy, Hierarchy.of? program = some hierarchy →
          hierarchy.nearest owner call.target.member = .ok (some found)) := by
  obtain ⟨_, same, edits, mirrors⟩ := mirrors_of_ofText loaded
  obtain rfl := Except.ok.inj (described.symm.trans same)
  have consistent := edits.consistent
  obtain ⟨method, isMethod, head⟩ := (forall₂_toList_iff.mp mirrors.methods).2 _ _ declares
  obtain ⟨call, isCall, named, known⟩ := mirrors.call isCaller invokes
  have ownMember := head.member consistent isMethod
  have mentions : call.target.member = method.member ↔ written.Plain := by
    rw [member_eq_iff consistent known ownMember]
    exact removeBlanks_spelling_eq_iff
  refine ⟨method, call, isMethod, head.owner, isCall, ?_, mentions, fun plain => ?_⟩
  · rw [mirrors.classNamed consistent isClass] at named
    exact (Option.some.inj named).symm
  · obtain ⟨found, declared⟩ := exists_declared consistent isMethod
    rw [head.owner, ← mentions.mpr plain] at declared
    refine ⟨found, declared, fun hierarchy isHierarchy => nearest_of_declared ?_⟩
    rw [Hierarchy.program_of? isHierarchy]
    exact declared

/-! ### A box -/

/-- A method whose parameter type has blanks at its ends; it calls itself. -/
def boxGet : Method where
  name := "get"
  params := [" T "]
  body := [.invoke "special" "Box" "get( T )"]

/-- A method whose parameter type has a blank inside; it calls itself. -/
def boxPut : Method where
  name := "put"
  params := ["A B"]
  body := [.invoke "special" "Box" "put(A B)"]

/-- A class with the two methods. -/
def box : Description := { classes := [{ name := "Box", methods := [boxGet, boxPut] }] }

/-- The text of the box. -/
def boxText : String :=
  "\x7b\"classes\":[\x7b\"name\":\"Box\",\"methods\":[" ++
  "\x7b\"name\":\"get\",\"params\":[\" T \"]," ++
  "\"body\":[[\"invoke\",\"special\",\"Box\",\"get( T )\"]]\x7d," ++
  "\x7b\"name\":\"put\",\"params\":[\"A B\"]," ++
  "\"body\":[[\"invoke\",\"special\",\"Box\",\"put(A B)\"]]\x7d]\x7d]\x7d"

/-- The program of the box. -/
def boxProgram : Program where
  classes := #[{ name := "Box", methods := [⟨0⟩, ⟨1⟩] }]
  methods := #[
    { owner := ⟨0⟩, name := "get", member := ⟨0⟩, params := [.unknown "T"], result := none,
      body := [.invoke ⟨.special, ⟨0⟩, ⟨0⟩⟩] },
    { owner := ⟨0⟩, name := "put", member := ⟨1⟩, params := [.unknown "A B"], result := none,
      body := [.invoke ⟨.special, ⟨0⟩, ⟨2⟩⟩] }]
  members := #["get(T)", "put(A B)", "put(AB)"]

theorem ofText_boxText : ofText boxText = .ok box := by decide +kernel

theorem loaded_boxText : Program.ofText boxText = .ok boxProgram := by
  have resolved : box.resolve.toOption = some boxProgram := by decide +kernel
  refine ofText_eq_ok_iff.mpr ⟨box, ofText_boxText, ?_⟩
  cases outcome : box.resolve with
  | error fault => rw [outcome] at resolved; cases resolved
  | ok program =>
    rw [outcome] at resolved
    cases resolved
    rfl

/-- The method with blanks at the ends of its parameter type is found under its own signature. -/
theorem member_eq_iff_plain_box :
    ∃ method call, boxProgram.method? ⟨0⟩ = some method ∧ boxProgram.call? ⟨⟨0⟩, 0⟩ = some call ∧
      call.target.member = method.member ∧
      ∃ found, boxProgram.declared? ⟨0⟩ call.target.member = some found := by
  have plain : boxGet.Plain := by
    refine ⟨by decide +kernel, fun param among => ?_⟩
    rw [List.mem_singleton.mp among]
    decide +kernel
  have isClass : box.classes[(ClassId.mk 0).index]? =
      some { name := "Box", methods := [boxGet, boxPut] } := rfl
  have declares : box.ownedMethods[(MethodId.mk 0).index]? = some (⟨0⟩, boxGet) := rfl
  have isCaller : box.ownedMethods[(Site.mk ⟨0⟩ 0).method.index]? = some (⟨0⟩, boxGet) := rfl
  obtain ⟨method, call, isMethod, _, isCall, _, mentions, finds⟩ := member_eq_iff_plain ofText_boxText
    loaded_boxText isClass declares isCaller rfl
  obtain ⟨found, declared, _⟩ := finds plain
  exact ⟨method, call, isMethod, isCall, mentions.mpr plain, found, declared⟩

/-- The method with a blank inside its parameter type is not found under its own signature. -/
theorem member_ne_box :
    ofText boxText = .ok box ∧ Program.ofText boxText = .ok boxProgram ∧
      box.ownedMethods[1]? = some (⟨0⟩, boxPut) ∧
      boxPut.body[0]? = some (.invoke "special" "Box" boxPut.spelling) ∧
      (boxProgram.method? ⟨1⟩).map CallFlow.Method.member = some ⟨1⟩ ∧
      boxProgram.call? ⟨⟨1⟩, 0⟩ = some ⟨.special, ⟨0⟩, ⟨2⟩⟩ ∧
      boxProgram.declared? ⟨0⟩ ⟨2⟩ = none :=
  ⟨ofText_boxText, loaded_boxText, rfl, rfl, rfl, rfl, rfl⟩

end Description

end CallFlow
