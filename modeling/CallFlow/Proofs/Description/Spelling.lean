/-
**The spelling of a description does not matter.**

The same description may be written in many ways: with other blanks and escapes, with the members of the
objects in another order, with or without what has its default, and with a list in the place of an object.
All these texts are read alike, so that they have the same program or the same error.

* `Description.StatementText`, `Description.MethodText`, `Description.ClassText`,
  `Description.DescriptionText`: what may be written for a part of a description.
* `Description.SpelledBy`: a text is written for a description.
* `Description.DescriptionText.reads`: the reader gives the description back.
* `Description.ofText_spelled`: the spelling does not matter.
-/

import CallFlow.Description.Load
import CallFlow.Proofs.Json.RecordSpelling

namespace CallFlow

namespace Description

open Json

/-! ### Statements -/

namespace Statement

/-- The operation of a statement. -/
def operation : Statement → Operation
  | .new _ => .new
  | .newArray _ => .newArray
  | .store _ => .store
  | .load _ => .load
  | .invoke _ _ _ => .invoke
  | .other => .other

/-- The operands of a statement, in the order of their names. -/
def operands : Statement → List String
  | .new className => [className]
  | .newArray element => [element]
  | .store field | .load field => [field]
  | .invoke kind className method => [kind, className, method]
  | .other => []

/-- The members of a statement: the operation and the operands by name. -/
def members (statement : Statement) : List (String × String) :=
  ("op", statement.operation.name) :: statement.operation.operands.zip statement.operands

end Statement

/-- A statement as an object, with its members in any order. -/
inductive StatementText (statement : Statement) (chars : List Char) : Prop where
  | mk {members : List (String × String)} (order : members.Perm statement.members)
      (written : Enclosed (fun member => MemberText (StringText member.2) member.1) '\x7b' '\x7d' members
        chars)

/-- A string is read as a value of any shape, too. -/
theorem loose_string {text : String} {chars : List Char} (written : StringText text chars) (depth : Nat) :
    Reads (loose depth) (some text) chars := by
  obtain ⟨more, quotes⟩ := written.quoted
  have looseWith_string (list object : Reader Unit) (rest : List Char) :
      looseWith list object (chars ++ rest) = .ok (some text, rest) := by
    unfold looseWith
    rw [bind_eq (next?_eq (quotes rest).1)]
    simp only [if_true]
    rw [bind_eq (quotes rest).2]
    rfl
  cases depth with
  | zero =>
    exact ⟨written.reads.begins, fun rest => skips_next _ rest, fun rest => looseWith_string _ _ rest⟩
  | succ depth =>
    exact ⟨written.reads.begins, fun rest => skips_next _ rest, fun rest => looseWith_string _ _ rest⟩

theorem operation_named {operation : Operation} {chars : List Char}
    (written : StringText operation.name chars) (rest : List Char) :
    Description.operation (chars ++ rest) = .ok (operation, rest) := by
  have named : Operation.named? operation.name = some operation := by cases operation <;> rfl
  unfold Description.operation
  rw [bind_eq (written.reads.read rest), named]
  rfl

/-- What is found of a statement: the operation, if it is among the members or was found before, and the
other members. -/
theorem membersWithin_eq (depth : Nat) {isFirst : Bool} {operation : Operation}
    {members : List (String × String)} {chars closes : List Char}
    (written : Items (fun member => MemberText (StringText member.2) member.1) isFirst members chars)
    (closed : Token ['\x7d'] closes) {rounds : Rounds} (enough : members.length < rounds.length)
    (once : (members.map Prod.fst).Nodup) (operations : ∀ name, ("op", name) ∈ members → name = operation.name)
    (found : Option Operation) (unfound : "op" ∈ members.map Prod.fst → found = none) (rest : List Char) :
    membersWithin depth rounds isFirst found (chars ++ (closes ++ rest)) =
      .ok ((if "op" ∈ members.map Prod.fst then some operation else found,
        (members.filter fun member => member.1 ≠ "op").map fun member => (member.1, some member.2)),
        '\x7d' :: rest) := by
  -- By induction on the members. `found` is what was read before them, so that the operation may stand
  -- anywhere.
  induction written generalizing rounds found with
  | nil first =>
    cases rounds with
    | nil => cases enough
    | cons =>
      unfold membersWithin
      rw [List.nil_append, bind_eq (moreMembers_end closed first rest)]
      rfl
  | @cons _ member members before chars others separated written _ hyp =>
    cases rounds with
    | nil => cases enough
    | cons round rounds =>
      obtain ⟨name, value⟩ := member
      obtain ⟨more, separator, content, written, begins, named, colon⟩ := written.parts
      obtain ⟨fresh, distinct⟩ := List.nodup_cons.mp once
      have fewer := Nat.lt_of_succ_lt_succ enough
      have operationsLater name (among : ("op", name) ∈ members) : name = operation.name :=
        operations name (List.mem_cons_of_mem _ among)
      unfold membersWithin
      rw [List.append_assoc, List.append_assoc, bind_eq (moreMembers_item separated (begins _)),
        if_pos rfl, bind_eq (named _)]
      by_cases isOperation : name = "op"
      · subst isOperation
        obtain rfl := unfound List.mem_cons_self
        obtain rfl := operations value List.mem_cons_self
        have later := hyp fewer distinct operationsLater (some operation) fun among => absurd among fresh
        rw [if_pos rfl, Option.isSome_none, if_neg Bool.false_ne_true, bind_eq (colon _),
          bind_eq (operation_named written _), later, if_neg fresh, List.map_cons,
          if_pos List.mem_cons_self, List.filter_cons_of_neg (by simp)]
      · have later := hyp fewer distinct operationsLater found fun among =>
          unfound (List.mem_cons_of_mem _ among)
        have read := (loose_string written depth).read (others ++ (closes ++ rest))
        have sameFound : "op" ∈ ((name, value) :: members).map Prod.fst ↔ "op" ∈ members.map Prod.fst := by
          simp [Ne.symm isOperation]
        rw [if_neg isOperation, bind_eq (colon _), bind_eq read, bind_eq later, if_congr sameFound rfl rfl,
          List.filter_cons_of_pos (by simpa using isOperation)]
        rfl

/-- The value of an operand that stands once among the members. -/
theorem operand?_of_mem {members : List (String × Option String)} {name value : String}
    (once : (members.map Prod.fst).Nodup) (among : (name, some value) ∈ members) :
    operand? members name = some value := by
  have only : members.filter (fun member => member.1 = name) = [(name, some value)] := by
    induction members with
    | nil => cases among
    | cons first rest hyp =>
      obtain ⟨fresh, distinct⟩ := List.nodup_cons.mp once
      rcases List.mem_cons.mp among with rfl | later
      · have none_later : rest.filter (fun member => member.1 = name) = [] := by
          rw [List.filter_eq_nil_iff]
          intro member among same
          have named : member.1 ∈ rest.map Prod.fst := List.mem_map_of_mem among
          exact fresh (of_decide_eq_true same ▸ named)
        rw [List.filter_cons_of_pos (by simp), none_later]
      · have different : first.1 ≠ name := fun same => fresh (same ▸ List.mem_map_of_mem later)
        rw [List.filter_cons_of_neg (by simpa using different), hyp distinct later]
  unfold operand?
  rw [only]

/-- What is asked for by name is given in the order of the names. -/
theorem mapM_eq_some_of_zip {ask : String → Option String} {names values : List String}
    (sizes : names.length = values.length)
    (answers : ∀ pair ∈ names.zip values, ask pair.1 = some pair.2) : names.mapM ask = some values := by
  induction names generalizing values with
  | nil =>
    rw [List.length_eq_zero_iff.mp sizes.symm]
    rfl
  | cons name names hyp =>
    cases values with
    | nil => cases sizes
    | cons value values =>
      rw [List.zip_cons_cons, List.forall_mem_cons] at answers
      rw [List.mapM_cons, answers.1, hyp (Nat.succ.inj sizes) answers.2]
      rfl

namespace Statement

variable (statement : Statement)

theorem map_fst_members : statement.members.map Prod.fst = "op" :: statement.operation.operands := by
  cases statement <;> rfl

theorem nodup_members : (statement.members.map Prod.fst).Nodup := by
  rw [map_fst_members]
  cases statement.operation <;> decide

theorem operation_of_mem {name : String} (among : ("op", name) ∈ statement.members) :
    name = statement.operation.name := by
  rcases List.mem_cons.mp among with same | operand
  · exact congrArg Prod.snd same
  · have fresh := (List.nodup_cons.mp statement.nodup_members).1
    exact absurd (List.mem_map_of_mem operand) fresh

theorem withOperands?_eq : statement.operation.withOperands? statement.operands = some statement := by
  cases statement <;> rfl

/-- A statement is made of its members without the operation, in whatever order they stand. -/
theorem ofMembers?_eq {members : List (String × String)} (order : members.Perm statement.members) :
    ofMembers? statement.operation
      ((members.filter fun member => member.1 ≠ "op").map fun member => (member.1, some member.2)) =
        some statement := by
  have sizes : statement.operation.operands.length = statement.operands.length := by
    cases statement <;> rfl
  have once : (((members.filter fun member => member.1 ≠ "op").map fun member =>
      (member.1, some member.2)).map Prod.fst).Nodup := by
    rw [List.map_map]
    exact (((order.map Prod.fst).nodup_iff.mpr statement.nodup_members).sublist
      (List.filter_sublist.map Prod.fst))
  have answers := mapM_eq_some_of_zip sizes fun pair among => by
    have fresh := (List.nodup_cons.mp statement.nodup_members).1
    have named : pair.1 ∈ (statement.operation.operands.zip statement.operands).map Prod.fst :=
      List.mem_map_of_mem among
    have notOperation : pair.1 ≠ "op" := fun same => fresh (same ▸ named)
    have stands : pair ∈ members := order.mem_iff.mpr (List.mem_cons_of_mem _ among)
    exact operand?_of_mem once (List.mem_map.mpr
      ⟨pair, List.mem_filter.mpr ⟨stands, decide_eq_true notOperation⟩, rfl⟩)
  unfold ofMembers?
  rw [answers, Option.bind_some, withOperands?_eq]

end Statement

/-- **A statement is read from whatever is written for it.** -/
theorem StatementText.reads {statement : Statement} {chars : List Char}
    (written : StatementText statement chars) (depth : Nat) :
    Reads (Description.statement (depth + 1)) statement chars := by
  cases written with
  | @mk members order written =>
    refine written.reads rfl (by decide) (fun rest => skips_next _ rest)
      fun inner closes rest listed closed => ?_
    have enough := listed.length_lt (fun _ _ written => MemberText.ne_nil written) closed rest
    have once := (order.map Prod.fst).nodup_iff.mpr statement.nodup_members
    have operations name (among : ("op", name) ∈ members) : name = statement.operation.name :=
      statement.operation_of_mem (order.mem_iff.mp among)
    have isOperation : "op" ∈ members.map Prod.fst :=
      (order.map Prod.fst).mem_iff.mpr List.mem_cons_self
    have found := membersWithin_eq depth listed closed enough once operations none (fun _ => rfl) rest
    rw [if_pos isOperation] at found
    unfold Description.statement
    rw [bind_eq (next?_visible rfl _)]
    simp only
    rw [inside_succ, rounds_bind, bind_eq found]
    simp only
    rw [bind_eq (close_eq rfl rest), statement.ofMembers?_eq order]
    rfl

/-! ### Records -/

/-- The value of a field of a field record. -/
def Field.value (field : Field) : FieldKey → String
  | .name => field.name
  | .type => field.type

/-- A field, as an object or as a list; nothing may be left out. -/
def FieldText (field : Field) : List Char → Prop :=
  fieldLayout.RecordText (fun _ => StringText) (fun _ => none) field.value

/-- The value of a field of a method record. -/
def Method.value (method : Method) : (key : MethodKey) → key.Value
  | .name => method.name
  | .params => method.params
  | .result => method.result
  | .isStatic => method.isStatic
  | .isAbstract => method.isAbstract
  | .body => method.body

/-- What a field of a method record means if it is left out. -/
def MethodKey.default? : (key : MethodKey) → Option key.Value
  | .name => none
  | .params => some []
  | .result => some none
  | .isStatic | .isAbstract => some false
  | .body => some []

/-- What may be written for a value of a method record. -/
def MethodKey.Text : (key : MethodKey) → key.Value → List Char → Prop
  | .name => StringText
  | .params => ListText StringText
  | .result => OptionalText
  | .isStatic | .isAbstract => BooleanText
  | .body => ListText StatementText

/-- A method, as an object or as a list. -/
def MethodText (method : Method) : List Char → Prop :=
  methodLayout.RecordText MethodKey.Text MethodKey.default? method.value

/-- The value of a field of a class record. -/
def Class.value (info : Class) : (key : ClassKey) → key.Value
  | .name => info.name
  | .superclass => info.superclass
  | .interfaces => info.interfaces
  | .isAbstract => info.isAbstract
  | .isInterface => info.isInterface
  | .fields => info.fields
  | .methods => info.methods

/-- What a field of a class record means if it is left out. -/
def ClassKey.default? : (key : ClassKey) → Option key.Value
  | .name => none
  | .superclass => some none
  | .interfaces => some []
  | .isAbstract | .isInterface => some false
  | .fields => some []
  | .methods => some []

/-- What may be written for a value of a class record. -/
def ClassKey.Text : (key : ClassKey) → key.Value → List Char → Prop
  | .name => StringText
  | .superclass => OptionalText
  | .interfaces => ListText StringText
  | .isAbstract | .isInterface => BooleanText
  | .fields => ListText FieldText
  | .methods => ListText MethodText

/-- A class, as an object or as a list. -/
def ClassText (info : Class) : List Char → Prop :=
  classLayout.RecordText ClassKey.Text ClassKey.default? info.value

/-- The value of a field of a program record. -/
def value (description : Description) : (key : ProgramKey) → key.Value
  | .entry => description.entry
  | .classes => description.classes

/-- What a field of a program record means if it is left out. -/
def ProgramKey.default? : (key : ProgramKey) → Option key.Value
  | .entry => some none
  | .classes => none

/-- What may be written for a value of a program record. -/
def ProgramKey.Text : (key : ProgramKey) → key.Value → List Char → Prop
  | .entry => OptionalText
  | .classes => ListText ClassText

/-- A description, as an object or as a list. -/
def DescriptionText (description : Description) : List Char → Prop :=
  programLayout.RecordText ProgramKey.Text ProgramKey.default? description.value

/-- A text is written for a description, with blanks behind it. -/
inductive SpelledBy (description : Description) (text : String) : Prop where
  | mk {chars blanks : List Char} (written : DescriptionText description chars) (blank : Blanks blanks)
      (whole : text.toList = chars ++ blanks)

/-! ### Reading records -/

/-- Without a default the value is found. -/
theorem eq_of_or_none {α : Type} {found : Option α} {value : α} (same : found.or none = some value) :
    found = some value :=
  Option.or_none.symm.trans same

/-- What is found, or else the default, is the value. -/
theorem getD_of_or {α : Type} {found : Option α} {default value : α}
    (same : found.or (some default) = some value) : found.getD default = value := by
  cases found <;> exact Option.some.inj same

theorem FieldText.reads {field : Field} {chars : List Char} (written : FieldText field chars) (depth : Nat) :
    Reads (fieldLayout.record fieldOf (depth + 1)) field chars := by
  have readsFields : fieldLayout.ReadsFields (fun _ => StringText) depth := by
    refine ⟨fun key => ?_, fun key value chars written => written.reads⟩
    cases key <;> rfl
  refine Layout.RecordText.reads readsFields (fun draft found => ?_) written
  have name : draft FieldKey.name = some field.name := eq_of_or_none (found FieldKey.name)
  have type : draft FieldKey.type = some field.type := eq_of_or_none (found FieldKey.type)
  unfold fieldOf
  rw [name, type]
  rfl

theorem MethodText.reads {method : Method} {chars : List Char} (written : MethodText method chars)
    (depth : Nat) : Reads (methodLayout.record methodOf (depth + 3)) method chars := by
  have readsFields : methodLayout.ReadsFields MethodKey.Text (depth + 2) := by
    refine ⟨fun key => ?_, fun key value chars written => ?_⟩
    · cases key <;> rfl
    · cases key with
      | name => exact StringText.reads written
      | params => exact ListText.reads (fun _ _ written => StringText.reads written) written
      | result => exact OptionalText.reads written
      | isStatic | isAbstract => exact BooleanText.reads written
      | body => exact ListText.reads (fun _ _ written => StatementText.reads written depth) written
  refine Layout.RecordText.reads readsFields (fun draft found => ?_) written
  have name : draft MethodKey.name = some method.name := eq_of_or_none (found MethodKey.name)
  unfold methodOf
  rw [name, getD_of_or (found .params), getD_of_or (found .result), getD_of_or (found .isStatic),
    getD_of_or (found .isAbstract), getD_of_or (found .body)]
  rfl

theorem ClassText.reads {info : Class} {chars : List Char} (written : ClassText info chars)
    (depth : Nat) : Reads (classLayout.record classOf (depth + 5)) info chars := by
  have readsFields : classLayout.ReadsFields ClassKey.Text (depth + 4) := by
    refine ⟨fun key => ?_, fun key value chars written => ?_⟩
    · cases key <;> rfl
    · cases key with
      | name => exact StringText.reads written
      | superclass => exact OptionalText.reads written
      | interfaces => exact ListText.reads (fun _ _ written => StringText.reads written) written
      | isAbstract | isInterface => exact BooleanText.reads written
      | fields => exact ListText.reads (fun _ _ written => FieldText.reads written (depth + 2)) written
      | methods => exact ListText.reads (fun _ _ written => MethodText.reads written depth) written
  refine Layout.RecordText.reads readsFields (fun draft found => ?_) written
  have name : draft ClassKey.name = some info.name := eq_of_or_none (found ClassKey.name)
  unfold classOf
  rw [name, getD_of_or (found .superclass), getD_of_or (found .interfaces),
    getD_of_or (found .isAbstract), getD_of_or (found .isInterface), getD_of_or (found .fields),
    getD_of_or (found .methods)]
  rfl

/-- **A description is read from whatever is written for it.** -/
theorem DescriptionText.reads {description : Description} {chars : List Char}
    (written : DescriptionText description chars) (depth : Nat) :
    Reads (programLayout.record programOf (depth + 7)) description chars := by
  have readsFields : programLayout.ReadsFields ProgramKey.Text (depth + 6) := by
    refine ⟨fun key => ?_, fun key value chars written => ?_⟩
    · cases key <;> rfl
    · cases key with
      | entry => exact OptionalText.reads written
      | classes => exact ListText.reads (fun _ _ written => ClassText.reads written depth) written
  refine Layout.RecordText.reads readsFields (fun draft found => ?_) written
  have classes : draft ProgramKey.classes = some description.classes :=
    eq_of_or_none (found ProgramKey.classes)
  unfold programOf
  rw [classes, getD_of_or (found .entry)]
  rfl

/-! ### Everything can be written -/

theorem exists_statementText (statement : Statement) : ∃ chars, StatementText statement chars := by
  have members : ∀ member ∈ statement.members, ∃ chars,
      MemberText (StringText member.2) member.1 chars := fun member _ =>
    ⟨_, .mk (stringText_quote _) (token_self _) (stringText_quote _)⟩
  obtain ⟨chars, written⟩ := exists_enclosed '\x7b' '\x7d' members
  exact ⟨chars, .mk (.refl _) written⟩

theorem exists_strings (texts : List String) : ∃ chars, ListText StringText texts chars :=
  exists_enclosed '[' ']' fun text _ => ⟨_, stringText_quote text⟩

theorem exists_fieldText (field : Field) : ∃ chars, FieldText field chars :=
  Layout.exists_recordText fun _ => ⟨_, stringText_quote _⟩

theorem exists_methodText (method : Method) : ∃ chars, MethodText method chars := by
  refine Layout.exists_recordText fun key => ?_
  cases key with
  | name => exact ⟨_, stringText_quote _⟩
  | params => exact exists_strings method.params
  | result => exact exists_optionalText method.result
  | isStatic => exact exists_booleanText method.isStatic
  | isAbstract => exact exists_booleanText method.isAbstract
  | body => exact exists_enclosed '[' ']' fun statement _ => exists_statementText statement

theorem exists_classText (info : Class) : ∃ chars, ClassText info chars := by
  refine Layout.exists_recordText fun key => ?_
  cases key with
  | name => exact ⟨_, stringText_quote _⟩
  | superclass => exact exists_optionalText info.superclass
  | interfaces => exact exists_strings info.interfaces
  | isAbstract => exact exists_booleanText info.isAbstract
  | isInterface => exact exists_booleanText info.isInterface
  | fields => exact exists_enclosed '[' ']' fun field _ => exists_fieldText field
  | methods => exact exists_enclosed '[' ']' fun method _ => exists_methodText method

/-- **Every description can be written.** -/
theorem exists_spelledBy (description : Description) : ∃ text, description.SpelledBy text := by
  obtain ⟨chars, written⟩ : ∃ chars, DescriptionText description chars := by
    refine Layout.exists_recordText fun key => ?_
    cases key with
    | entry => exact exists_optionalText description.entry
    | classes => exact exists_enclosed '[' ']' fun info _ => exists_classText info
  refine ⟨String.ofList chars, .mk written (fun _ absent => absurd absent List.not_mem_nil) ?_⟩
  rw [String.toList_ofList, List.append_nil]

/-! ### The whole -/

theorem SpelledBy.ofText {description : Description} {text : String} (written : description.SpelledBy text) :
    Description.ofText text = .ok description := by
  cases written with
  | @mk chars blanks written blank whole =>
    -- A description is nested seven deep, far from the limit.
    have read : programLayout.record programOf depthLimit (chars ++ blanks) = .ok (description, blanks) :=
      (DescriptionText.reads written 120).read blanks
    have ends : next? blanks = .ok (none, []) := by
      have skipped := dropWhile_blanks blank []
      rw [List.append_nil] at skipped
      unfold next?
      rw [skipped]
      rfl
    have run : program text.toList = .ok (description, []) := by
      rw [whole]
      unfold program
      rw [bind_eq read, bind_eq ends]
      rfl
    show (program text.toList).map Prod.fst = _
    rw [run]
    rfl

/-- **The spelling of a description does not matter.** There is a text for every description, and from
each of them it is read back. So any two of its texts have the same program or the same error, which are
those of the description. -/
theorem ofText_spelled (description : Description) :
    (∃ text, description.SpelledBy text) ∧ ∀ text, description.SpelledBy text →
      ofText text = .ok description ∧ Program.ofText text = description.resolve.mapError .load ∧
      ∀ other, description.SpelledBy other → Program.ofText other = Program.ofText text := by
  have loaded {text : String} (written : description.SpelledBy text) :
      Program.ofText text = description.resolve.mapError .load :=
    Program.ofText_of_described written.ofText
  exact ⟨exists_spelledBy description, fun text written =>
    ⟨written.ofText, loaded written, fun other others => (loaded others).trans (loaded written).symm⟩⟩

/-- A method that makes a shape. -/
def makeShape : Method where
  name := "make"
  body := [.new "Shape"]

/-- A class with a method that makes one of its objects. -/
def shapeClass : Class where
  name := "Shape"
  methods := [makeShape]

/-- A description of shapes alone. -/
def shape : Description where
  classes := [shapeClass]

/-- The shape with its name last and spelled with escapes, its method as a list, and a statement whose
operation stands last. -/
def shapeText : String :=
  " \x7b\"classes\" :[\x7b\"methods\":[[\"make\",[],null,false,false,[" ++
  "\x7b\"class\":\"Sh\\u0061pe\",\"op\":\"new\"\x7d]]],\"n\\u0061me\":\"Shape\"\x7d]\x7d\n"

theorem escaped_a : Spells 'a' ['\\', 'u', '0', '0', '6', '1'] :=
  .unit (by decide) (.mk (.inl rfl) (.inl rfl) (.inl rfl) (.inl rfl) :
    HexUnit (((0 * 16 + 0) * 16 + 6) * 16 + 1) ['0', '0', '6', '1'])

/-- Characters that need no escape. -/
theorem characters_plain {chars : List Char}
    (plain : ∀ char ∈ chars, 0x20 ≤ char.toNat ∧ char ≠ '"' ∧ char ≠ '\\') : Characters chars chars := by
  induction chars with
  | nil => exact .nil
  | cons char rest hyp =>
    rw [List.forall_mem_cons] at plain
    obtain ⟨⟨printable, noQuote, noBackslash⟩, plain⟩ := plain
    exact .cons (.plain printable noQuote noBackslash) (hyp plain)

theorem name_escaped : StringText "name" "\"n\\u0061me\"".toList := by
  have last : Characters ['m', 'e'] ['m', 'e'] := characters_plain (by simp)
  have characters : Characters ['n', 'a', 'm', 'e'] _ :=
    .cons (.plain (by decide) (by decide) (by decide)) (.cons escaped_a last)
  exact .mk characters (token_self _)

theorem shape_escaped : StringText "Shape" "\"Sh\\u0061pe\"".toList := by
  have last : Characters ['p', 'e'] ['p', 'e'] := characters_plain (by simp)
  have characters : Characters ['S', 'h', 'a', 'p', 'e'] _ :=
    .cons (.plain (by decide) (by decide) (by decide))
      (.cons (.plain (by decide) (by decide) (by decide)) (.cons escaped_a last))
  exact .mk characters (token_self _)

theorem shape_spelledBy : shape.SpelledBy shapeText := by
  have colon := token_self [':']
  have comma : Separator false [','] := .further (token_self [','])
  have statement : StatementText (.new "Shape") _ := .mk (.swap _ _ _)
    (.mk (token_self ['\x7b'])
      (.cons .first (.mk (stringText_quote "class") colon shape_escaped)
        (.cons comma (.mk (stringText_quote "op") colon (stringText_quote "new")) (.nil false)))
      (token_self ['\x7d']))
  have method : MethodText makeShape _ := .array
    (.mk (token_self ['['])
      (.cons .first (stringText_quote "make")
        (.cons comma (.mk (token_self ['[']) (.nil true) (token_self [']']))
        (.cons comma (token_self _)
        (.cons comma (token_self _)
        (.cons comma (token_self _)
        (.cons comma (.mk (token_self ['[']) (.cons .first statement (.nil false)) (token_self [']']))
        (.nil false)))))))
      (token_self [']']))
  have methods : ListText MethodText [makeShape] _ :=
    .mk (token_self ['[']) (.cons .first method (.nil false)) (token_self [']'])
  have omitted (key : ClassKey) (absent : key ∉ [ClassKey.methods, ClassKey.name]) :
      key.default? = some (shapeClass.value key) := by
    cases key <;> first | rfl | exact absurd (by decide) absent
  have info : ClassText shapeClass _ :=
    .object (.mk (by decide : [ClassKey.methods, ClassKey.name].Nodup) omitted
      (.mk (token_self ['\x7b'])
        (.cons .first (.mk (stringText_quote "methods") colon methods)
          (.cons comma (.mk name_escaped colon (stringText_quote "Shape")) (.nil false)))
        (token_self ['\x7d'])))
  have blank (char : Char) (isBlank : char = ' ' ∨ char = '\t' ∨ char = '\n' ∨ char = '\r') : Blanks [char] :=
    fun other among => List.mem_singleton.mp among ▸ isBlank
  have omitted (key : ProgramKey) (absent : key ∉ [ProgramKey.classes]) :
      key.default? = some (shape.value key) := by
    cases key <;> first | rfl | exact absurd (by decide) absent
  have written : DescriptionText shape _ :=
    .object (.mk (by decide : [ProgramKey.classes].Nodup) omitted
      (.mk (.mk (blank ' ' (by decide)))
        (.cons .first (.mk (stringText_quote "classes") (.mk (blank ' ' (by decide)))
          (.mk (token_self ['[']) (.cons .first info (.nil false)) (token_self [']']))) (.nil false))
        (token_self ['\x7d'])))
  exact .mk written (blank '\n' (by decide)) (by decide +kernel)

/-- The shape is read from its unusual text. -/
theorem ofText_spelled_shape :
    ofText shapeText = .ok shape ∧ Program.ofText shapeText = shape.resolve.mapError .load := by
  obtain ⟨read, loaded, _⟩ := (ofText_spelled shape).2 shapeText shape_spelledBy
  exact ⟨read, loaded⟩

end Description

end CallFlow
