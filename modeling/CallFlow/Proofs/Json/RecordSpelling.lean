/-
**How JSON records may be written.**

A record is written as an object, with its fields in any order and without those that have their default,
or as the list of all its fields in order.

* `Json.Layout.ObjectText`, `Json.Layout.RecordText`: what may be written for a record.
* `Json.Layout.RecordText.reads`: the reader of a record gives it back.
-/

import CallFlow.Json.Record
import CallFlow.Proofs.Json.Spelling

namespace CallFlow.Json

/-! ### Objects -/

/-- A member of an object: its name, a colon and what is written for its value. -/
inductive MemberText (value : List Char → Prop) (name : String) : List Char → Prop where
  | mk {quotes colon chars : List Char} (named : StringText name quotes) (separated : Token [':'] colon)
      (written : value chars) : MemberText value name (quotes ++ (colon ++ chars))

/-- A member is read in three parts: its name, the colon and its value. -/
theorem MemberText.parts {value : List Char → Prop} {name : String} {chars : List Char}
    (written : MemberText value name chars) : ∃ more separator content, value content ∧
      (∀ rest, (chars ++ rest).dropWhile isSpace = '"' :: (more ++ (separator ++ (content ++ rest)))) ∧
      (∀ rest, quoted ('"' :: (more ++ rest)) = .ok (name, rest)) ∧
      ∀ rest, colon (separator ++ rest) = .ok ((), rest) := by
  cases written with
  | @mk quotes separator content named separated written =>
    obtain ⟨more, quotes⟩ := named.quoted
    refine ⟨more, separator, content, written, fun rest => ?_, fun rest => (quotes rest).2,
      close_token separated rfl⟩
    rw [List.append_assoc, List.append_assoc, (quotes _).1]

theorem MemberText.ne_nil {value : List Char → Prop} {name : String} {chars : List Char}
    (written : MemberText value name chars) : chars ≠ [] := by
  rintro rfl
  obtain ⟨_, _, _, _, begins, _⟩ := written.parts
  cases begins []

theorem moreMembers_item {isFirst : Bool} {before chars rest : List Char}
    (separated : Separator isFirst before) (begins : chars.dropWhile isSpace = '"' :: rest) :
    moreMembers isFirst (before ++ chars) = .ok (true, '"' :: rest) := by
  unfold moreMembers
  cases separated with
  | first =>
    rw [List.nil_append, bind_eq (next?_eq begins)]
    rfl
  | further token =>
    have taken : take (',' :: ([] ++ chars)) = .ok ((), chars) := rfl
    have goesOn : ',' ≠ '\x7d' := by decide
    rw [bind_eq (next?_eq (token.dropWhile rfl chars))]
    simp only [Bool.false_eq_true, if_false, if_true]
    rw [bind_eq taken, bind_eq (next?_eq begins)]
    rfl

theorem moreMembers_end {closes : List Char} (closed : Token ['\x7d'] closes) (first : Bool)
    (rest : List Char) : moreMembers first (closes ++ rest) = .ok (false, '\x7d' :: rest) := by
  unfold moreMembers
  rw [bind_eq (next?_eq (closed.dropWhile rfl rest))]
  rfl

namespace Layout

variable {layout : Layout}

/-! ### Drafts -/

theorem put_self (draft : layout.Draft) (field : layout.Field) (value : layout.Value field) :
    layout.put draft field value field = some value := by
  unfold put
  cases layout.decideField field field with
  | isTrue same => rfl
  | isFalse different => exact absurd rfl different

theorem put_of_ne (draft : layout.Draft) {field other : layout.Field} (different : field ≠ other)
    (value : layout.Value field) : layout.put draft field value other = draft other := by
  unfold put
  cases layout.decideField field other with
  | isTrue same => exact absurd same different
  | isFalse _ => rfl

/-- The values of several fields are found. -/
def fill (values : (field : layout.Field) → layout.Value field) (draft : layout.Draft)
    (fields : List layout.Field) : layout.Draft :=
  fields.foldl (fun draft field => layout.put draft field (values field)) draft

theorem fill_of_not_mem {values : (field : layout.Field) → layout.Value field} {field : layout.Field}
    {fields : List layout.Field} (absent : field ∉ fields) (draft : layout.Draft) :
    fill values draft fields field = draft field := by
  induction fields generalizing draft with
  | nil => rfl
  | cons first rest hyp =>
    obtain ⟨notFirst, notLater⟩ := List.ne_and_not_mem_of_not_mem_cons absent
    exact (hyp notLater _).trans (put_of_ne draft notFirst.symm _)

theorem fill_of_mem {values : (field : layout.Field) → layout.Value field} {field : layout.Field}
    {fields : List layout.Field} (among : field ∈ fields) (draft : layout.Draft) :
    fill values draft fields field = some (values field) := by
  induction fields generalizing draft with
  | nil => cases among
  | cons first rest hyp =>
    by_cases later : field ∈ rest
    · exact hyp later _
    · obtain rfl := (List.mem_cons.mp among).resolve_right later
      exact (fill_of_not_mem later _).trans (put_self draft field _)

/-! ### Texts of records -/

section Texts

variable (layout) (text : (field : layout.Field) → layout.Value field → List Char → Prop)
  (default? : (field : layout.Field) → Option (layout.Value field))
  (values : (field : layout.Field) → layout.Value field)

/-- A record as an object. Its fields stand in any order, and those that have their default may be left
out. -/
inductive ObjectText (chars : List Char) : Prop where
  | mk {fields : List layout.Field} (once : fields.Nodup)
      (omitted : ∀ field, field ∉ fields → default? field = some (values field))
      (written : Enclosed (fun field => MemberText (text field (values field)) (layout.name field))
        '\x7b' '\x7d' fields chars)

/-- A record as an object or as the list of all its fields in order. -/
inductive RecordText (chars : List Char) : Prop where
  | object (written : layout.ObjectText text default? values chars)
  | array (written : Enclosed (fun field => text field (values field)) '[' ']' layout.fields chars)

/-- Fields are told apart by their names, and their values are read from whatever is written for them. -/
structure ReadsFields (depth : Nat) : Prop where
  named : ∀ field, layout.named? (layout.name field) = some field
  reads : ∀ field value chars, text field value chars → Reads (layout.read field depth) value chars

end Texts

/-- Every field is one of those that are read. -/
theorem ReadsFields.mem_fields {text : (field : layout.Field) → layout.Value field → List Char → Prop}
    {depth : Nat} (readsFields : layout.ReadsFields text depth) (field : layout.Field) :
    field ∈ layout.fields :=
  List.mem_of_find?_eq_some (readsFields.named field)

section Reading

variable {text : (field : layout.Field) → layout.Value field → List Char → Prop}
  {default? : (field : layout.Field) → Option (layout.Value field)}
  {values : (field : layout.Field) → layout.Value field} {depth : Nat}
  (readsFields : layout.ReadsFields text depth)
include readsFields

/-- The members of an object are read up to its end. -/
theorem membersWithin_eq {isFirst : Bool} {fields : List layout.Field} {chars closes : List Char}
    (written : Items (fun field => MemberText (text field (values field)) (layout.name field)) isFirst
      fields chars) (closed : Token ['\x7d'] closes) {rounds : Rounds}
    (enough : fields.length < rounds.length) (once : fields.Nodup) {draft : layout.Draft}
    (unfound : ∀ field ∈ fields, draft field = none) (rest : List Char) :
    layout.membersWithin depth rounds isFirst draft (chars ++ (closes ++ rest)) =
      .ok (fill values draft fields, '\x7d' :: rest) := by
  induction written generalizing rounds draft with
  | nil first =>
    cases rounds with
    | nil => cases enough
    | cons =>
      unfold membersWithin
      rw [List.nil_append, bind_eq (moreMembers_end closed first rest)]
      rfl
  | @cons _ field fields before chars others separated written _ hyp =>
    cases rounds with
    | nil => cases enough
    | cons round rounds =>
      obtain ⟨more, separator, content, written, begins, named, colon⟩ := written.parts
      obtain ⟨fresh, once⟩ := List.nodup_cons.mp once
      have read := (readsFields.reads field (values field) content written).read
        (others ++ (closes ++ rest))
      have unfoundLater : ∀ other ∈ fields,
          layout.put draft field (values field) other = none := fun other among => by
        have different : field ≠ other := fun same => fresh (same ▸ among)
        rw [put_of_ne draft different]
        exact unfound other (List.mem_cons_of_mem _ among)
      unfold membersWithin
      rw [List.append_assoc, List.append_assoc, bind_eq (moreMembers_item separated (begins _)),
        if_pos rfl, bind_eq (named _), readsFields.named field]
      dsimp only
      rw [unfound field List.mem_cons_self, if_neg (by simp), bind_eq (colon _), bind_eq read,
        hyp (Nat.lt_of_succ_lt_succ enough) once unfoundLater]
      rfl

/-- The values of a list are read up to its end. -/
theorem valuesFor_eq {isFirst : Bool} {fields : List layout.Field} {chars : List Char}
    (written : Items (fun field => text field (values field)) isFirst fields chars)
    (draft : layout.Draft) (rest : List Char) :
    layout.valuesFor depth fields isFirst draft (chars ++ rest) = .ok (fill values draft fields, rest) := by
  induction written generalizing draft with
  | nil first => rfl
  | @cons _ field fields before chars others separated written _ hyp =>
    obtain ⟨⟨begin, more, noEnd, begins⟩, skips, read⟩ :=
      readsFields.reads field (values field) chars written
    have read := read (others ++ rest)
    rw [← skips, begins] at read
    unfold valuesFor
    rw [List.append_assoc, List.append_assoc, bind_eq (moreElements_item separated (begins _) noEnd),
      if_pos rfl, bind_eq read, hyp]
    rfl

/-- **A record is read from whatever is written for it.** -/
theorem RecordText.reads {α : Type} {whole : layout.Draft → Option α} {value : α}
    (makes : ∀ draft : layout.Draft,
      (∀ field, (draft field).or (default? field) = some (values field)) → whole draft = some value)
    {chars : List Char} (written : layout.RecordText text default? values chars) :
    Reads (layout.record whole (depth + 1)) value chars := by
  have skips (rest : List Char) : layout.record whole (depth + 1) (rest.dropWhile isSpace) =
      layout.record whole (depth + 1) rest := skips_next _ rest
  cases written with
  | object written =>
    cases written with
    | @mk fields once omitted written =>
      refine written.reads rfl (by decide) skips fun inner closes rest members closed => ?_
      have enough := members.length_lt (fun _ _ written => MemberText.ne_nil written) closed rest
      have found := membersWithin_eq readsFields members closed enough once
        (fun field _ => show layout.blank field = none from rfl) rest
      have made : whole (fill values layout.blank fields) = some value := by
        refine makes _ fun field => ?_
        by_cases among : field ∈ fields
        · rw [fill_of_mem among, Option.some_or]
        · rw [fill_of_not_mem among]
          exact omitted field among
      unfold record
      rw [bind_eq (next?_visible rfl _)]
      simp only
      rw [inside_succ, rounds_bind, bind_eq found, made]
      dsimp only
      rw [bind_eq (close_eq rfl rest)]
      rfl
  | array written =>
    refine written.reads rfl (by decide) skips fun inner closes rest elements closed => ?_
    have found := valuesFor_eq readsFields elements layout.blank (closes ++ rest)
    have made : whole (fill values layout.blank layout.fields) = some value := by
      refine makes _ fun field => ?_
      rw [fill_of_mem (readsFields.mem_fields field), Option.some_or]
    unfold record
    rw [bind_eq (next?_visible rfl _)]
    simp only
    rw [inside_succ, bind_eq found, made]
    dsimp only
    rw [bind_eq (close_token closed rfl rest)]
    rfl

end Reading

/-- A record whose values can be written can be written. -/
theorem exists_recordText {text : (field : layout.Field) → layout.Value field → List Char → Prop}
    {default? : (field : layout.Field) → Option (layout.Value field)}
    {values : (field : layout.Field) → layout.Value field}
    (each : ∀ field, ∃ chars, text field (values field) chars) :
    ∃ chars, layout.RecordText text default? values chars := by
  obtain ⟨chars, written⟩ : ∃ chars, Enclosed (fun field => text field (values field)) '[' ']'
      layout.fields chars := exists_enclosed '[' ']' fun field _ => each field
  exact ⟨chars, .array written⟩

end Layout

end CallFlow.Json
