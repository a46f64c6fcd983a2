/-
**How JSON values may be written.**

Blanks may stand before every token, and a character of a string may be escaped in several ways. What may
be written for a value is a relation, stated without the readers; the readers give the value back from every
text that is written for it.

* `Json.Token`, `Json.Spells`, `Json.StringText`, `Json.Enclosed`: tokens, characters of strings, strings,
  and what stands between brackets.
* `Json.Reads`: a text can be read as a value, and what stands behind it is left.
* `Json.StringText.reads`, `Json.ListText.reads`: strings and lists.
-/

import Mathlib.Data.List.DropRight
import CallFlow.Json.Document
import CallFlow.Json.Literal

namespace CallFlow.Json

/-! ### Tokens -/

/-- Characters that may stand between the tokens of a text. -/
def Blanks (chars : List Char) : Prop :=
  ∀ char ∈ chars, char = ' ' ∨ char = '\t' ∨ char = '\n' ∨ char = '\r'

/-- A token with blanks before it. -/
inductive Token (token : List Char) : List Char → Prop where
  | mk {blanks : List Char} (blank : Blanks blanks) : Token token (blanks ++ token)

/-! ### Strings -/

/-- The hexadecimal digits with small letters. -/
def smallDigits : List Char :=
  ['0', '1', '2', '3', '4', '5', '6', '7', '8', '9', 'a', 'b', 'c', 'd', 'e', 'f']

/-- The hexadecimal digits with capital letters. -/
def capitalDigits : List Char :=
  ['0', '1', '2', '3', '4', '5', '6', '7', '8', '9', 'A', 'B', 'C', 'D', 'E', 'F']

/-- A character is a hexadecimal digit for a number. -/
def HexDigit (value : Nat) (digit : Char) : Prop :=
  smallDigits[value]? = some digit ∨ capitalDigits[value]? = some digit

/-- Four hexadecimal digits for a number. -/
inductive HexUnit : Nat → List Char → Prop where
  | mk {a b c d : Nat} {first second third fourth : Char} (isFirst : HexDigit a first)
      (isSecond : HexDigit b second) (isThird : HexDigit c third) (isFourth : HexDigit d fourth) :
      HexUnit (((a * 16 + b) * 16 + c) * 16 + d) [first, second, third, fourth]

/-- How a character may be written in a string: as itself, with a short escape, as its number, or as the
numbers of a pair of surrogates. -/
inductive Spells : Char → List Char → Prop where
  | plain {char : Char} (printable : 0x20 ≤ char.toNat) (noQuote : char ≠ '"') (noBackslash : char ≠ '\\') :
      Spells char [char]
  | quote : Spells '"' ['\\', '"']
  | backslash : Spells '\\' ['\\', '\\']
  | slash : Spells '/' ['\\', '/']
  | backspace : Spells '\x08' ['\\', 'b']
  | formFeed : Spells '\x0c' ['\\', 'f']
  | lineFeed : Spells '\n' ['\\', 'n']
  | carriageReturn : Spells '\r' ['\\', 'r']
  | tab : Spells '\t' ['\\', 't']
  | unit {char : Char} {digits : List Char} (basic : char.toNat < 0x10000)
      (written : HexUnit char.toNat digits) : Spells char ('\\' :: 'u' :: digits)
  | pair {char : Char} {high low : List Char} (beyond : 0x10000 ≤ char.toNat)
      (isHigh : HexUnit (0xD800 + (char.toNat - 0x10000) / 0x400) high)
      (isLow : HexUnit (0xDC00 + (char.toNat - 0x10000) % 0x400) low) :
      Spells char ('\\' :: 'u' :: high ++ '\\' :: 'u' :: low)

/-- Characters one after the other. -/
inductive Characters : List Char → List Char → Prop where
  | nil : Characters [] []
  | cons {char : Char} {chars written rest : List Char} (spells : Spells char written)
      (others : Characters chars rest) : Characters (char :: chars) (written ++ rest)

/-- A string. -/
inductive StringText (text : String) : List Char → Prop where
  | mk {written chars : List Char} (characters : Characters text.toList written)
      (token : Token ('"' :: written ++ ['"']) chars) : StringText text chars

/-- A string or the word `null`. -/
def OptionalText : Option String → List Char → Prop
  | none => Token ['n', 'u', 'l', 'l']
  | some text => StringText text

/-- A truth value. -/
def BooleanText : Bool → List Char → Prop
  | true => Token ['t', 'r', 'u', 'e']
  | false => Token ['f', 'a', 'l', 's', 'e']

/-! ### Lists -/

section Lists

variable {α : Type} (text : α → List Char → Prop)

/-- What stands before an item: nothing before the first one, a comma before any other one. -/
inductive Separator : Bool → List Char → Prop where
  | first : Separator true []
  | further {comma : List Char} (token : Token [','] comma) : Separator false comma

/-- Items with their separators. The truth value says whether the first item of all is among them. -/
inductive Items : Bool → List α → List Char → Prop where
  | nil (first : Bool) : Items first [] []
  | cons {first : Bool} {item : α} {items : List α} {before chars rest : List Char}
      (separated : Separator first before) (written : text item chars) (others : Items false items rest) :
      Items first (item :: items) (before ++ (chars ++ rest))

/-- Items between an opening and a closing mark. -/
inductive Enclosed (opening closing : Char) (items : List α) : List Char → Prop where
  | mk {opens chars closes : List Char} (opened : Token [opening] opens) (inside : Items text true items chars)
      (closed : Token [closing] closes) : Enclosed opening closing items (opens ++ (chars ++ closes))

/-- A list. -/
abbrev ListText : List α → List Char → Prop := Enclosed text '[' ']'

end Lists

/-! ### Reading -/

theorem bind_eq {α β : Type} {reader : Reader α} {next : α → Reader β} {chars rest : List Char} {value : α}
    (read : reader chars = .ok (value, rest)) : (reader >>= next) chars = next value rest := by
  show (reader chars).bind _ = _
  rw [read]
  rfl

theorem next?_eq {first : Char} {chars rest : List Char} (begins : chars.dropWhile isSpace = first :: rest) :
    next? chars = .ok (some first, first :: rest) := by
  unfold next?
  rw [begins]
  rfl

theorem next?_visible {first : Char} (visible : isSpace first = false) (rest : List Char) :
    next? (first :: rest) = .ok (some first, first :: rest) :=
  next?_eq (List.dropWhile_cons_of_neg (by simp [visible]))

theorem rounds_bind {α : Type} (next : Rounds → Reader α) (chars : List Char) :
    (rounds >>= next) chars = next chars chars := rfl

/-- Inside a list or an object the opening mark has been taken. -/
theorem inside_succ {α : Type} (depth : Nat) (body : Nat → Reader α) (mark : Char) (chars : List Char) :
    inside (depth + 1) body (mark :: chars) = body depth chars := rfl

/-- A reader that shows the next character first skips blanks. -/
theorem skips_next {α : Type} (next : Option Char → Reader α) (chars : List Char) :
    (next? >>= next) (chars.dropWhile isSpace) = (next? >>= next) chars := by
  have same : next? (chars.dropWhile isSpace) = next? chars := by
    unfold next?
    rw [List.dropWhile_idempotent]
  simp only [bind, StateT.bind, same]

theorem dropWhile_blanks {blanks : List Char} (blank : Blanks blanks) (rest : List Char) :
    (blanks ++ rest).dropWhile isSpace = rest.dropWhile isSpace := by
  refine List.dropWhile_append_of_pos fun char among => ?_
  rcases blank char among with rfl | rfl | rfl | rfl <;> rfl

/-- Nothing needs to stand before a token. -/
theorem token_self (token : List Char) : Token token token :=
  have none : Blanks [] := fun _ absent => absurd absent List.not_mem_nil
  Token.mk none

theorem Token.dropWhile {first : Char} {token chars : List Char} (written : Token (first :: token) chars)
    (visible : isSpace first = false) (rest : List Char) :
    (chars ++ rest).dropWhile isSpace = first :: (token ++ rest) := by
  obtain ⟨blank⟩ := written
  rw [List.append_assoc, dropWhile_blanks blank]
  exact List.dropWhile_cons_of_neg (by simp [visible])

/-- A text can be read as a value, and what stands behind it is left. Blanks before it do not count, and it
can not be taken for the end of a list. -/
structure Reads {α : Type} (reader : Reader α) (value : α) (chars : List Char) : Prop where
  begins : ∃ first more, first ≠ ']' ∧
    ∀ rest, (chars ++ rest).dropWhile isSpace = first :: (more ++ rest)
  skips : ∀ rest, reader (rest.dropWhile isSpace) = reader rest
  read : ∀ rest, reader (chars ++ rest) = .ok (value, rest)

/-- A reader that reads a token reads it behind blanks. -/
theorem reads_token {α : Type} {reader : Reader α} {value : α} {first : Char} {token chars : List Char}
    (written : Token (first :: token) chars) (visible : isSpace first = false) (noEnd : first ≠ ']')
    (skips : ∀ rest, reader (rest.dropWhile isSpace) = reader rest)
    (read : ∀ rest, reader (first :: (token ++ rest)) = .ok (value, rest)) : Reads reader value chars where
  begins := ⟨first, token, noEnd, written.dropWhile visible⟩
  skips := skips
  read rest := by rw [← skips, written.dropWhile visible, read]

/-! ### Reading strings -/

theorem hexValue_smallDigits : ∀ (value : Nat) (inside : value < smallDigits.length),
    hexValue? smallDigits[value] = some value := by decide

theorem hexValue_capitalDigits : ∀ (value : Nat) (inside : value < capitalDigits.length),
    hexValue? capitalDigits[value] = some value := by decide

theorem HexDigit.hexValue {value : Nat} {digit : Char} (isDigit : HexDigit value digit) :
    hexValue? digit = some value := by
  rcases isDigit with small | capital
  · obtain ⟨inside, rfl⟩ := List.getElem?_eq_some_iff.mp small
    exact hexValue_smallDigits value inside
  · obtain ⟨inside, rfl⟩ := List.getElem?_eq_some_iff.mp capital
    exact hexValue_capitalDigits value inside

theorem HexUnit.readUnit {value : Nat} {digits : List Char} (written : HexUnit value digits)
    (rest : List Char) : Json.readUnit (digits ++ rest) = .ok (value, rest) := by
  obtain ⟨isFirst, isSecond, isThird, isFourth⟩ := written
  simp only [List.cons_append, List.nil_append, Json.readUnit, isFirst.hexValue, isSecond.hexValue,
    isThird.hexValue, isFourth.hexValue]

/-- The number of a character is not that of a surrogate. -/
theorem not_surrogate (char : Char) :
    isLowSurrogate char.toNat = false ∧ isHighSurrogate char.toNat = false := by
  unfold isLowSurrogate isHighSurrogate
  have valid : char.toNat < 0xD800 ∨ 0xDFFF < char.toNat ∧ char.toNat < 0x110000 := char.valid
  simp only [Bool.and_eq_false_iff, decide_eq_false_iff_not]
  omega

/-- A character is read from whatever is written for it. -/
theorem Spells.read {char round : Char} {written : List Char} (spells : Spells char written)
    (rounds : Rounds) (before rest : List Char) :
    charactersWithin (round :: rounds) before (written ++ rest) =
      charactersWithin rounds (char :: before) rest := by
  cases spells with
  | plain printable noQuote noBackslash =>
    rw [List.singleton_append, charactersWithin]
    · exact if_neg (Nat.not_lt.mpr printable)
    · exact fun same => noQuote same
    · exact fun same => noBackslash same
  | quote => rfl
  | backslash => rfl
  | slash => rfl
  | backspace => rfl
  | formFeed => rfl
  | lineFeed => rfl
  | carriageReturn => rfl
  | tab => rfl
  | @unit _ digits basic written =>
    obtain ⟨notLow, notHigh⟩ := not_surrogate char
    have escape : readEscape ('u' :: (digits ++ rest)) = .ok (char, rest) := by
      simp only [readEscape, written.readUnit, notLow, notHigh, bind, Except.bind, pure, Except.pure,
        Char.ofNat_toNat, Bool.false_eq_true, if_false]
    simp only [List.cons_append, charactersWithin, escape]
  | @pair _ high low beyond isHigh isLow =>
    have valid : char.toNat < 0xD800 ∨ 0xDFFF < char.toNat ∧ char.toNat < 0x110000 := char.valid
    have highHalf : isHighSurrogate (0xD800 + (char.toNat - 0x10000) / 0x400) = true := by
      unfold isHighSurrogate
      simp only [Bool.and_eq_true, decide_eq_true_eq]
      omega
    have notLow : isLowSurrogate (0xD800 + (char.toNat - 0x10000) / 0x400) = false := by
      unfold isLowSurrogate
      simp only [Bool.and_eq_false_iff, decide_eq_false_iff_not]
      omega
    have lowHalf : isLowSurrogate (0xDC00 + (char.toNat - 0x10000) % 0x400) = true := by
      unfold isLowSurrogate
      simp only [Bool.and_eq_true, decide_eq_true_eq]
      omega
    have number : 0x10000 + (0xD800 + (char.toNat - 0x10000) / 0x400 - 0xD800) * 0x400 +
        (0xDC00 + (char.toNat - 0x10000) % 0x400 - 0xDC00) = char.toNat := by omega
    have escape : readEscape ('u' :: (high ++ '\\' :: 'u' :: (low ++ rest))) = .ok (char, rest) := by
      simp only [readEscape, readPair, isHigh.readUnit, isLow.readUnit, highHalf, notLow, lowHalf, number,
        bind, Except.bind, pure, Except.pure, Char.ofNat_toNat, Bool.false_eq_true, if_false, if_true]
    simp only [List.cons_append, List.append_assoc, charactersWithin, escape]

/-- The characters of a string are read up to the closing quote. -/
theorem Characters.read {chars written : List Char} (characters : Characters chars written)
    {rounds : Rounds} (enough : chars.length < rounds.length) (before rest : List Char) :
    charactersWithin rounds before (written ++ '"' :: rest) = .ok (chars.reverse ++ before, rest) := by
  induction characters generalizing rounds before with
  | nil =>
    cases rounds with
    | nil => cases enough
    | cons => rfl
  | cons spells _ hyp =>
    cases rounds with
    | nil => cases enough
    | cons round rounds =>
      rw [List.append_assoc, spells.read, hyp (Nat.lt_of_succ_lt_succ enough), List.reverse_cons,
        List.append_assoc, List.singleton_append]

theorem Spells.ne_nil {char : Char} {written : List Char} (spells : Spells char written) : written ≠ [] := by
  cases spells <;> simp

theorem Characters.length_le {chars written : List Char} (characters : Characters chars written) :
    chars.length ≤ written.length := by
  induction characters with
  | nil => exact Nat.le_refl _
  | cons spells _ hyp =>
    have some_written := List.length_pos_iff.mpr spells.ne_nil
    rw [List.length_cons, List.length_append]
    omega

namespace StringText

variable {text : String} {chars : List Char} (written : StringText text chars)
include written

/-- A string begins with its quote and is read from there. -/
theorem quoted : ∃ more, ∀ rest, (chars ++ rest).dropWhile isSpace = '"' :: (more ++ rest) ∧
    Json.quoted ('"' :: (more ++ rest)) = .ok (text, rest) := by
  cases written with
  | @mk inner _ characters token =>
    refine ⟨inner ++ ['"'], fun rest => ⟨token.dropWhile rfl rest, ?_⟩⟩
    -- The reader goes one round for each character that is left, and no character is written as nothing.
    have enough : text.toList.length < ('"' :: (inner ++ '"' :: rest)).length := by
      have bound := characters.length_le
      simp only [List.length_cons, List.length_append]
      omega
    unfold Json.quoted
    rw [List.append_assoc, List.singleton_append, List.tail_cons, characters.read enough, List.append_nil]
    show Except.ok (String.ofList text.toList.reverse.reverse, rest) = _
    rw [List.reverse_reverse, String.ofList_toList]

theorem reads : Reads string text chars := by
  obtain ⟨more, quotes⟩ := written.quoted
  have skips (rest : List Char) : string (rest.dropWhile isSpace) = string rest := skips_next _ rest
  refine ⟨⟨'"', more, by decide, fun rest => (quotes rest).1⟩, skips, fun rest => ?_⟩
  obtain ⟨begins, read⟩ := quotes rest
  unfold string
  rw [bind_eq (next?_eq begins), if_pos rfl, read]

end StringText

theorem OptionalText.reads {text : Option String} {chars : List Char} (written : OptionalText text chars) :
    Reads optionalString text chars := by
  have skips (rest : List Char) : optionalString (rest.dropWhile isSpace) = optionalString rest :=
    skips_next _ rest
  cases text with
  | none => exact reads_token written rfl (by decide) skips fun rest => rfl
  | some text =>
    have strings := StringText.reads written
    obtain ⟨more, quotes⟩ := StringText.quoted written
    refine ⟨strings.begins, skips, fun rest => ?_⟩
    unfold optionalString
    rw [bind_eq (next?_eq (quotes rest).1), if_neg (by decide)]
    have read := strings.read rest
    rw [← strings.skips, (quotes rest).1] at read
    exact bind_eq read

theorem BooleanText.reads {value : Bool} {chars : List Char} (written : BooleanText value chars) :
    Reads boolean value chars := by
  have skips (rest : List Char) : boolean (rest.dropWhile isSpace) = boolean rest := skips_next _ rest
  cases value with
  | true => exact reads_token written rfl (by decide) skips fun rest => rfl
  | false => exact reads_token written rfl (by decide) skips fun rest => rfl

/-! ### Reading lists -/

theorem moreElements_item {isFirst : Bool} {first : Char} {before chars rest : List Char}
    (separated : Separator isFirst before) (begins : chars.dropWhile isSpace = first :: rest)
    (noEnd : first ≠ ']') : moreElements isFirst (before ++ chars) = .ok (true, first :: rest) := by
  unfold moreElements
  cases separated with
  | first =>
    rw [List.nil_append, bind_eq (next?_eq begins)]
    simp only [if_true]
    rfl
  | further token =>
    have taken : take (',' :: ([] ++ chars)) = .ok ((), chars) := rfl
    have goesOn : ',' ≠ ']' := by decide
    rw [bind_eq (next?_eq (token.dropWhile rfl chars))]
    simp only [Bool.false_eq_true, if_false, if_true]
    rw [bind_eq taken, bind_eq (next?_eq begins)]
    simp only
    rfl

theorem moreElements_end {closes : List Char} (closed : Token [']'] closes) (first : Bool)
    (rest : List Char) : moreElements first (closes ++ rest) = .ok (false, ']' :: rest) := by
  unfold moreElements
  rw [bind_eq (next?_eq (closed.dropWhile rfl rest))]
  rfl

theorem close_token {mark : Char} {closes : List Char} (closed : Token [mark] closes)
    (visible : isSpace mark = false) (rest : List Char) : close mark (closes ++ rest) = .ok ((), rest) := by
  unfold close
  rw [bind_eq (next?_eq (closed.dropWhile visible rest))]
  simp only [if_true]
  rfl

/-- The mark that has been shown is taken. -/
theorem close_eq {mark : Char} (visible : isSpace mark = false) (rest : List Char) :
    close mark (mark :: rest) = .ok ((), rest) :=
  close_token (token_self [mark]) visible rest

theorem Token.length_pos {mark : Char} {token chars : List Char} (written : Token (mark :: token) chars) :
    0 < chars.length := by
  obtain ⟨_⟩ := written
  rw [List.length_append, List.length_cons]
  omega

section Lists

variable {α : Type} {text : α → List Char → Prop} {isFirst : Bool} {items : List α} {chars : List Char}

/-- Up to the end of the list there are more characters than items. -/
theorem Items.length_lt (written : Items text isFirst items chars)
    (visible : ∀ item chars, text item chars → chars ≠ []) {closing : Char} {closes : List Char}
    (closed : Token [closing] closes) (rest : List Char) :
    items.length < (chars ++ (closes ++ rest)).length := by
  have bound : items.length ≤ chars.length := by
    induction written with
    | nil => exact Nat.le_refl _
    | cons _ written _ hyp =>
      have positive := List.length_pos_iff.mpr (visible _ _ written)
      simp only [List.length_cons, List.length_append]
      omega
  have positive := closed.length_pos
  simp only [List.length_append]
  omega

/-- What stands between marks is read from the opening mark on. -/
theorem Enclosed.reads {β : Type} {reader : Reader β} {value : β} {opening closing : Char}
    (written : Enclosed text opening closing items chars) (visible : isSpace opening = false)
    (noEnd : opening ≠ ']') (skips : ∀ rest, reader (rest.dropWhile isSpace) = reader rest)
    (read : ∀ inner closes rest, Items text true items inner → Token [closing] closes →
      reader (opening :: (inner ++ (closes ++ rest))) = .ok (value, rest)) : Reads reader value chars := by
  cases written with
  | @mk opens inner closes opened inside closed =>
    have begins (rest : List Char) : (opens ++ (inner ++ closes) ++ rest).dropWhile isSpace =
        opening :: (inner ++ closes ++ rest) := by
      rw [List.append_assoc, opened.dropWhile visible]
      rfl
    refine ⟨⟨opening, inner ++ closes, noEnd, begins⟩, skips, fun rest => ?_⟩
    rw [← skips, begins, List.append_assoc]
    exact read inner closes rest inside closed

/-- A text that can be read is not empty. -/
theorem Reads.ne_nil {reader : Reader α} {value : α} (reads : Reads reader value chars) : chars ≠ [] := by
  rintro rfl
  obtain ⟨_, _, _, begins⟩ := reads.begins
  cases begins []

/-- The elements of a list are read up to its end. -/
theorem Items.elements {reader : Reader α} {closes : List Char} (closed : Token [']'] closes)
    (each : ∀ item chars, text item chars → Reads reader item chars)
    (written : Items text isFirst items chars) {rounds : Rounds} (enough : items.length < rounds.length)
    (rest : List Char) :
    elementsWithin reader rounds isFirst (chars ++ (closes ++ rest)) = .ok (items, ']' :: rest) := by
  -- By induction on the items, with a round for each of them and one for the end.
  induction written generalizing rounds with
  | nil first =>
    cases rounds with
    | nil => cases enough
    | cons =>
      unfold elementsWithin
      rw [List.nil_append, bind_eq (moreElements_end closed first rest)]
      rfl
  | @cons _ item items before chars others separated written _ hyp =>
    cases rounds with
    | nil => cases enough
    | cons round rounds =>
      obtain ⟨⟨begin, more, noEnd, begins⟩, skips, read⟩ := each item chars written
      have read := read (others ++ (closes ++ rest))
      rw [← skips, begins] at read
      unfold elementsWithin
      rw [List.append_assoc, List.append_assoc, bind_eq (moreElements_item separated (begins _) noEnd),
        if_pos rfl, bind_eq read, bind_eq (hyp (Nat.lt_of_succ_lt_succ enough))]
      rfl

/-- **A list is read from whatever is written for it.** -/
theorem ListText.reads {element : Nat → Reader α} {depth : Nat}
    (each : ∀ item chars, text item chars → Reads (element depth) item chars)
    (written : ListText text items chars) : Reads (list element (depth + 1)) items chars := by
  refine Enclosed.reads written rfl (by decide) (fun rest => skips_next _ rest)
    fun inner closes rest listed closed => ?_
  have enough := listed.length_lt (fun item chars written => (each item chars written).ne_nil) closed rest
  unfold list elements
  rw [bind_eq (next?_visible rfl _), if_pos rfl, inside_succ, rounds_bind,
    bind_eq (listed.elements closed each enough rest), bind_eq (close_eq rfl rest)]
  rfl

end Lists

/-! ### Everything can be written -/

theorem hexDigit_eq : ∀ value < 16, smallDigits[value]? = some (hexDigit value) := by decide

/-- The escapes of indented documents are legal. -/
theorem spells_escape (char : Char) : Spells char (escape char) := by
  unfold escape
  split
  · exact .quote
  · exact .backslash
  · exact .backspace
  · exact .formFeed
  · exact .lineFeed
  · exact .carriageReturn
  · exact .tab
  · next noQuote noBackslash _ _ _ _ _ =>
    split
    · next control =>
      have written : HexUnit (((0 * 16 + 0) * 16 + char.toNat / 16) * 16 + char.toNat % 16)
          ['0', '0', hexDigit (char.toNat / 16), hexDigit (char.toNat % 16)] :=
        .mk (.inl rfl) (.inl rfl) (.inl (hexDigit_eq _ (by omega))) (.inl (hexDigit_eq _ (by omega)))
      have number : ((0 * 16 + 0) * 16 + char.toNat / 16) * 16 + char.toNat % 16 = char.toNat := by omega
      rw [number] at written
      exact .unit (by omega) written
    · next printable => exact .plain (Nat.not_lt.mp printable) noQuote noBackslash

/-- **A text stands for itself as a JSON string.** -/
theorem stringText_quote (text : String) : StringText text (quote text).toList := by
  have characters (chars : List Char) : Characters chars (chars.flatMap escape) := by
    induction chars with
    | nil => exact .nil
    | cons char rest hyp => exact .cons (spells_escape char) hyp
  refine .mk (characters text.toList) ?_
  unfold quote
  rw [String.toList_ofList]
  exact token_self _

theorem exists_optionalText (text : Option String) : ∃ chars, OptionalText text chars := by
  cases text with
  | none => exact ⟨_, token_self _⟩
  | some text => exact ⟨_, stringText_quote text⟩

theorem exists_booleanText (value : Bool) : ∃ chars, BooleanText value chars := by
  cases value <;> exact ⟨_, token_self _⟩

/-- Items that can be written can be enclosed. -/
theorem exists_enclosed {α : Type} {text : α → List Char → Prop} (opening closing : Char) {items : List α}
    (each : ∀ item ∈ items, ∃ chars, text item chars) :
    ∃ chars, Enclosed text opening closing items chars := by
  have exists_items (isFirst : Bool) : ∃ chars, Items text isFirst items chars := by
    induction items generalizing isFirst with
    | nil => exact ⟨[], .nil isFirst⟩
    | cons item items hyp =>
      obtain ⟨chars, written⟩ := each item List.mem_cons_self
      obtain ⟨rest, others⟩ := hyp (fun item among => each item (List.mem_cons_of_mem _ among)) false
      cases isFirst with
      | true => exact ⟨_, .cons .first written others⟩
      | false => exact ⟨_, .cons (.further (token_self _)) written others⟩
  obtain ⟨chars, written⟩ := exists_items true
  exact ⟨_, .mk (token_self _) written (token_self _)⟩

end CallFlow.Json
