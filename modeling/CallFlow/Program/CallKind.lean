/-
**Names of call kinds.**

A call kind is written as a word, alone or after `invoke`, in either case and with blanks around it;
every other text is an unknown instruction.

* `CallKind.ofName`: the kind that a text names.
* `CallKind.isVirtual`: whether the called method depends on the class of the receiver.
-/

import CallFlow.Program.Basic
import CallFlow.Text.Blank

namespace CallFlow

namespace CallKind

/-- The name of a kind. -/
def name : CallKind → String
  | .static => "static"
  | .special => "special"
  | .virtual => "virtual"
  | .interface => "interface"
  | .dynamic => "dynamic"
  | .other => "other"

/-- The kinds that have an instruction. -/
def known : List CallKind := [.static, .special, .virtual, .interface, .dynamic]

/-- Whether the called method depends on the class of the receiver. -/
def isVirtual : CallKind → Bool
  | .virtual | .interface => true
  | _ => false

/-- The place of a kind in the order of edges. -/
def rank : CallKind → Nat
  | .static => 0
  | .special => 1
  | .virtual => 2
  | .interface => 3
  | .dynamic => 4
  | .other => 5

instance : OrderKey CallKind where
  key kind := [kind.rank]
  width := 1
  length_key _ := rfl
  key_injective := by rintro (_ | _ | _ | _ | _ | _) (_ | _ | _ | _ | _ | _) equal <;> simp_all [rank]

/-- Characters without one leading `invoke`. -/
def withoutInvoke (word : List Char) : List Char :=
  if "invoke".toList.isPrefixOf word then word.drop 6 else word

/-- The kind that a text names: the case of ASCII letters and blanks around the word do not count. -/
def ofName (text : String) : CallKind :=
  let word := withoutInvoke ((Text.trim text).toList.map Char.toLower)
  (known.find? fun kind => kind.name.toList = word).getD .other

end CallKind

end CallFlow
