/-
**Order keys.**

A value that is kept in an ascending set carries a key: a list of numbers of a fixed length that
identifies it. Values are ordered by their keys, compared lexicographically.

* `OrderKey.before_irrefl`, `OrderKey.before_trans`, `OrderKey.before_connected`: the order is a
  strict linear order.
* `OrderKey.instProd`, `OrderKey.before_snd`: a pair is ordered by its first component, then by its
  second.
-/

namespace CallFlow

/-- A type whose values are identified by lists of numbers of one length. -/
class OrderKey (α : Type) where
  /-- The list of numbers that identifies a value. -/
  key : α → List Nat
  /-- The length that all keys of the type have. -/
  width : Nat
  length_key : ∀ value, (key value).length = width
  key_injective : ∀ {first second}, key first = key second → first = second

namespace OrderKey

variable {α β : Type} [OrderKey α] [OrderKey β]

/-- The first value stands before the second one. -/
def Before (first second : α) : Prop := key first < key second

instance decidableBefore (first second : α) : Decidable (Before first second) :=
  inferInstanceAs (Decidable (key first < key second))

theorem before_irrefl (value : α) : ¬ Before value value :=
  List.lt_irrefl (key value)

theorem before_trans {first second third : α} (left : Before first second)
    (right : Before second third) : Before first third :=
  List.lt_trans left right

/-- Of two values neither of which stands before the other there is only one. -/
theorem before_connected {first second : α} (notBefore : ¬ Before first second)
    (notAfter : ¬ Before second first) : first = second :=
  key_injective (List.le_antisymm (List.not_lt.mp notAfter) (List.not_lt.mp notBefore))

/-- A number is its own key. -/
instance instNat : OrderKey Nat where
  key number := [number]
  width := 1
  length_key _ := rfl
  key_injective equal := List.head_eq_of_cons_eq equal

/-- A pair is ordered by its first component, then by its second. -/
instance instProd : OrderKey (α × β) where
  key pair := key pair.1 ++ key pair.2
  width := width α + width β
  length_key pair := by simp [length_key]
  key_injective := by
    intro first second equal
    have lengths : (key first.1).length = (key second.1).length := by
      rw [length_key, length_key]
    have parts := List.append_inj equal lengths
    exact Prod.ext (key_injective parts.1) (key_injective parts.2)

/-- Among pairs with one first component the second one decides. -/
theorem before_snd {first : α} {second third : β}
    (before : Before (first, second) (first, third)) : Before second third := by
  by_cases after : Before third second
  · have reversed : Before (first, third) (first, second) := List.append_left_lt after
    exact absurd (before_trans before reversed) (before_irrefl _)
  · by_cases here : Before second third
    · exact here
    · cases before_connected here after
      exact absurd before (before_irrefl _)

end OrderKey

end CallFlow
