/-
**Parked calls in rows.**

So that the calls that wait for a class in a scope are at hand when the class arrives there, they stand in a
row of their own. Parking enters a call in its row, and makes the row if there is none; taking removes the
whole row. How many calls are parked is counted over all rows, but whether any is parked is told by whether
there is a row.

* `ParkedTable.register`, `ParkedTable.take`: the two operations, with what they answer.
* `ParkedTable.performAll`: the table after a sequence of operations, and what each of them answers.
* `Parked.performAll`, `Parked.answer`: the same for parked calls that are kept as one set.
-/

import CallFlow.Flow.Parked
import CallFlow.Graph.Indexed

namespace CallFlow

namespace EdgeIndex

variable {κ α : Type} [DecidableEq κ] [OrderKey α]

/-- The index without the row of a key. -/
def without (index : EdgeIndex κ α) (key : κ) : EdgeIndex κ α :=
  ⟨index.rows.eraseP fun row => row.1 = key⟩

/-- The number of values in all rows. -/
def size (index : EdgeIndex κ α) : Nat :=
  index.rows.foldr (fun row total => row.2.size + total) 0

end EdgeIndex

/-- Parked calls, in rows by the class and the scope that they wait for. -/
structure ParkedTable where
  index : EdgeIndex (ClassId × Scope) (Site × MethodId) := {}

/-- What can be asked of parked calls. -/
inductive ParkedOperation where
  | register (call : ParkedCall)
  | take (receiver : ClassId) (scope : Scope)
  deriving DecidableEq, Repr, Inhabited

/-- What an operation on parked calls answers. -/
inductive ParkedAnswer where
  /-- Whether the call was not parked before. -/
  | registered (fresh : Bool)
  /-- The sites and callees that were parked. -/
  | taken (calls : List (Site × MethodId))
  deriving DecidableEq, Repr, Inhabited

namespace ParkedTable

variable (table : ParkedTable)

/-- The row of a class and a scope. -/
def row (receiver : ClassId) (scope : Scope) : SortedSet (Site × MethodId) :=
  table.index.row (receiver, scope)

/-- The table with one more call, and whether the call was not parked before. -/
def register (call : ParkedCall) : ParkedTable × Bool :=
  (⟨table.index.enter (call.receiver, call.scope) (call.site, call.callee)⟩,
    (call.site, call.callee) ∉ table.row call.receiver call.scope)

/-- The table without the row of a class and a scope, and what stood there. -/
def take (receiver : ClassId) (scope : Scope) : ParkedTable × List (Site × MethodId) :=
  (⟨table.index.without (receiver, scope)⟩, (table.row receiver scope).toList)

/-- The number of parked calls. -/
def size : Nat := table.index.size

/-- Whether no call is parked. -/
def isEmpty : Bool := table.index.rows.isEmpty

/-- The table after an operation, and its answer. -/
def perform : ParkedOperation → ParkedTable × ParkedAnswer
  | .register call => (table.register call).map id .registered
  | .take receiver scope => (table.take receiver scope).map id .taken

/-- The table after a sequence of operations, and their answers. -/
def performAll (table : ParkedTable) : List ParkedOperation → ParkedTable × List ParkedAnswer
  | [] => (table, [])
  | operation :: operations =>
    let (next, answer) := table.perform operation
    let (last, answers) := performAll next operations
    (last, answer :: answers)

end ParkedTable

namespace Parked

variable (parked : Parked)

/-- What an operation answers if the parked calls are kept as one set. -/
def answer : ParkedOperation → ParkedAnswer
  | .register call => .registered (call ∉ parked)
  | .take receiver scope => .taken (parked.waiting receiver scope)

/-- The parked calls after an operation. -/
def perform : ParkedOperation → Parked
  | .register call => parked.park call
  | .take receiver scope => parked.remaining receiver scope

/-- The parked calls after a sequence of operations. -/
def performAll : Parked → List ParkedOperation → Parked := List.foldl perform

end Parked

end CallFlow
