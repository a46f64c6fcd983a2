/-
**Facts.**

A fact says that a class is instantiated in a scope. Facts are only ever added.

* `Facts.mem_classesIn`: the classes of a scope are those of its facts.
* `Facts.mem_add`: adding a fact adds nothing else.
-/

import CallFlow.Flow.Scope
import CallFlow.Order.SortedSet

namespace CallFlow

/-- The facts known so far. -/
abbrev Facts := SortedSet (Scope × ClassId)

namespace Facts

/-- Whether a class is instantiated in a scope. -/
def has (facts : Facts) (scope : Scope) (id : ClassId) : Bool := (scope, id) ∈ facts

@[simp] theorem has_iff {facts : Facts} {scope : Scope} {id : ClassId} :
    facts.has scope id = true ↔ (scope, id) ∈ facts := decide_eq_true_iff

/-- The facts with one more. -/
def add (facts : Facts) (scope : Scope) (id : ClassId) : Facts := facts.insert (scope, id)

/-- The classes instantiated in a scope, ascending. -/
def classesIn (facts : Facts) (scope : Scope) : List ClassId :=
  facts.toList.filterMap fun fact => if fact.1 = scope then some fact.2 else none

theorem mem_classesIn {facts : Facts} {scope : Scope} {id : ClassId} :
    id ∈ facts.classesIn scope ↔ (scope, id) ∈ facts := SortedSet.mem_filterMap_fst

theorem mem_add {facts : Facts} {scope : Scope} {id : ClassId} {fact : Scope × ClassId} :
    fact ∈ facts.add scope id ↔ fact = (scope, id) ∨ fact ∈ facts := SortedSet.mem_insert

end Facts

end CallFlow
