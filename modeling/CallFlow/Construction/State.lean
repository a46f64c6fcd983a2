/-
**The state of a construction.**

Three queues drive the construction of a call graph: methods to process, call sites of the method
being processed, and new facts whose consequences are not drawn yet.

* `Construction.State`: the graph so far, the facts, the queues, what is parked, and what has been
  counted and recorded.
* `Construction.State.statistics`: the counts of a finished construction.
-/

import CallFlow.Construction.Diagnostic
import CallFlow.Flow.Facts
import CallFlow.Flow.Parked
import CallFlow.Graph.Basic
import CallFlow.Hierarchy.TargetCache

namespace CallFlow

namespace Construction

/-- What stays the same during a construction. -/
structure Setting where
  hierarchy : Hierarchy
  granularity : Granularity

/-- The program of a setting. -/
def Setting.program (setting : Setting) : Program := setting.hierarchy.program

/-- What is counted during a construction. -/
structure Counters where
  methodsProcessed : Nat := 0
  events : Nat := 0
  parkedCalls : Nat := 0
  replayedCalls : Nat := 0
  unresolvedDynamic : Nat := 0
  skippedTargets : Nat := 0
  kindMismatches : Nat := 0
  deriving DecidableEq, Repr, Inhabited

/-- The state of a construction. -/
structure State where
  graph : CallGraph
  facts : Facts := ∅
  cache : TargetCache := {}
  parked : Parked := ∅
  /-- The methods to process; a method may stand here more than once. -/
  methods : List MethodId := []
  /-- The call sites of the method being processed that are still to be resolved. -/
  sites : List Site := []
  /-- The facts whose consequences are still to be drawn. -/
  events : List (Scope × ClassId) := []
  /-- The methods that appear in the graph, as callers, as callees or as reachable. -/
  enrolled : SortedSet MethodId := ∅
  /-- The fields stored to, with the scope of the storing method. -/
  stores : SortedSet (Scope × FieldId) := ∅
  /-- The scopes of fields loaded from, with the scope of the loading method. -/
  loads : SortedSet (Scope × Scope) := ∅
  counters : Counters := {}
  /-- The diagnostics, the latest first. -/
  log : List Diagnostic := []
  deriving Inhabited

namespace State

/-- The state before the first step: the entry method is to be processed. -/
def initial (entry : MethodId) : State := { graph := { entry }, methods := [entry] }

variable (state : State)

/-- Records a diagnostic. -/
def note (diagnostic : Diagnostic) : State := { state with log := diagnostic :: state.log }

/-- Changes the counts. -/
def count (change : Counters → Counters) : State :=
  { state with counters := change state.counters }

/-- Adds a fact. A new fact also waits for its consequences to be drawn. -/
def addFact (scope : Scope) (id : ClassId) : State :=
  if state.facts.has scope id then state
  else
    { state with
      facts := state.facts.add scope id
      events := state.events ++ [(scope, id)]
      counters := { state.counters with events := state.counters.events + 1 } }

theorem addFact_of_mem {scope : Scope} {id : ClassId} (present : (scope, id) ∈ state.facts) :
    state.addFact scope id = state := by
  simp [addFact, present]

/-- A new fact is added to the facts and queued. -/
theorem addFact_of_fresh {scope : Scope} {id : ClassId} (fresh : (scope, id) ∉ state.facts) :
    state.addFact scope id = { state with
      facts := state.facts.add scope id
      events := state.events ++ [(scope, id)]
      counters := { state.counters with events := state.counters.events + 1 } } := by
  simp [addFact, fresh]

/-- Adds, to one scope, a fact for each class of a list. -/
def addFacts (scope : Scope) (ids : List ClassId) : State :=
  ids.foldl (fun state id => state.addFact scope id) state

/-- Notes that a method appears in the graph. -/
def enroll (method : MethodId) : State :=
  { state with enrolled := state.enrolled.insert method }

/-- The methods of the graph that report to a scope, ascending. -/
def enrolledIn (granularity : Granularity) (scope : Scope) : List MethodId :=
  state.enrolled.toList.filter fun method => granularity.methodScope method = scope

/-- The fields stored to from a scope, ascending. -/
def storedFrom (scope : Scope) : List FieldId :=
  state.stores.toList.filterMap fun store => if store.1 = scope then some store.2 else none

/-- The scopes of methods that load from a scope of fields, ascending. -/
def loadersOf (scope : Scope) : List Scope :=
  state.loads.toList.filterMap fun load => if load.1 = scope then some load.2 else none

theorem mem_enrolledIn {granularity : Granularity} {scope : Scope} {method : MethodId} :
    method ∈ state.enrolledIn granularity scope ↔
      method ∈ state.enrolled ∧ granularity.methodScope method = scope := by
  simp [enrolledIn]

theorem mem_storedFrom {scope : Scope} {field : FieldId} :
    field ∈ state.storedFrom scope ↔ (scope, field) ∈ state.stores := SortedSet.mem_filterMap_fst

theorem mem_loadersOf {source loader : Scope} :
    loader ∈ state.loadersOf source ↔ (source, loader) ∈ state.loads :=
  SortedSet.mem_filterMap_fst

end State

/-- The counts of a finished construction. -/
structure Statistics where
  methodsProcessed : Nat
  events : Nat
  facts : Nat
  parkedCalls : Nat
  replayedCalls : Nat
  callsLeftParked : Nat
  cacheHits : Nat
  cacheMisses : Nat
  linkedTargets : Nat
  unresolvedDynamic : Nat
  skippedTargets : Nat
  kindMismatches : Nat
  deriving DecidableEq, Repr, Inhabited

/-- The counts as they stand in a state. -/
def State.statistics (state : State) : Statistics where
  methodsProcessed := state.counters.methodsProcessed
  events := state.counters.events
  facts := state.facts.size
  parkedCalls := state.counters.parkedCalls
  replayedCalls := state.counters.replayedCalls
  callsLeftParked := state.parked.size
  cacheHits := state.cache.hits
  cacheMisses := state.cache.misses
  linkedTargets := state.cache.linkedCount
  unresolvedDynamic := state.counters.unresolvedDynamic
  skippedTargets := state.counters.skippedTargets
  kindMismatches := state.counters.kindMismatches

end Construction

end CallFlow
