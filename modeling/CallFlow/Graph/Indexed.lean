/-
**Call graphs with indexes of their edges.**

So that the edges need not be walked for every question, three indexes keep what an edge leads to: the
callees of a method, the callees of a site and the sites that call a method. An index is a list of rows, one
for each key, and a row is an ascending set. The methods found reachable are kept twice, as a list and as a
set, and their call sites are kept beside them. Neither a method nor an edge that is known is entered
again.

* `EdgeIndex.row`, `EdgeIndex.enter`: the row of a key, and one more value in it.
* `IndexedCallGraph`: a call graph with its indexes.
* `IndexedCallGraph.performAll`: the graph after a sequence of operations, and what each of them answers.
-/

import CallFlow.Graph.Basic

namespace CallFlow

/-! ### Indexes -/

/-- Rows of values, by their keys. -/
structure EdgeIndex (κ α : Type) [OrderKey α] where
  rows : List (κ × SortedSet α) := []

namespace EdgeIndex

variable {κ α : Type} [DecidableEq κ] [OrderKey α]

/-- The row of a key; it is empty as long as nothing was entered for the key. -/
def row (index : EdgeIndex κ α) (key : κ) : SortedSet α := (index.rows.lookup key).getD ∅

/-- The rows with one more value in the row of a key. -/
def enterRow (key : κ) (value : α) : List (κ × SortedSet α) → List (κ × SortedSet α)
  | [] => [(key, SortedSet.insert value ∅)]
  | (known, row) :: rest =>
    if key = known then (known, row.insert value) :: rest
    else (known, row) :: enterRow key value rest

/-- The index with one more value in the row of a key. -/
def enter (index : EdgeIndex κ α) (key : κ) (value : α) : EdgeIndex κ α :=
  ⟨enterRow key value index.rows⟩

end EdgeIndex

/-! ### Graphs -/

/-- A call graph with indexes of its edges. -/
structure IndexedCallGraph where
  entry : MethodId
  /-- The reachable methods, in order of discovery. -/
  reachable : List MethodId := []
  /-- The reachable methods again. -/
  known : SortedSet MethodId := ∅
  edges : SortedSet Edge := ∅
  /-- The call sites of the reachable methods, the latest entries first. -/
  sites : List (MethodId × List Site) := []
  callees : EdgeIndex MethodId MethodId := {}
  callers : EdgeIndex MethodId Site := {}
  siteCallees : EdgeIndex Site MethodId := {}

namespace IndexedCallGraph

variable (graph : IndexedCallGraph)

/-- The graph with one more reachable method, and whether it was not reachable before. -/
def discover (method : MethodId) (sites : List Site) : IndexedCallGraph × Bool :=
  if method ∈ graph.known then (graph, false)
  else
    ({ graph with
        known := graph.known.insert method
        reachable := graph.reachable ++ [method]
        sites := (method, sites) :: graph.sites }, true)

/-- The graph with one more edge, and whether the edge is new. -/
def connect (edge : Edge) : IndexedCallGraph × Bool :=
  if edge ∈ graph.edges then (graph, false)
  else
    ({ graph with
        edges := graph.edges.insert edge
        callees := graph.callees.enter edge.caller edge.callee
        callers := graph.callers.enter edge.callee edge.site
        siteCallees := graph.siteCallees.enter edge.site edge.callee }, true)

/-- Whether a method is reachable. -/
def contains (method : MethodId) : Bool := method ∈ graph.known

/-- The edges, ascending. -/
def edgeList : List Edge := graph.edges.toList

/-- The number of edges. -/
def edgeCount : Nat := graph.edges.size

/-- The methods that may run at some site of a method. -/
def calleesOf (method : MethodId) : List MethodId := (graph.callees.row method).toList

/-- The methods that may run at a site. -/
def calleesAt (site : Site) : List MethodId := (graph.siteCallees.row site).toList

/-- The sites where a method may run. -/
def callersOf (method : MethodId) : List Site := (graph.callers.row method).toList

/-- The call sites of a reachable method; other methods have none. -/
def callSitesIn (method : MethodId) : List Site := (graph.sites.lookup method).getD []

end IndexedCallGraph

/-! ### Operations -/

/-- What can be added to a call graph. -/
inductive GraphOperation where
  | discover (method : MethodId) (sites : List Site)
  | connect (edge : Edge)
  deriving DecidableEq, Repr, Inhabited

namespace CallGraph

/-- The graph without indexes after an operation. -/
def perform (graph : CallGraph) : GraphOperation → CallGraph
  | .discover method sites => graph.discover method sites
  | .connect edge => graph.connect edge

/-- The graph without indexes after a sequence of operations. -/
def performAll : CallGraph → List GraphOperation → CallGraph := List.foldl perform

end CallGraph

namespace IndexedCallGraph

/-- The graph after an operation, and whether the operation has added something. -/
def perform (graph : IndexedCallGraph) : GraphOperation → IndexedCallGraph × Bool
  | .discover method sites => graph.discover method sites
  | .connect edge => graph.connect edge

/-- The graph after a sequence of operations, and for each of them whether it has added something. -/
def performAll (graph : IndexedCallGraph) : List GraphOperation → IndexedCallGraph × List Bool
  | [] => (graph, [])
  | operation :: operations =>
    let (next, answer) := graph.perform operation
    let (last, answers) := performAll next operations
    (last, answer :: answers)

end IndexedCallGraph

end CallFlow
