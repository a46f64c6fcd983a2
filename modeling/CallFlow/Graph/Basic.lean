/-
**Call graphs.**

A call graph holds the methods found reachable, in the order of their discovery and with their call
sites, and a set of edges from call sites to called methods. All other views are read off the edges.

* `CallGraph.edges`: the edges are ordered by site, then by kind, then by callee.
* `CallGraph.calleesOf`, `CallGraph.callersOf`, `CallGraph.calleesAt`: the views, without
  repetitions.
-/

import CallFlow.Program.CallKind
import CallFlow.Order.SortedSet

namespace CallFlow

/-- An edge from a call site to a method that may run there. -/
structure Edge where
  site : Site
  kind : CallKind
  callee : MethodId
  deriving DecidableEq, Repr, Inhabited

/-- Edges are ordered by site, then by kind, then by callee. -/
instance : OrderKey Edge where
  key edge := OrderKey.key (edge.site, edge.kind, edge.callee)
  width := OrderKey.width (Site × CallKind × MethodId)
  length_key _ := OrderKey.length_key _
  key_injective := by
    rintro ⟨_, _, _⟩ ⟨_, _, _⟩ equal
    have same := OrderKey.key_injective equal
    simp only [Prod.mk.injEq] at same
    obtain ⟨rfl, rfl, rfl⟩ := same
    rfl

/-- The method that an edge starts in. -/
def Edge.caller (edge : Edge) : MethodId := edge.site.method

/-- Reachable methods and call edges found from an entry method. -/
structure CallGraph where
  entry : MethodId
  /-- The reachable methods, in order of discovery, with their call sites. -/
  discovered : List (MethodId × List Site) := []
  edges : SortedSet Edge := ∅
  deriving Inhabited

namespace CallGraph

variable (graph : CallGraph)

/-- The reachable methods in order of discovery. -/
def reachable : List MethodId := graph.discovered.map Prod.fst

/-- Whether a method is reachable. -/
def contains (method : MethodId) : Bool := method ∈ graph.reachable

@[simp] theorem contains_iff {method : MethodId} :
    graph.contains method = true ↔ method ∈ graph.reachable := decide_eq_true_iff

/-- The call sites of a reachable method; other methods have none. -/
def callSitesIn (method : MethodId) : List Site := (graph.discovered.lookup method).getD []

/-- The graph with one more reachable method, or the same graph if the method is reachable. -/
def discover (method : MethodId) (sites : List Site) : CallGraph :=
  if graph.contains method then graph
  else { graph with discovered := graph.discovered ++ [(method, sites)] }

theorem discover_of_fresh {method : MethodId} (sites : List Site)
    (fresh : method ∉ graph.reachable) :
    graph.discover method sites =
      { graph with discovered := graph.discovered ++ [(method, sites)] } := by
  simp [discover, fresh]

/-- The graph with one more edge, or the same graph if it has the edge. -/
def connect (edge : Edge) : CallGraph := { graph with edges := graph.edges.insert edge }

/-- The methods that may run at some site of a method, ascending. -/
def calleesOf (method : MethodId) : List MethodId :=
  (SortedSet.ofList ((graph.edges.filter fun edge => edge.caller = method).toList.map
    Edge.callee)).toList

/-- The methods that may run at a site, ascending. -/
def calleesAt (site : Site) : List MethodId :=
  (SortedSet.ofList ((graph.edges.filter fun edge => edge.site = site).toList.map
    Edge.callee)).toList

/-- The sites where a method may run, ascending. -/
def callersOf (method : MethodId) : List Site :=
  (SortedSet.ofList ((graph.edges.filter fun edge => edge.callee = method).toList.map
    Edge.site)).toList

theorem mem_calleesOf {caller callee : MethodId} :
    callee ∈ graph.calleesOf caller ↔ ∃ edge ∈ graph.edges, edge.caller = caller ∧ edge.callee = callee := by
  simp [calleesOf, and_assoc]

theorem mem_calleesAt {site : Site} {callee : MethodId} :
    callee ∈ graph.calleesAt site ↔ ∃ edge ∈ graph.edges, edge.site = site ∧ edge.callee = callee := by
  simp [calleesAt, and_assoc]

theorem mem_callersOf {site : Site} {callee : MethodId} :
    site ∈ graph.callersOf callee ↔ ∃ edge ∈ graph.edges, edge.callee = callee ∧ edge.site = site := by
  simp [callersOf, and_assoc]

end CallGraph

end CallFlow
