/-
**The indexes of a call graph are projections of its edges.**

Whatever is added to a call graph, and in whichever order, the row of a key holds what the edges with the
key lead to. Edges that differ in their kind only lead to the same, so a row says nothing about kinds. The
graph with indexes answers what the graph without them reads off its edges.

* `EdgeIndex.Projects`: the rows of an index are what a set of edges leads to.
* `IndexedCallGraph.InStep`: a graph with indexes and a graph without them hold the same.
* `IndexedCallGraph.InStep.perform`, `IndexedCallGraph.InStep.performAll`: operations keep them so.
* `IndexedCallGraph.performAll_exact`: the graph after a sequence of operations.
-/

import Mathlib.Data.List.Induction
import CallFlow.Graph.Indexed

namespace CallFlow

open OrderKey

/-! ### Rows -/

namespace EdgeIndex

variable {κ α : Type} [DecidableEq κ] [OrderKey α]

theorem row_cons (known key : κ) (here : SortedSet α) (rest : List (κ × SortedSet α)) :
    row ⟨(known, here) :: rest⟩ key = if key = known then here else row ⟨rest⟩ key := by
  unfold row
  rw [List.lookup_cons]
  by_cases same : key = known
  · rw [if_pos same, beq_iff_eq.mpr same]
    rfl
  · rw [if_neg same, beq_false_of_ne same]

/-- What is entered stands in the row of its key, and the other rows stay. -/
theorem row_enter (index : EdgeIndex κ α) (key : κ) (value : α) (other : κ) :
    (index.enter key value).row other =
      if other = key then (index.row key).insert value else index.row other := by
  obtain ⟨rows⟩ := index
  show row ⟨enterRow key value rows⟩ other = _
  induction rows with
  | nil =>
    rw [enterRow, row_cons]
    rfl
  | cons entry rest hyp =>
    obtain ⟨known, here⟩ := entry
    rw [enterRow, row_cons known key, row_cons known other]
    by_cases own : key = known
    · subst own
      rw [if_pos rfl, if_pos rfl, row_cons]
      split <;> rfl
    · rw [if_neg own, if_neg own, row_cons, hyp]
      by_cases same : other = known
      · subst same
        rw [if_pos rfl, if_pos rfl, if_neg (Ne.symm own)]
      · rw [if_neg same, if_neg same]

/-- The row of a key holds the values of the edges with the key. -/
def Projects (index : EdgeIndex κ α) (edges : SortedSet Edge) (key : Edge → κ) (value : Edge → α) :
    Prop :=
  ∀ place held, held ∈ index.row place ↔ ∃ edge ∈ edges, key edge = place ∧ value edge = held

variable {index : EdgeIndex κ α} {edges : SortedSet Edge} {key : Edge → κ} {value : Edge → α}

theorem projects_empty : Projects {} ∅ key value := fun place held => by
  have nothing : row {} place = (∅ : SortedSet α) := rfl
  simp [nothing]

/-- Entering the value of an edge in the row of its key is what a new edge asks for. -/
theorem Projects.enter (projects : index.Projects edges key value) (edge : Edge) :
    (index.enter (key edge) (value edge)).Projects (edges.insert edge) key value := by
  intro place held
  have before := projects place held
  rw [row_enter]
  simp only [SortedSet.mem_insert, or_and_right, exists_or, exists_eq_left, ← before]
  split
  · next same =>
    subst same
    simp [eq_comm]
  · next different =>
    simp [Ne.symm different]

end EdgeIndex

/-! ### What operations add -/

namespace GraphOperation

/-- The method that an operation finds reachable, with its call sites. -/
def discovery? : GraphOperation → Option (MethodId × List Site)
  | .discover method sites => some (method, sites)
  | .connect _ => none

/-- The methods that operations find reachable, with their call sites. -/
def discoveries (operations : List GraphOperation) : List (MethodId × List Site) :=
  operations.filterMap discovery?

@[simp] theorem discoveries_append (first second : List GraphOperation) :
    discoveries (first ++ second) = discoveries first ++ discoveries second := List.filterMap_append

@[simp] theorem discoveries_discover (method : MethodId) (sites : List Site) :
    discoveries [.discover method sites] = [(method, sites)] := rfl

@[simp] theorem discoveries_connect (edge : Edge) : discoveries [.connect edge] = [] := rfl

/-- Whether an operation adds something after earlier ones: a method that none of them has found, or an
edge that none of them has added. -/
def IsNew (earlier : List GraphOperation) : GraphOperation → Prop
  | .discover method _ => method ∉ (discoveries earlier).map Prod.fst
  | .connect edge => .connect edge ∉ earlier

instance (earlier : List GraphOperation) (operation : GraphOperation) :
    Decidable (operation.IsNew earlier) := by
  cases operation <;> exact instDecidableNot

/-- Operations add an edge, of whatever kind, from a site to a method. -/
def Calls (operations : List GraphOperation) (site : Site) (callee : MethodId) : Prop :=
  ∃ kind, .connect ⟨site, kind, callee⟩ ∈ operations

end GraphOperation

open GraphOperation (discoveries discoveries_append discoveries_discover discoveries_connect Calls)

namespace CallGraph

theorem discover_of_known {graph : CallGraph} {method : MethodId} (known : method ∈ graph.reachable)
    (sites : List Site) : graph.discover method sites = graph := by
  simp [discover, known]

theorem connect_of_known {graph : CallGraph} {edge : Edge} (known : edge ∈ graph.edges) :
    graph.connect edge = graph := by
  rw [connect, SortedSet.insert_of_mem known]

theorem entry_performAll (graph : CallGraph) (operations : List GraphOperation) :
    (graph.performAll operations).entry = graph.entry := by
  have kept (graph : CallGraph) (operation : GraphOperation) :
      (graph.perform operation).entry = graph.entry := by
    cases operation with
    | discover method sites =>
      show (graph.discover method sites).entry = graph.entry
      unfold discover
      split <;> rfl
    | connect edge => rfl
  induction operations generalizing graph with
  | nil => rfl
  | cons operation operations hyp => exact (hyp _).trans (kept graph operation)

theorem reachable_discover (graph : CallGraph) (method : MethodId) (sites : List Site) :
    (graph.discover method sites).reachable =
      if method ∈ graph.reachable then graph.reachable else graph.reachable ++ [method] := by
  split
  · next known => rw [discover_of_known known]
  · next fresh =>
    rw [graph.discover_of_fresh sites fresh]
    exact List.map_append

theorem mem_edges_perform {graph : CallGraph} {operation : GraphOperation} {edge : Edge} :
    edge ∈ (graph.perform operation).edges ↔ edge ∈ graph.edges ∨ operation = .connect edge := by
  cases operation with
  | discover method sites =>
    have kept : (graph.discover method sites).edges = graph.edges := by
      unfold discover
      split <;> rfl
    simp [perform, kept]
  | connect added =>
    simp [perform, connect, or_comm, eq_comm]

/-- The edges are those that were there and those that were added. -/
theorem mem_edges_performAll {graph : CallGraph} {operations : List GraphOperation} {edge : Edge} :
    edge ∈ (graph.performAll operations).edges ↔ edge ∈ graph.edges ∨ .connect edge ∈ operations := by
  induction operations generalizing graph with
  | nil => simp [performAll]
  | cons operation operations hyp =>
    show edge ∈ ((graph.perform operation).performAll operations).edges ↔ _
    rw [hyp, mem_edges_perform, List.mem_cons, or_assoc, @eq_comm _ operation]

/-- A reachable method keeps its call sites; another one gets those it is found with. -/
theorem lookup_perform {graph : CallGraph} {operation : GraphOperation} {method : MethodId} :
    (graph.perform operation).discovered.lookup method =
      (graph.discovered.lookup method).or ((discoveries [operation]).lookup method) := by
  cases operation with
  | discover found sites =>
    show (graph.discover found sites).discovered.lookup method = _
    rw [discoveries_discover]
    by_cases known : found ∈ graph.reachable
    · rw [discover_of_known known]
      by_cases same : method = found
      · subst same
        obtain ⟨pair, among, rfl⟩ := List.mem_map.mp known
        have isSome : (graph.discovered.lookup pair.1).isSome = true :=
          List.lookup_isSome_iff.mpr ⟨pair, among, beq_self_eq_true pair.1⟩
        rw [Option.or_of_isSome isSome]
      · rw [List.lookup_cons, beq_false_of_ne same]
        exact Option.or_none.symm
    · rw [graph.discover_of_fresh sites known, List.lookup_append]
  | connect edge => exact Option.or_none.symm

/-- The call sites of a method are those that were there, or else those of its first discovery. -/
theorem lookup_performAll {graph : CallGraph} {operations : List GraphOperation} {method : MethodId} :
    (graph.performAll operations).discovered.lookup method =
      (graph.discovered.lookup method).or ((discoveries operations).lookup method) := by
  induction operations generalizing graph with
  | nil => exact Option.or_none.symm
  | cons operation operations hyp =>
    show ((graph.perform operation).performAll operations).discovered.lookup method = _
    have parts : discoveries (operation :: operations) = discoveries [operation] ++ discoveries operations :=
      discoveries_append [operation] operations
    rw [hyp, lookup_perform, Option.or_assoc, parts, List.lookup_append]

theorem mem_edges_of_empty {entry : MethodId} {operations : List GraphOperation} {edge : Edge} :
    edge ∈ (performAll { entry } operations).edges ↔ .connect edge ∈ operations :=
  mem_edges_performAll.trans (or_iff_right (SortedSet.not_mem_empty edge))

/-- Where the kind of an edge does not count, there is an edge if there is a call. -/
theorem exists_edge_iff {entry : MethodId} {operations : List GraphOperation}
    (leads : Site → MethodId → Prop) :
    (∃ edge ∈ (performAll { entry } operations).edges, leads edge.site edge.callee) ↔
      ∃ site callee, Calls operations site callee ∧ leads site callee := by
  simp only [mem_edges_of_empty]
  constructor
  · rintro ⟨⟨site, kind, callee⟩, among, leading⟩
    exact ⟨site, callee, ⟨kind, among⟩, leading⟩
  · rintro ⟨site, callee, ⟨kind, among⟩, leading⟩
    exact ⟨⟨site, kind, callee⟩, among, leading⟩

/-- Only a new value at the end is kept when repetitions are left out. -/
theorem eraseDups_concat {α : Type} [DecidableEq α] (values : List α) (value : α) :
    (values ++ [value]).eraseDups =
      if value ∈ values then values.eraseDups else values.eraseDups ++ [value] := by
  rw [List.eraseDups_append]
  split
  · next known => simp [List.removeAll, known]
  · next fresh => simp [List.removeAll, fresh, List.eraseDups_cons]

/-- **The reachable methods are listed in the order of their first discoveries.** -/
theorem reachable_performAll (entry : MethodId) (operations : List GraphOperation) :
    (performAll { entry } operations).reachable = ((discoveries operations).map Prod.fst).eraseDups := by
  induction operations using List.reverseRecOn with
  | nil => rfl
  | append_singleton operations operation hyp =>
    have last : performAll { entry } (operations ++ [operation]) =
        (performAll { entry } operations).perform operation := List.foldl_append
    rw [last, discoveries_append, List.map_append]
    cases operation with
    | discover method sites =>
      show ((performAll { entry } operations).discover method sites).reachable = _
      rw [reachable_discover, hyp, discoveries_discover, List.map_singleton, eraseDups_concat]
      simp only [List.mem_eraseDups]
    | connect edge =>
      rw [discoveries_connect, List.map_nil, List.append_nil, ← hyp]
      rfl

end CallGraph

/-! ### The graph with indexes -/

namespace IndexedCallGraph

/-- A graph with indexes holds what a graph without them holds, and its indexes are projections of the
edges. -/
structure InStep (graph : IndexedCallGraph) (plain : CallGraph) : Prop where
  entry : graph.entry = plain.entry
  reachable : graph.reachable = plain.reachable
  known : ∀ method, method ∈ graph.known ↔ method ∈ plain.reachable
  sites : ∀ method, graph.sites.lookup method = plain.discovered.lookup method
  edges : graph.edges = plain.edges
  callees : graph.callees.Projects plain.edges Edge.caller Edge.callee
  callers : graph.callers.Projects plain.edges Edge.callee Edge.site
  siteCallees : graph.siteCallees.Projects plain.edges Edge.site Edge.callee

variable {graph : IndexedCallGraph} {plain : CallGraph}

theorem InStep.empty (entry : MethodId) : InStep { entry } { entry } where
  entry := rfl
  reachable := rfl
  known _ := Iff.rfl
  sites _ := rfl
  edges := rfl
  callees := EdgeIndex.projects_empty
  callers := EdgeIndex.projects_empty
  siteCallees := EdgeIndex.projects_empty

theorem InStep.discover (inStep : graph.InStep plain) (method : MethodId) (sites : List Site) :
    (graph.discover method sites).1.InStep (plain.discover method sites) := by
  unfold IndexedCallGraph.discover
  by_cases known : method ∈ plain.reachable
  · rw [CallGraph.discover_of_known known, if_pos ((inStep.known method).mpr known)]
    exact inStep
  · have absent : plain.discovered.lookup method = none := by
      rw [List.lookup_eq_none_iff]
      intro pair among
      refine bne_iff_ne.mpr fun same => known ?_
      exact List.mem_map.mpr ⟨pair, among, same.symm⟩
    rw [plain.discover_of_fresh sites known, if_neg (mt (inStep.known method).mp known)]
    refine { inStep with reachable := ?_, known := fun other => ?_, sites := fun other => ?_ }
    · show graph.reachable ++ [method] = (plain.discovered ++ [(method, sites)]).map Prod.fst
      rw [inStep.reachable, List.map_append]
      rfl
    · show other ∈ graph.known.insert method ↔ other ∈ (plain.discovered ++ [(method, sites)]).map Prod.fst
      rw [SortedSet.mem_insert, inStep.known, List.map_append, List.mem_append, or_comm]
      simp [CallGraph.reachable]
    · show ((method, sites) :: graph.sites).lookup other =
        (plain.discovered ++ [(method, sites)]).lookup other
      by_cases same : other = method
      · subst same
        rw [List.lookup_append, absent, List.lookup_cons_self, List.lookup_cons_self]
        rfl
      · rw [List.lookup_append, List.lookup_cons, List.lookup_cons, beq_false_of_ne same]
        exact (inStep.sites other).trans Option.or_none.symm

theorem InStep.connect (inStep : graph.InStep plain) (edge : Edge) :
    (graph.connect edge).1.InStep (plain.connect edge) := by
  unfold IndexedCallGraph.connect
  rw [inStep.edges]
  split
  · next known =>
    rw [CallGraph.connect_of_known known]
    exact inStep
  · exact { inStep with
      edges := rfl
      callees := inStep.callees.enter edge
      callers := inStep.callers.enter edge
      siteCallees := inStep.siteCallees.enter edge }

/-- **An operation keeps the indexes in step** with the graph without them. -/
theorem InStep.perform (inStep : graph.InStep plain) (operation : GraphOperation) :
    (graph.perform operation).1.InStep (plain.perform operation) := by
  cases operation with
  | discover method sites => exact inStep.discover method sites
  | connect edge => exact inStep.connect edge

/-- **So does every sequence of operations.** -/
theorem InStep.performAll (inStep : graph.InStep plain) (operations : List GraphOperation) :
    (graph.performAll operations).1.InStep (plain.performAll operations) := by
  induction operations generalizing graph plain with
  | nil => exact inStep
  | cons operation operations hyp => exact hyp (inStep.perform operation)

/-! ### What the operations answer -/

theorem performAll_cons (graph : IndexedCallGraph) (operation : GraphOperation)
    (operations : List GraphOperation) : graph.performAll (operation :: operations) =
      (((graph.perform operation).1.performAll operations).1,
        (graph.perform operation).2 :: ((graph.perform operation).1.performAll operations).2) := rfl

theorem length_performAll (graph : IndexedCallGraph) (operations : List GraphOperation) :
    (graph.performAll operations).2.length = operations.length := by
  induction operations generalizing graph with
  | nil => rfl
  | cons operation operations hyp => exact congrArg (· + 1) (hyp _)

/-- A sequence of operations can be cut anywhere. -/
theorem performAll_append (graph : IndexedCallGraph) (earlier later : List GraphOperation) :
    graph.performAll (earlier ++ later) =
      (((graph.performAll earlier).1.performAll later).1,
        (graph.performAll earlier).2 ++ ((graph.performAll earlier).1.performAll later).2) := by
  induction earlier generalizing graph with
  | nil => rfl
  | cons operation operations hyp =>
    rw [List.cons_append, performAll_cons, performAll_cons, hyp, List.cons_append]

theorem discover_snd {method : MethodId} {sites : List Site} :
    (graph.discover method sites).2 = true ↔ method ∉ graph.known := by
  unfold discover
  split <;> simp_all

theorem connect_snd {edge : Edge} : (graph.connect edge).2 = true ↔ edge ∉ graph.edges := by
  unfold connect
  split <;> simp_all

/-- **After earlier operations an operation answers whether it is new.** -/
theorem perform_snd {entry : MethodId} {earlier : List GraphOperation} {operation : GraphOperation} :
    ((IndexedCallGraph.performAll { entry } earlier).1.perform operation).2 = true ↔
      operation.IsNew earlier := by
  have inStep := (InStep.empty entry).performAll earlier
  cases operation with
  | discover method sites =>
    refine discover_snd.trans (not_congr ?_)
    rw [inStep.known, CallGraph.reachable_performAll, List.mem_eraseDups]
  | connect edge =>
    refine connect_snd.trans (not_congr ?_)
    rw [inStep.edges, CallGraph.mem_edges_of_empty]

/-- Every operation of a sequence answers whether it is new after those before it. -/
theorem performAll_snd (entry : MethodId) (before after : List GraphOperation)
    (operation : GraphOperation) :
    (IndexedCallGraph.performAll { entry } (before ++ operation :: after)).2[before.length]? =
      some (decide (operation.IsNew before)) := by
  have answer : ((IndexedCallGraph.performAll { entry } before).1.perform operation).2 =
      decide (operation.IsNew before) :=
    Bool.eq_iff_iff.mpr (perform_snd.trans decide_eq_true_iff.symm)
  have behind := Nat.le_of_eq (length_performAll { entry } before)
  rw [performAll_append]
  show (_ ++ _)[before.length]? = _
  rw [List.getElem?_append_right behind, length_performAll, Nat.sub_self, performAll_cons,
    List.getElem?_cons_zero, answer]

/-! ### Questions -/

/-- A graph with indexes answers every question as a graph without them does. -/
structure AnswersLike (graph : IndexedCallGraph) (plain : CallGraph) : Prop where
  entry : graph.entry = plain.entry
  reachable : graph.reachable = plain.reachable
  contains : ∀ method, graph.contains method = plain.contains method
  callSitesIn : ∀ method, graph.callSitesIn method = plain.callSitesIn method
  edgeList : graph.edgeList = plain.edges.toList
  calleesOf : ∀ method, graph.calleesOf method = plain.calleesOf method
  calleesAt : ∀ site, graph.calleesAt site = plain.calleesAt site
  callersOf : ∀ method, graph.callersOf method = plain.callersOf method

theorem InStep.answersLike (inStep : graph.InStep plain) : graph.AnswersLike plain where
  entry := inStep.entry
  reachable := inStep.reachable
  contains method := decide_eq_decide.mpr (inStep.known method)
  callSitesIn method := congrArg (Option.getD · []) (inStep.sites method)
  edgeList := congrArg SortedSet.toList inStep.edges
  calleesOf method := SortedSet.ascending_unique (SortedSet.ascending _) (SortedSet.ascending _)
    fun callee => (inStep.callees method callee).trans plain.mem_calleesOf.symm
  calleesAt site := SortedSet.ascending_unique (SortedSet.ascending _) (SortedSet.ascending _)
    fun callee => (inStep.siteCallees site callee).trans plain.mem_calleesAt.symm
  callersOf method := SortedSet.ascending_unique (SortedSet.ascending _) (SortedSet.ascending _)
    fun site => (inStep.callers method site).trans plain.mem_callersOf.symm

/-- A list names in ascending order what has a property. -/
structure Enumerates {α : Type} [OrderKey α] (values : List α) (holds : α → Prop) : Prop where
  ascending : values.Pairwise Before
  complete : ∀ value, value ∈ values ↔ holds value

/-- What has a property is named in one way. -/
theorem Enumerates.unique {α : Type} [OrderKey α] {first second : List α} {holds others : α → Prop}
    (enumerates : Enumerates first holds) (again : Enumerates second others)
    (same : ∀ value, holds value ↔ others value) : first = second :=
  SortedSet.ascending_unique enumerates.ascending again.ascending fun value => by
    rw [enumerates.complete, again.complete, same]

/-- What a graph answers says what was added to it: the edges, and where they lead to, in ascending order,
the methods in the order of their first discoveries. -/
structure Exact (graph : IndexedCallGraph) (entry : MethodId) (operations : List GraphOperation) :
    Prop where
  entry : graph.entry = entry
  edgeList : Enumerates graph.edgeList fun edge => .connect edge ∈ operations
  edgeCount : graph.edgeCount = graph.edgeList.length
  calleesOf : ∀ method, Enumerates (graph.calleesOf method) fun callee =>
    ∃ site, Calls operations site callee ∧ site.method = method
  calleesAt : ∀ site, Enumerates (graph.calleesAt site) fun callee => Calls operations site callee
  callersOf : ∀ method, Enumerates (graph.callersOf method) fun site => Calls operations site method
  reachable : graph.reachable = ((discoveries operations).map Prod.fst).eraseDups
  contains : ∀ method, graph.contains method = true ↔ method ∈ graph.reachable
  callSitesIn : ∀ method, graph.callSitesIn method = ((discoveries operations).lookup method).getD []

/-- Edges ascend by the method and the index of their site, then by kind, then by callee. -/
example (edge : Edge) : key edge =
    [edge.site.method.index, edge.site.index, edge.kind.rank, edge.callee.index] := rfl

theorem exact_performAll (entry : MethodId) (operations : List GraphOperation) :
    (IndexedCallGraph.performAll { entry } operations).1.Exact entry operations := by
  have inStep := (InStep.empty entry).performAll operations
  refine ⟨?_, ⟨SortedSet.ascending _, fun edge => ?_⟩, rfl,
    fun method => ⟨SortedSet.ascending _, fun callee => ?_⟩,
    fun site => ⟨SortedSet.ascending _, fun callee => ?_⟩,
    fun method => ⟨SortedSet.ascending _, fun site => ?_⟩, ?_, fun method => ?_, fun method => ?_⟩
  · rw [inStep.entry, CallGraph.entry_performAll]
  · rw [← CallGraph.mem_edges_of_empty, ← inStep.edges]
    rfl
  · refine (inStep.callees method callee).trans ?_
    exact (CallGraph.exists_edge_iff fun site other => site.method = method ∧ other = callee).trans
      (by simp)
  · refine (inStep.siteCallees site callee).trans ?_
    exact (CallGraph.exists_edge_iff fun here other => here = site ∧ other = callee).trans (by simp)
  · refine (inStep.callers method site).trans ?_
    exact (CallGraph.exists_edge_iff fun here other => other = method ∧ here = site).trans (by simp)
  · rw [inStep.reachable, CallGraph.reachable_performAll]
  · rw [inStep.reachable, ← inStep.known]
    exact decide_eq_true_iff
  · rw [inStep.answersLike.callSitesIn, CallGraph.callSitesIn, CallGraph.lookup_performAll]
    rfl

/-- **A call graph after a sequence of operations** answers as the graph without indexes, and what it
answers says what was added to it. An operation has added something if it is the first one to add it. Where
edges lead to does not depend on their kinds: where another sequence adds edges from the same sites to the
same methods, it is the same. -/
theorem performAll_exact {entry : MethodId} {operations : List GraphOperation}
    {graph : IndexedCallGraph} {answers : List Bool}
    (performed : IndexedCallGraph.performAll { entry } operations = (graph, answers)) :
    graph.AnswersLike (CallGraph.performAll { entry } operations) ∧ graph.Exact entry operations ∧
    (∀ before operation after, operations = before ++ operation :: after →
      answers[before.length]? = some (decide (operation.IsNew before))) ∧
    ∀ others other otherAnswers,
      IndexedCallGraph.performAll { entry } others = (other, otherAnswers) →
      (∀ site callee, Calls operations site callee ↔ Calls others site callee) →
      (∀ method, graph.calleesOf method = other.calleesOf method) ∧
      (∀ site, graph.calleesAt site = other.calleesAt site) ∧
      ∀ method, graph.callersOf method = other.callersOf method := by
  obtain ⟨rfl, rfl⟩ := Prod.mk.inj performed
  have exact := exact_performAll entry operations
  refine ⟨((InStep.empty entry).performAll operations).answersLike, exact, ?_, ?_⟩
  · rintro before operation after rfl
    exact performAll_snd entry before after operation
  · intro others other otherAnswers otherPerformed same
    obtain ⟨rfl, rfl⟩ := Prod.mk.inj otherPerformed
    have otherExact := exact_performAll entry others
    refine ⟨fun method => ?_, fun site => ?_, fun method => ?_⟩
    · exact (exact.calleesOf method).unique (otherExact.calleesOf method) fun callee =>
        exists_congr fun site => and_congr_left' (same site callee)
    · exact (exact.calleesAt site).unique (otherExact.calleesAt site) (same site)
    · exact (exact.callersOf method).unique (otherExact.callersOf method) fun site => same site method

/-- A method is found twice, and a call is added twice, with two kinds. -/
def sampleOperations : List GraphOperation :=
  [.discover ⟨0⟩ [⟨⟨0⟩, 2⟩, ⟨⟨0⟩, 5⟩], .discover ⟨0⟩ [], .connect ⟨⟨⟨0⟩, 5⟩, .static, ⟨3⟩⟩,
    .connect ⟨⟨⟨0⟩, 2⟩, .virtual, ⟨3⟩⟩, .connect ⟨⟨⟨0⟩, 2⟩, .static, ⟨3⟩⟩,
    .connect ⟨⟨⟨0⟩, 2⟩, .virtual, ⟨3⟩⟩]

theorem performAll_exact_sample : ∃ graph : IndexedCallGraph,
    IndexedCallGraph.performAll { entry := ⟨0⟩ } sampleOperations =
      (graph, [true, false, true, true, true, false]) ∧
    graph.Exact ⟨0⟩ sampleOperations ∧ graph.edgeCount = 3 ∧
    graph.callersOf ⟨3⟩ = [⟨⟨0⟩, 2⟩, ⟨⟨0⟩, 5⟩] ∧
    graph.callSitesIn ⟨0⟩ = [⟨⟨0⟩, 2⟩, ⟨⟨0⟩, 5⟩] := by
  have performed : IndexedCallGraph.performAll { entry := ⟨0⟩ } sampleOperations =
      ((IndexedCallGraph.performAll { entry := ⟨0⟩ } sampleOperations).1,
        [true, false, true, true, true, false]) := Prod.ext rfl (by decide +kernel)
  exact ⟨_, performed, (performAll_exact performed).2.1, by decide +kernel, by decide +kernel,
    by decide +kernel⟩

end IndexedCallGraph

end CallFlow
