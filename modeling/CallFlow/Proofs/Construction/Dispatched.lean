/-
**The linked targets and the edges agree.**

When a virtual call is linked, the method is remembered for its target before the edge is added. So
every edge of a virtual call is remembered. The other way round, what is remembered is linkable, and
in the end every linkable call has its edge.

* `SortedSet.size_eq_sum`: the size of a set of pairs, counted by first components.
* `Construction.Reaches.remembered`: the edges of virtual calls are remembered, in every state.
* `Construction.Reaches.exists_edge_of_linked`: what is remembered has an edge in every closed solution.
* `Construction.mem_linked_of_idle`: in the end the two agree.
* `buildGraph_dispatched`: the table of a graph that is built, read off its edges.
-/

import Mathlib.Algebra.BigOperators.Group.List.Lemmas
import Mathlib.Algebra.GroupWithZero.Nat
import CallFlow.Proofs.Construction.Solution
import CallFlow.Proofs.Hierarchy.TargetCache

namespace CallFlow

open OrderKey (Before)

/-- **The size of a set of pairs** is the sum, over the first components, of how many second components
each of them has. -/
theorem SortedSet.size_eq_sum {α β : Type} [OrderKey α] [OrderKey β] [DecidableEq α]
    (set : SortedSet (α × β)) :
    set.size = ((SortedSet.ofList (set.toList.map Prod.fst)).toList.map fun first =>
      (set.toList.filterMap fun pair => if pair.1 = first then some pair.2 else none).length).sum := by
  have perm : (SortedSet.ofList (set.toList.map Prod.fst)).toList.Perm
      (set.toList.map Prod.fst).dedup := by
    rw [List.perm_ext_iff_of_nodup (SortedSet.nodup_toList _) (List.nodup_dedup _)]
    intro first
    rw [SortedSet.mem_toList, SortedSet.mem_ofList, List.mem_dedup]
  have seconds (first : α) :
      (set.toList.filterMap fun pair => if pair.1 = first then some pair.2 else none).length =
        (set.toList.map Prod.fst).count first := by
    rw [List.length_filterMap_eq_countP, List.count, List.countP_map]
    refine List.countP_congr fun pair _ => ?_
    by_cases same : pair.1 = first
    · simp [same]
    · simp [same]
  rw [(perm.map _).sum_eq]
  simp only [seconds]
  rw [List.sum_map_count_dedup_eq_length, List.length_map]
  rfl

/-- As many methods are linked as the table of linked targets lists. -/
theorem TargetCache.linkedCount_eq_sum (cache : TargetCache) :
    cache.linkedCount = (cache.linkedTargets.map fun row => row.2.length).sum := by
  unfold TargetCache.linkedCount TargetCache.linkedTargets
  rw [SortedSet.size_eq_sum, List.map_map]
  rfl

/-- An edge starts at a virtual call with a target. -/
def Edge.IsFor (program : Program) (target : Target) (edge : Edge) : Prop :=
  ∃ call, program.call? edge.site = some call ∧ call.kind.isVirtual = true ∧ call.target = target

namespace Construction

variable {setting : Setting} {entry : MethodId} {past : List State} {state : State}

/-- Every edge of a virtual call is remembered for the target of the call. -/
def Remembered (setting : Setting) (state : State) : Prop :=
  ∀ edge ∈ state.graph.edges, ∀ call, setting.program.call? edge.site = some call →
    call.kind.isVirtual = true → (call.target, edge.callee) ∈ state.cache.linked

/-- What is remembered stays remembered, and a new edge of a virtual call is remembered already. -/
theorem Change.remembered {before after : State} (remembered : Remembered setting before)
    (change : Change setting before after) : Remembered setting after := by
  cases change with
  | @fact scope id tracked fresh cause =>
    rw [before.addFact_of_fresh fresh]
    exact remembered
  | @edge site call receiver callee linkable fresh recorded =>
    intro edge member other isCall virtual
    rcases SortedSet.mem_insert.mp member with rfl | old
    · rw [linkable.isCall] at isCall
      cases isCall
      exact recorded virtual
    · exact remembered edge old other isCall virtual
  | linked linkable virtual =>
    intro edge member call isCall virtual
    exact SortedSet.mem_insert.mpr (.inr (remembered edge member call isCall virtual))
  | asked answer =>
    intro edge member call isCall virtual
    show _ ∈ TargetCache.linked _
    rw [TargetCache.linked_ask answer]
    exact remembered edge member call isCall virtual
  | parked tracked waits absent fresh => exact remembered
  | stored reachable stands holds => exact remembered
  | loaded reachable stands holds => exact remembered
  | remarked diagnostic remark => exact remembered

/-- Taking something off a queue leaves what is remembered. -/
theorem Takes.cache {before after : State} (takes : Takes setting before after) :
    after.cache = before.cache := by
  cases takes <;> rfl

/-- **The edges of virtual calls are remembered.** -/
theorem Reaches.remembered (reaches : Reaches setting entry past state) :
    Remembered setting state := by
  refine reaches.preserve (Remembered setting)
    (fun edge member => absurd member (SortedSet.not_mem_empty edge)) ?_
    fun remembered change => change.remembered remembered
  intro before after _ remembered takes edge member call isCall virtual
  rw [takes.cache]
  exact remembered edge (takes.edges ▸ member) call isCall virtual

/-- A method is linked for a target by an edge of a virtual call with that target. -/
def LinkedBy (setting : Setting) (edges : Set Edge) (target : Target) (callee : MethodId) : Prop :=
  ∃ site call, setting.program.call? site = some call ∧ call.kind.isVirtual = true ∧
    call.target = target ∧ ⟨site, call.kind, callee⟩ ∈ edges

/-- **What is remembered has an edge in every closed solution.** -/
theorem Reaches.exists_edge_of_linked {solution : Solution}
    (reaches : Reaches setting entry past state) (closed : Closed setting entry solution)
    {target : Target} {callee : MethodId} (linked : (target, callee) ∈ state.cache.linked) :
    LinkedBy setting solution.edges target callee := by
  have both : Within setting solution state ∧ ∀ pair ∈ state.cache.linked,
      LinkedBy setting solution.edges pair.1 pair.2 := by
    refine reaches.preserve (fun state => Within setting solution state ∧
      ∀ pair ∈ state.cache.linked, LinkedBy setting solution.edges pair.1 pair.2) ?_ ?_ ?_
    · exact ⟨.initial closed, fun pair member => absurd member (SortedSet.not_mem_empty pair)⟩
    · rintro before after _ ⟨within, sound⟩ takes
      rw [takes.cache]
      exact ⟨within.take takes, sound⟩
    · rintro before after ⟨within, sound⟩ change
      refine ⟨within.change closed change, ?_⟩
      cases change with
      | @fact scope id tracked fresh cause =>
        rw [before.addFact_of_fresh fresh]
        exact sound
      | edge linkable fresh recorded => exact sound
      | @linked site call receiver callee linkable virtual =>
        intro pair member
        rcases SortedSet.mem_insert.mp member with rfl | old
        · exact ⟨site, call, linkable.isCall, virtual, rfl, (within.linkable closed linkable).1⟩
        · exact sound pair old
      | asked answer =>
        show ∀ pair ∈ TargetCache.linked _, _
        rw [TargetCache.linked_ask answer]
        exact sound
      | parked tracked waits absent fresh => exact sound
      | stored reachable stands holds => exact sound
      | loaded reachable stands holds => exact sound
      | remarked diagnostic remark => exact sound
  exact both.2 (target, callee) linked

/-- **In the end a method is linked for a target if an edge of a virtual call with that target leads
to it.** -/
theorem mem_linked_of_idle (reaches : Reaches setting entry past state)
    (idle : step setting state = none) {target : Target} {callee : MethodId} :
    (target, callee) ∈ state.cache.linked ↔
      LinkedBy setting { edge | edge ∈ state.graph.edges } target callee := by
  constructor
  · exact reaches.exists_edge_of_linked (closed_of_idle reaches idle)
  · rintro ⟨site, call, isCall, virtual, rfl, linked⟩
    exact reaches.remembered _ linked call isCall virtual

/-- In the end a method is linked for a target if an edge for the target leads to it. -/
theorem mem_linked_iff_isFor (reaches : Reaches setting entry past state)
    (idle : step setting state = none) (target : Target) (callee : MethodId) :
    (target, callee) ∈ state.cache.linked ↔
      ∃ edge ∈ state.graph.edges, edge.IsFor setting.program target ∧ edge.callee = callee := by
  constructor
  · intro linked
    obtain ⟨site, call, isCall, virtual, isTarget, edge⟩ :=
      (mem_linked_of_idle reaches idle).mp linked
    exact ⟨_, edge, ⟨call, isCall, virtual, isTarget⟩, rfl⟩
  · rintro ⟨edge, member, ⟨call, isCall, virtual, rfl⟩, rfl⟩
    exact reaches.remembered edge member call isCall virtual

end Construction

/-- **The dispatched table and the graph agree.** The table of a graph that is built lists, ascending and
each once, the targets for which an edge starts at a virtual call; with each of them, ascending and each
once, the methods to which all these edges lead; and the lengths of these lists are counted. -/
theorem buildGraph_dispatched {program : Program} {granularity : Granularity} {entry : MethodId}
    {output : BuildOutput} (built : buildGraph program granularity entry = .ok output) :
    (output.dispatched.map Prod.fst).Pairwise Before ∧
    (∀ target, target ∈ output.dispatched.map Prod.fst ↔
      ∃ edge ∈ output.graph.edges, edge.IsFor program target) ∧
    (∀ target callees, (target, callees) ∈ output.dispatched → callees.Pairwise Before ∧
      ∀ callee, callee ∈ callees ↔
        ∃ edge ∈ output.graph.edges, edge.IsFor program target ∧ edge.callee = callee) ∧
    output.statistics.linkedTargets = (output.dispatched.map fun row => row.2.length).sum := by
  obtain ⟨run, constructed, finished, rfl⟩ := buildGraph_eq_ok.mp built
  obtain ⟨hierarchy, found, rfl⟩ := constructGraph_eq_ok.mp constructed
  obtain rfl := Hierarchy.program_of? found
  obtain ⟨past, reaches, idle⟩ := reaches_of_finished finished
  have linked := Construction.mem_linked_iff_isFor reaches idle
  refine ⟨TargetCache.pairwise_linkedTargets, fun target => ⟨fun listed => ?_, fun edges => ?_⟩,
    fun target callees row => ?_, TargetCache.linkedCount_eq_sum _⟩
  · obtain ⟨⟨_, callees⟩, row, rfl⟩ := List.mem_map.mp listed
    obtain ⟨rfl, some⟩ := TargetCache.mem_linkedTargets.mp row
    obtain ⟨callee, member⟩ := List.exists_mem_of_ne_nil _ some
    obtain ⟨edge, among, isFor, _⟩ := (linked _ callee).mp (TargetCache.mem_linkedFor.mp member)
    exact ⟨edge, among, isFor⟩
  · obtain ⟨edge, among, isFor⟩ := edges
    obtain ⟨callees, row, _⟩ := TargetCache.exists_mem_linkedTargets.mpr
      ((linked target edge.callee).mpr ⟨edge, among, isFor, rfl⟩)
    exact List.mem_map.mpr ⟨_, row, rfl⟩
  · obtain ⟨rfl, _⟩ := TargetCache.mem_linkedTargets.mp row
    refine ⟨TargetCache.pairwise_linkedFor target, fun callee => ?_⟩
    rw [TargetCache.mem_linkedFor]
    exact linked target callee

/-- The area of a shape is dispatched to the squares, by the one edge. -/
theorem buildGraph_dispatched_shapes :
    ∃ output, buildGraph .shapes (Variant.xta.granularity .shapes) ⟨0⟩ = .ok output ∧
      output.dispatched = [(⟨⟨1⟩, ⟨1⟩⟩, [⟨2⟩])] ∧ output.statistics.linkedTargets = 1 ∧
      ∃ edge ∈ output.graph.edges, edge.IsFor .shapes ⟨⟨1⟩, ⟨1⟩⟩ ∧ edge.callee = ⟨2⟩ := by
  obtain ⟨output, built, dispatched⟩ :
      ∃ output, buildGraph .shapes (Variant.xta.granularity .shapes) ⟨0⟩ = .ok output ∧
        output.dispatched = [(⟨⟨1⟩, ⟨1⟩⟩, [⟨2⟩])] := ⟨_, rfl, rfl⟩
  obtain ⟨_, _, rows, count⟩ := buildGraph_dispatched built
  have row : (⟨⟨1⟩, ⟨1⟩⟩, [⟨2⟩]) ∈ output.dispatched := by rw [dispatched]; exact List.mem_cons_self
  rw [dispatched] at count
  exact ⟨output, built, dispatched, count, ((rows _ _ row).2 ⟨2⟩).mp List.mem_cons_self⟩

end CallFlow
