/-
**The order of statements does not matter.**

If the statements of every body are put into another order, each program embeds into the other one.
So the two constructions finish together, each inside the other, and come to the same methods, facts
and linked targets, and to the same edges with their sites moved. The queues are used in another
order, but what has been counted in the end can be told from what was found: only how many calls were
parked for a while depends on the order.

* `Program.Reordered`: a program with the statements of its bodies in another order.
* `Program.Rearranged`: two programs that embed into each other.
* `Construction.construct_rearranged`: what the two constructions come to.
* `Construction.Counted.moved`, `Construction.statistics_rearranged`: the counts are the same.
* `buildGraph_reordered`: the graphs are the same.
-/

import CallFlow.Proofs.Construction.Accounts
import CallFlow.Proofs.Construction.Embedding
import CallFlow.Proofs.Construction.Parking
import CallFlow.Proofs.Construction.Termination
import CallFlow.Proofs.Program.Renumbering

namespace CallFlow

/-- The parked calls with their sites at their places. -/
def ParkedCall.moving (place : Equiv.Perm Site) : Equiv.Perm ParkedCall where
  toFun parked := { parked with site := place parked.site }
  invFun parked := { parked with site := place.symm parked.site }
  left_inv parked := by simp
  right_inv parked := by simp

/-- The outputs are the same, but for the sites of the edges, which are at their places, the order in
which methods were found, and how many calls have been parked and replayed. -/
structure BuildOutput.Moved (place : Site → Site) (output other : BuildOutput) : Prop where
  reachable : other.graph.reachable.Perm output.graph.reachable
  edges : ∀ edge, edge ∈ other.graph.edges ↔ ∃ original ∈ output.graph.edges, original.moved place = edge
  dispatched : other.dispatched = output.dispatched
  statistics : { other.statistics with
    parkedCalls := output.statistics.parkedCalls
    replayedCalls := output.statistics.replayedCalls } = output.statistics

/-! ### Rearranged programs -/

namespace Program

/-- The programs embed into each other: every statement of the first one stands in the second one at
its place, and there are no others. -/
structure Rearranged (first second : Program) (place : Equiv.Perm Site) : Prop where
  there : first.Embeds second place
  back : second.Embeds first place.symm

namespace Rearranged

variable {first second : Program} {place : Equiv.Perm Site}

theorem symm (rearranged : first.Rearranged second place) :
    second.Rearranged first place.symm :=
  ⟨rearranged.back, rearranged.there⟩

/-- **The same call stands at the place of a site.** -/
theorem call?_eq (rearranged : first.Rearranged second place) (site : Site) :
    second.call? (place site) = first.call? site := by
  ext call
  constructor
  · intro isCall
    have original := rearranged.back.call? isCall
    rwa [Equiv.symm_apply_apply] at original
  · exact rearranged.there.call?

/-- The call sites of a method are those of the other program at their places. -/
theorem perm_callSites (rearranged : first.Rearranged second place) (method : MethodId) :
    (second.callSites method).Perm ((first.callSites method).map place) := by
  have distinct (program : Program) : (program.callSites method).Nodup :=
    (program.pairwise_callSites method).imp fun less same => by
      rw [same] at less
      exact Nat.lt_irrefl _ less
  apply perm_map_of_mem (distinct first) (distinct second)
  intro site
  rw [mem_callSites, mem_callSites, rearranged.there.method, rearranged.call?_eq]

end Rearranged

end Program

namespace Construction

variable {first second : Hierarchy} {granularity : Granularity} {place : Equiv.Perm Site}
  {entry : MethodId}

section Rearranged

variable (rearranged : first.program.Rearranged second.program place)
include rearranged

/-! ### What the two constructions come to -/

/-- **One construction finishes if the other one does**, and then they come to the same methods, facts
and linked targets, and to the same edges at their places. -/
theorem construct_rearranged (inRange : first.program.InRange)
    (otherInRange : second.program.InRange)
    (finished : (construct ⟨second, granularity⟩ entry).ending = .finished) :
    (construct ⟨first, granularity⟩ entry).ending = .finished ∧
      (construct ⟨first, granularity⟩ entry).state.solution =
        (construct ⟨second, granularity⟩ entry).state.solution.readAt place ∧
      (construct ⟨second, granularity⟩ entry).state.cache.linked =
        (construct ⟨first, granularity⟩ entry).state.cache.linked := by
  obtain ⟨ended, inside, linked⟩ := construct_embedded rearranged.there inRange finished
  obtain ⟨_, ⟨reachable, edges, facts⟩, otherLinked⟩ :=
    construct_embedded rearranged.back otherInRange ended
  refine ⟨ended, le_antisymm inside ⟨reachable, fun edge moved => ?_, facts⟩,
    SortedSet.ext_mem fun pair => ⟨otherLinked pair, linked pair⟩⟩
  have back := edges moved
  simpa [Solution.readAt, Edge.moved] using back

/-! ### What is counted -/

/-- The same questions have the same answers at the place of a site. -/
theorem virtualTarget?_place (site : Site) :
    Setting.virtualTarget? ⟨second, granularity⟩ (place site) =
      Setting.virtualTarget? ⟨first, granularity⟩ site := by
  unfold Setting.virtualTarget? Setting.program
  rw [rearranged.call?_eq]

theorem isDynamic_place (site : Site) : Setting.isDynamic ⟨second, granularity⟩ (place site) =
    Setting.isDynamic ⟨first, granularity⟩ site := by
  unfold Setting.isDynamic Setting.program
  rw [rearranged.call?_eq]

theorem declared?_rearranged (target : Target) : Setting.declared? ⟨second, granularity⟩ target =
    Setting.declared? ⟨first, granularity⟩ target := by
  unfold Setting.declared? Setting.program
  rw [rearranged.there.heads.resolve, rearranged.there.heads.isAbstract]

theorem isSkipped_place (site : Site) : Setting.isSkipped ⟨second, granularity⟩ (place site) =
    Setting.isSkipped ⟨first, granularity⟩ site := by
  unfold Setting.isSkipped
  simp only [declared?_rearranged rearranged]
  unfold Setting.program
  rw [rearranged.call?_eq]

theorem isMismatched_place (site : Site) : Setting.isMismatched ⟨second, granularity⟩ (place site) =
    Setting.isMismatched ⟨first, granularity⟩ site := by
  unfold Setting.isMismatched
  simp only [declared?_rearranged rearranged]
  unfold Setting.program
  rw [rearranged.call?_eq, rearranged.there.heads.isStatic]

/-- **The counts of call sites at their places** are the counts of the call sites. -/
theorem Counted.moved {sites moved : List Site} {counts : SiteCounts}
    (perm : moved.Perm (sites.map place)) (counted : Counted ⟨second, granularity⟩ moved counts) :
    Counted ⟨first, granularity⟩ sites counts := by
  have sameCount {test original : Site → Bool} (same : ∀ site, test (place site) = original site) :
      moved.countP test = sites.countP original := by
    rw [perm.countP_eq, List.countP_map]
    exact congrArg (sites.countP ·) (funext same)
  have targets : (moved.filterMap (Setting.virtualTarget? ⟨second, granularity⟩)).Perm
      (sites.filterMap (Setting.virtualTarget? ⟨first, granularity⟩)) := by
    have moving := perm.filterMap (Setting.virtualTarget? ⟨second, granularity⟩)
    rw [List.filterMap_map] at moving
    have same : Setting.virtualTarget? ⟨second, granularity⟩ ∘ place =
        Setting.virtualTarget? ⟨first, granularity⟩ :=
      funext fun site => virtualTarget?_place rearranged site
    rwa [same] at moving
  refine ⟨⟨fun target => ?_, counted.asked.distinct, counted.asked.misses, ?_⟩, ?_, ?_, ?_⟩
  · rw [counted.asked.known, targets.mem_iff]
  · rw [counted.asked.questions, targets.length_eq]
  · rw [counted.dynamic, sameCount fun site => isDynamic_place rearranged site]
  · rw [counted.skipped, sameCount fun site => isSkipped_place rearranged site]
  · rw [counted.mismatched, sameCount fun site => isMismatched_place rearranged site]

section Idle

variable {past otherPast : List State} {state other : State}
  (reaches : Reaches ⟨first, granularity⟩ entry past state)
  (idle : step ⟨first, granularity⟩ state = none)
  (otherReaches : Reaches ⟨second, granularity⟩ entry otherPast other)
  (otherIdle : step ⟨second, granularity⟩ other = none)
  (same : state.solution = other.solution.readAt place)
include reaches otherReaches same

omit rearranged in
/-- The reachable methods are the same, each once. -/
theorem perm_reachable : other.graph.reachable.Perm state.graph.reachable := by
  rw [List.perm_ext_iff_of_nodup otherReaches.nodup_reachable reaches.nodup_reachable]
  intro method
  have members : method ∈ state.solution.reachable ↔ method ∈ other.solution.reachable := by
    rw [same]
    rfl
  exact members.symm

/-- The call sites of the reachable methods are those of the other program at their places. -/
theorem perm_layout : (other.layout ⟨second, granularity⟩).Perm
    ((state.layout ⟨first, granularity⟩).map place) := by
  unfold State.layout
  rw [List.map_flatMap]
  refine (List.Perm.flatMap_right _ (perm_reachable reaches otherReaches same)).trans ?_
  exact List.Perm.flatMap_left _ fun method _ => rearranged.perm_callSites method

omit rearranged reaches otherReaches in
/-- The facts are the same. -/
theorem facts_eq : other.facts = state.facts := by
  apply SortedSet.ext_mem
  intro fact
  have members : fact ∈ state.solution.facts ↔ fact ∈ other.solution.facts := by
    rw [same]
    rfl
  exact members.symm

omit rearranged reaches otherReaches in
/-- The edges are the same at the places of their sites. -/
theorem mem_edges_moved {edge : Edge} :
    edge.moved place ∈ other.graph.edges ↔ edge ∈ state.graph.edges := by
  have members : edge ∈ state.solution.edges ↔ edge.moved place ∈ other.solution.edges := by
    rw [same]
    rfl
  exact members.symm

include idle otherIdle

/-- What is left parked is the same at the places of the sites. -/
theorem mem_parked_moving (parked : ParkedCall) :
    ParkedCall.moving place parked ∈ other.parked ↔ parked ∈ state.parked := by
  cases tracked : granularity.tracksInstantiation with
  | false =>
    -- Every receiver counts then, so nothing is ever parked.
    obtain ⟨_, none⟩ := reaches.coherent.untracked tracked
    obtain ⟨_, otherNone⟩ := otherReaches.coherent.untracked tracked
    exact ⟨fun member => absurd member (otherNone _), fun member => absurd member (none _)⟩
  | true =>
    have reachable (method : MethodId) :
        method ∈ other.graph.reachable ↔ method ∈ state.graph.reachable :=
      (perm_reachable reaches otherReaches same).mem_iff
    have receives := rearranged.there.heads.receives granularity
    rw [mem_parked_of_idle tracked reaches idle, mem_parked_of_idle tracked otherReaches otherIdle,
      facts_eq same, receives, reachable]
    show (place parked.site).method ∈ _ ∧ _ = Setting.scopeOf _ (place parked.site).method ∧
      (∃ call, second.program.call? (place parked.site) = some call ∧ _) ∧ _ ↔ _
    rw [rearranged.there.method, rearranged.call?_eq]
    rfl

/-- As many calls are left parked. -/
theorem parked_size : other.parked.size = state.parked.size := by
  have perm : other.parked.toList.Perm (state.parked.toList.map (ParkedCall.moving place)) :=
    perm_map_of_mem state.parked.nodup_toList other.parked.nodup_toList
      (mem_parked_moving rearranged reaches idle otherReaches otherIdle same)
  rw [SortedSet.size, perm.length_eq, List.length_map]
  rfl

/-- **The counts are the same**, but for how many calls have been parked and replayed. -/
theorem statistics_rearranged (linked : other.cache.linked = state.cache.linked) :
    { other.statistics with
      parkedCalls := state.statistics.parkedCalls
      replayedCalls := state.statistics.replayedCalls } = state.statistics := by
  have ledger := reaches.ledger
  have otherLedger := otherReaches.ledger
  have reachable := perm_reachable reaches otherReaches same
  have facts := facts_eq same
  have parked := parked_size rearranged reaches idle otherReaches otherIdle same
  have processed : other.counters.methodsProcessed = state.counters.methodsProcessed := by
    rw [otherLedger.methodsProcessed, ledger.methodsProcessed, reachable.length_eq]
  have events : other.counters.events = state.counters.events := by
    rw [otherLedger.events.count_eq_size, ledger.events.count_eq_size, facts]
  have sites := (counted_of_idle reaches idle).unique
    ((counted_of_idle otherReaches otherIdle).moved rearranged
      (perm_layout rearranged reaches otherReaches same))
  simp only [State.siteCounts, SiteCounts.mk.injEq, true_and] at sites
  obtain ⟨hits, misses, dynamic, skipped, mismatched⟩ := sites
  simp only [State.statistics, TargetCache.linkedCount, processed, events, facts, parked, hits, misses,
    linked, dynamic, skipped, mismatched]

/-- **What has been built in the end is the same at the places of the sites.** -/
theorem moved_of_idle (linked : other.cache.linked = state.cache.linked) :
    BuildOutput.Moved place ⟨state.graph, state.cache.linkedTargets, state.statistics⟩
      ⟨other.graph, other.cache.linkedTargets, other.statistics⟩ := by
  refine ⟨perm_reachable reaches otherReaches same, fun edge => ⟨fun member => ?_, ?_⟩, ?_,
    statistics_rearranged rearranged reaches idle otherReaches otherIdle same linked⟩
  · have unmoved : (edge.moved place.symm).moved place = edge := by simp [Edge.moved]
    refine ⟨edge.moved place.symm, (mem_edges_moved same).mp ?_, unmoved⟩
    rw [unmoved]
    exact member
  · rintro ⟨original, member, rfl⟩
    exact (mem_edges_moved same).mpr member
  · show TargetCache.linkedTargets _ = TargetCache.linkedTargets _
    unfold TargetCache.linkedTargets TargetCache.linkedFor
    rw [linked]

end Idle

end Rearranged

end Construction

/-! ### Reordered bodies -/

/-- The sites after the statements of each body have been moved. -/
def Site.moving (move : MethodId → Equiv.Perm Nat) : Equiv.Perm Site where
  toFun site := ⟨site.method, move site.method site.index⟩
  invFun site := ⟨site.method, (move site.method).symm site.index⟩
  left_inv site := by simp
  right_inv site := by simp

/-- The programs differ in bodies only, and the statements of each body of the first one have been
moved in the second one. -/
structure Program.Reordered (first second : Program) (move : MethodId → Equiv.Perm Nat) : Prop where
  heads : first.SameHeads second
  members : second.members = first.members
  bodies : ∀ id index, (second.body id)[move id index]? = (first.body id)[index]?

namespace Program.Reordered

variable {first second : Program} {move : MethodId → Equiv.Perm Nat}

theorem statement?_moving (reordered : first.Reordered second move) (site : Site) :
    second.statement? (Site.moving move site) = first.statement? site := by
  rw [statement?_eq, statement?_eq]
  exact reordered.bodies site.method site.index

/-- Reordered programs embed into each other. -/
theorem rearranged (reordered : first.Reordered second move) :
    first.Rearranged second (Site.moving move) where
  there := ⟨reordered.heads, fun _ => rfl, fun site statement here => by
    rw [reordered.statement?_moving]
    exact here⟩
  back := ⟨reordered.heads.symm, fun _ => rfl, fun site statement here => by
    rw [← reordered.statement?_moving, Equiv.apply_symm_apply]
    exact here⟩

/-- A reordered program is in range if the program is. -/
theorem inRange (reordered : first.Reordered second move) (inRange : first.InRange) :
    second.InRange := by
  refine reordered.heads.inRange reordered.members inRange fun id info found statement stands => ?_
  obtain ⟨original, isMethod, inBody⟩ :=
    reordered.rearranged.back.hasStatement ⟨info, found, stands⟩
  exact inRange.statement isMethod inBody

end Program.Reordered

/-- **A program whose bodies are permuted is reordered.** -/
theorem Program.exists_reordered {first second : Program} (heads : first.SameHeads second)
    (members : second.members = first.members)
    (perm : ∀ id, (first.body id).Perm (second.body id)) : ∃ move, first.Reordered second move := by
  choose move moved using fun id => exists_moving_of_perm (perm id)
  exact ⟨move, heads, members, moved⟩

/-- **The order of statements does not matter.** If the statements of each body are moved, a graph can
be built as before or not, and then the same methods are reachable, the edges are the same with their
sites moved, and so are the facts, the linked methods and the counts; only the order of discovery and
the number of calls that are parked and replayed may differ. The scopes of the named analyses are the
same. -/
theorem buildGraph_reordered {first second : Program} {move : MethodId → Equiv.Perm Nat}
    (inRange : first.InRange) (reordered : first.Reordered second move) :
    (∀ variant : Variant, variant.granularity second = variant.granularity first) ∧
    ∀ granularity entry,
      ((∃ output, buildGraph second granularity entry = .ok output) ↔
        ∃ output, buildGraph first granularity entry = .ok output) ∧
      ∀ output other, buildGraph first granularity entry = .ok output →
        buildGraph second granularity entry = .ok other →
        output.Moved (Site.moving move) other ∧
        ∀ run otherRun, constructGraph first granularity entry = .ok run →
          constructGraph second granularity entry = .ok otherRun →
          otherRun.state.facts = run.state.facts := by
  refine ⟨reordered.heads.granularity, fun granularity entry => ?_⟩
  have otherInRange := reordered.inRange inRange
  obtain ⟨hierarchy, rfl, constructed⟩ :=
    exists_constructGraph inRange.edgesInRange granularity entry
  obtain ⟨otherHierarchy, rfl, otherConstructed⟩ :=
    exists_constructGraph otherInRange.edgesInRange granularity entry
  have rearranged := reordered.rearranged
  rw [exists_buildGraph_iff constructed, exists_buildGraph_iff otherConstructed]
  refine ⟨⟨fun finished => ?_, fun finished => ?_⟩, fun output other built otherBuilt => ?_⟩
  · exact (Construction.construct_rearranged rearranged inRange otherInRange finished).1
  · exact (Construction.construct_rearranged rearranged.symm otherInRange inRange finished).1
  · obtain ⟨run, same, finished, rfl⟩ := buildGraph_eq_ok.mp built
    obtain ⟨otherRun, otherSame, otherFinished, rfl⟩ := buildGraph_eq_ok.mp otherBuilt
    rw [constructed] at same ⊢
    rw [otherConstructed] at otherSame ⊢
    cases same
    cases otherSame
    obtain ⟨past, reaches, idle⟩ := reaches_of_finished finished
    obtain ⟨otherPast, otherReaches, otherIdle⟩ := reaches_of_finished otherFinished
    obtain ⟨_, solutions, linked⟩ :=
      Construction.construct_rearranged rearranged inRange otherInRange otherFinished
    refine ⟨Construction.moved_of_idle rearranged reaches idle otherReaches otherIdle solutions linked,
      fun run otherRun same otherSame => ?_⟩
    cases same
    cases otherSame
    exact Construction.facts_eq solutions

/-- Shapes whose main method asks for the area first. -/
def Program.turnedShapes : Program :=
  { Program.shapes with
    methods := Program.shapes.methods.modify 0 fun main => { main with body := main.body.reverse } }

/-- The graph of the shapes is the same when the main method asks for the area first. -/
theorem buildGraph_reordered_shapes :
    ∃ move output other, buildGraph .shapes (Variant.xta.granularity .shapes) ⟨0⟩ = .ok output ∧
      buildGraph .turnedShapes (Variant.xta.granularity .shapes) ⟨0⟩ = .ok other ∧
      output.Moved (Site.moving move) other := by
  have inRange : Program.shapes.InRange := by decide
  obtain ⟨move, reordered⟩ : ∃ move, Program.shapes.Reordered .turnedShapes move := by
    refine Program.exists_reordered ⟨rfl, rfl, rfl⟩ rfl fun id => ?_
    obtain ⟨_ | _ | _ | _ | _⟩ := id
    · exact (List.reverse_perm _).symm
    all_goals exact List.Perm.refl _
  obtain ⟨output, built⟩ :
      ∃ output, buildGraph .shapes (Variant.xta.granularity .shapes) ⟨0⟩ = .ok output := ⟨_, rfl⟩
  obtain ⟨together, moved⟩ := (buildGraph_reordered inRange reordered).2
    (Variant.xta.granularity .shapes) ⟨0⟩
  obtain ⟨other, otherBuilt⟩ := together.mpr ⟨output, built⟩
  exact ⟨move, output, other, built, otherBuilt, (moved output other built otherBuilt).1⟩

end CallFlow
