/-
**A construction takes few steps.**

Every step takes something off a queue, and what is put on the queues is paid for: a queued fact is a
new fact, a queued method goes with a new edge, a queued call site with a newly reachable method. So
the steps taken and the things queued are at most as many as the facts, the edges and the call sites
of the reachable methods, and those are bounded by the program.

* `Construction.Reaches.account`: the steps taken are paid for.
* `Construction.earned_le`: what pays for them is bounded by the program.
* `Construction.construct_ends`: the steps granted to a construction suffice.
-/

import Mathlib.Data.List.Flatten
import Mathlib.Data.List.Perm.Subperm
import Mathlib.Data.List.ProdSigma
import CallFlow.Proofs.Construction.Solution
import CallFlow.Proofs.Hierarchy.Walks

namespace CallFlow.Construction

variable {setting : Setting} {entry : MethodId} {past : List State} {state : State}

/-! ### Steps are paid for -/

/-- The number of things queued. -/
def State.waiting (state : State) : Nat :=
  state.events.length + state.sites.length + state.methods.length

/-- The call sites of the reachable methods, in order. -/
def State.layout (setting : Setting) (state : State) : List Site :=
  state.graph.reachable.flatMap setting.program.callSites

/-- What pays for steps: the facts, the edges, the entry and the call sites of reachable methods. -/
def State.earned (setting : Setting) (state : State) : Nat :=
  state.facts.size + state.graph.edges.size + 1 + (state.layout setting).length

theorem Extends.layout {before after : State} (grown : Extends before after) :
    after.layout setting = before.layout setting := by
  unfold State.layout
  rw [grown.reachable_eq]

theorem layout_discover {method : MethodId} (fresh : method ∉ state.graph.reachable) :
    (State.discover setting method state).layout setting =
      state.layout setting ++ setting.program.callSites method := by
  have reachable : (State.discover setting method state).graph.reachable =
      state.graph.reachable ++ [method] := by
    show (state.graph.discover _ _).reachable = _
    rw [state.graph.discover_of_fresh _ fresh]
    simp [CallGraph.reachable]
  unfold State.layout
  rw [reachable, List.flatMap_append, List.flatMap_singleton]

/-- A method is queued for a new edge only. -/
theorem Change.queuedMethods {before after : State} (change : Change setting before after) :
    after.methods.length + before.graph.edges.size ≤
      before.methods.length + after.graph.edges.size := by
  cases change with
  | @fact scope id tracked fresh cause =>
    rw [before.addFact_of_fresh fresh]
  | @edge site call receiver callee linkable fresh recorded =>
    have size : (before.graph.connect ⟨site, call.kind, callee⟩).edges.size =
        before.graph.edges.size + 1 := SortedSet.size_insert fresh
    have queued : (before.addEdge ⟨site, call.kind, callee⟩).methods.length ≤
        before.methods.length + 1 := by
      unfold State.addEdge
      rw [List.length_append]
      split
      · exact Nat.le_succ _
      · exact Nat.le_refl _
    simp only [State.addEdge, size] at queued ⊢
    omega
  | linked linkable virtual => exact Nat.le_refl _
  | asked answer => exact Nat.le_refl _
  | parked tracked waits absent fresh => exact Nat.le_refl _
  | stored reachable stands holds => exact Nat.le_refl _
  | loaded reachable stands holds => exact Nat.le_refl _
  | remarked diagnostic remark => exact Nat.le_refl _

theorem Changes.queuedMethods {before after : State} (changes : Changes setting before after) :
    after.methods.length + before.graph.edges.size ≤
      before.methods.length + after.graph.edges.size := by
  induction changes with
  | refl => exact Nat.le_refl _
  | tail _ change hyp =>
    have last := change.queuedMethods
    omega

/-- A change pays for what it queues. -/
theorem Change.account {before after : State} (change : Change setting before after) :
    after.waiting + before.earned setting ≤ before.waiting + after.earned setting := by
  have layout : after.layout setting = before.layout setting := change.extends.layout
  unfold State.waiting State.earned
  rw [layout]
  cases change with
  | @fact scope id tracked fresh cause =>
    rw [before.addFact_of_fresh fresh]
    have size : (before.facts.add scope id).size = before.facts.size + 1 :=
      SortedSet.size_insert fresh
    simp only [List.length_append, List.length_singleton, size]
    omega
  | edge linkable fresh recorded =>
    have paid := (Change.edge linkable fresh recorded).queuedMethods
    simp only [State.addEdge] at paid ⊢
    omega
  | linked linkable virtual => exact Nat.le_refl _
  | asked answer => exact Nat.le_refl _
  | parked tracked waits absent fresh => exact Nat.le_refl _
  | stored reachable stands holds => exact Nat.le_refl _
  | loaded reachable stands holds => exact Nat.le_refl _
  | remarked diagnostic remark => exact Nat.le_refl _

theorem Changes.account {before after : State} (changes : Changes setting before after) :
    after.waiting + before.earned setting ≤ before.waiting + after.earned setting := by
  induction changes with
  | refl => exact Nat.le_refl _
  | tail _ change hyp =>
    have last := change.account
    omega

/-- Taking something off a queue shortens it; the call sites of a method are paid for. -/
theorem Takes.account {before after : State} (takes : Takes setting before after) :
    after.waiting + 1 + before.earned setting ≤ before.waiting + after.earned setting := by
  cases takes with
  | event next =>
    unfold State.waiting State.earned State.layout
    simp only [next, List.length_cons]
    omega
  | site drained next =>
    unfold State.waiting State.earned State.layout
    simp only [next, List.length_cons]
    omega
  | known drained idle next known =>
    unfold State.waiting State.earned State.layout
    simp only [next, List.length_cons]
    omega
  | @discovered method methods drained idle next fresh inRange =>
    have queued : (State.discover setting method { before with methods }).waiting =
        before.events.length + (setting.program.callSites method).length + methods.length := rfl
    have waited : before.waiting = before.events.length + (methods.length + 1) := by
      unfold State.waiting
      rw [idle, next]
      rfl
    have layout : (State.discover setting method { before with methods }).layout setting =
        before.layout setting ++ setting.program.callSites method := layout_discover fresh
    have edges : (State.discover setting method { before with methods }).graph.edges =
        before.graph.edges := Takes.edges (.discovered drained idle next fresh inRange)
    have earned : (State.discover setting method { before with methods }).earned setting =
        before.earned setting + (setting.program.callSites method).length := by
      unfold State.earned
      rw [layout, edges, List.length_append, ← Nat.add_assoc]
      rfl
    omega

/-- **The steps taken, and those still to take for what is queued, are paid for.** -/
theorem Reaches.account (reaches : Reaches setting entry past state) :
    past.length + state.waiting ≤ state.earned setting := by
  induction reaches with
  | initial => exact Nat.le_refl 1
  | @step past state next reaches stepped hyp =>
    obtain ⟨taken, takes, changes⟩ := step_changes reaches.coherent stepped
    have paid := Changes.account changes
    have taking := takes.account
    rw [List.length_append, List.length_singleton]
    omega

/-! ### What pays is bounded by the program -/

/-- The call sites of a program. -/
def allSites (program : Program) : List Site := program.methodIds.flatMap program.callSites

/-- The edges that call sites of a program can have. -/
def allEdges (program : Program) : List Edge :=
  (allSites program ×ˢ program.methodIds).map fun pair =>
    ⟨pair.1, (program.call? pair.1).elim .other Call.kind, pair.2⟩

/-- The facts that a program can have. -/
def allFacts (setting : Setting) : List (Scope × ClassId) :=
  (setting.program.methodIds.map setting.scopeOf ++ setting.program.fieldIds.map setting.fieldScope) ×ˢ
    setting.program.classIds

theorem length_allSites (program : Program) : (allSites program).length = callCount program := by
  unfold allSites callCount
  rw [List.length_flatMap, List.length_flatMap]
  refine congrArg List.sum (List.ext_getElem ?_ fun index left right => ?_)
  · simp [Program.methodIds]
  · simp only [List.length_map, Array.length_toList] at right
    simp [Program.methodIds, Program.callSites, Program.method?, right]

theorem length_allEdges (program : Program) :
    (allEdges program).length = callCount program * program.methods.size := by
  unfold allEdges
  rw [List.length_map, List.length_product, length_allSites]
  simp [Program.methodIds]

theorem length_allFacts : (allFacts setting).length =
    (setting.program.methods.size + setting.program.fields.size) * setting.program.classes.size := by
  unfold allFacts
  rw [List.length_product]
  simp [Program.methodIds, Program.fieldIds, Program.classIds]

theorem mem_allSites {program : Program} {site : Site} :
    site ∈ allSites program ↔ ∃ call, program.call? site = some call := by
  unfold allSites
  rw [List.mem_flatMap]
  constructor
  · rintro ⟨method, _, isSite⟩
    exact (program.mem_callSites.mp isSite).2
  · rintro ⟨call, isCall⟩
    obtain ⟨info, found, _⟩ := Option.bind_eq_some_iff.mp isCall
    exact ⟨site.method, program.mem_methodIds.mpr (by rw [found]; rfl),
      program.mem_callSites.mpr ⟨rfl, call, isCall⟩⟩

/-- Everything that a program can have. -/
def everything (setting : Setting) : Solution where
  reachable := { method | method ∈ setting.program.methodIds }
  edges := { edge | edge ∈ allEdges setting.program }
  facts := { fact | fact ∈ allFacts setting }

/-- Everything is closed. -/
theorem closed_everything (isMethod : (setting.program.method? entry).isSome = true) :
    Closed setting entry (everything setting) := by
  have isClass {id : ClassId} (concrete : setting.program.isConcrete id = true) :
      id ∈ setting.program.classIds :=
    setting.program.mem_classIds.mpr (setting.program.isClass_of_isConcrete concrete)
  have inMethod {method : MethodId} {id : ClassId} (reachable : method ∈ setting.program.methodIds)
      (known : id ∈ setting.program.classIds) : (setting.scopeOf method, id) ∈ allFacts setting :=
    List.mem_product.mpr ⟨List.mem_append_left _ (List.mem_map.mpr ⟨method, reachable, rfl⟩), known⟩
  have known {scope : Scope} {id : ClassId} (present : (scope, id) ∈ (everything setting).facts) :
      id ∈ setting.program.classIds := (List.mem_product.mp present).2
  have ends {edge : Edge} (linked : edge ∈ (everything setting).edges) :
      edge.caller ∈ setting.program.methodIds ∧ edge.callee ∈ setting.program.methodIds := by
    obtain ⟨⟨site, callee⟩, member, rfl⟩ := List.mem_map.mp linked
    obtain ⟨isSite, isCallee⟩ := List.mem_product.mp member
    obtain ⟨call, isCall⟩ := mem_allSites.mp isSite
    obtain ⟨info, found, _⟩ := Option.bind_eq_some_iff.mp isCall
    refine ⟨setting.program.mem_methodIds.mpr ?_, isCallee⟩
    show (setting.program.method? site.method).isSome = true
    rw [found]
    rfl
  have linked {site : Site} {call : Call} {callee : MethodId}
      (isCall : setting.program.call? site = some call)
      (isCallee : (setting.program.method? callee).isSome = true) :
      ⟨site, call.kind, callee⟩ ∈ (everything setting).edges := by
    refine List.mem_map.mpr ⟨(site, callee), List.mem_product.mpr ⟨mem_allSites.mpr ⟨call, isCall⟩,
      setting.program.mem_methodIds.mpr isCallee⟩, ?_⟩
    show (⟨site, (setting.program.call? site).elim .other Call.kind, callee⟩ : Edge) = _
    rw [isCall]
    rfl
  refine ⟨setting.program.mem_methodIds.mpr isMethod, fun edge member => (ends member).2, ?_, ?_, ?_,
    ?_, ?_, ?_, ?_, ?_, ?_⟩
  · exact fun site call callee _ isCall _ resolved _ =>
      linked isCall (Hierarchy.isMethod_of_resolve resolved)
  · exact fun _ site call id callee _ isCall _ receives =>
      linked isCall (Hierarchy.isMethod_of_dispatch receives.2)
  · intro _ site call id callee _ isCall _ receives present
    have isCallee := Hierarchy.isMethod_of_dispatch receives.2
    exact ⟨linked isCall isCallee, inMethod (setting.program.mem_methodIds.mpr isCallee) (known present)⟩
  · exact fun _ method id reachable _ concrete => inMethod reachable (isClass concrete)
  · exact fun _ _ method element id reachable _ _ concrete => inMethod reachable (isClass concrete)
  · exact fun _ edge member id present _ => inMethod (ends member).2 (known present)
  · exact fun _ edge member id present _ => inMethod (ends member).1 (known present)
  · intro _ method field id _ _ present accepts
    obtain ⟨info, found, _⟩ := (Option.any_eq_true _ _).mp accepts
    have isField : field ∈ setting.program.fieldIds :=
      setting.program.mem_fieldIds.mpr (by rw [found]; rfl)
    exact List.mem_product.mpr ⟨List.mem_append_right _ (List.mem_map.mpr ⟨field, isField, rfl⟩),
      known present⟩
  · exact fun _ method field id reachable _ _ present => inMethod reachable (known present)

/-- No method becomes reachable twice. -/
theorem Reaches.nodup_reachable (reaches : Reaches setting entry past state) :
    state.graph.reachable.Nodup := by
  refine reaches.preserve (fun state => state.graph.reachable.Nodup) List.nodup_nil ?_ ?_
  · intro before after _ distinct takes
    cases takes with
    | event next => exact distinct
    | site drained next => exact distinct
    | known drained idle next known => exact distinct
    | @discovered method methods drained idle next fresh inRange =>
      show (before.graph.discover _ _).reachable.Nodup
      rw [before.graph.discover_of_fresh _ fresh]
      show (List.map Prod.fst (before.graph.discovered ++ [_])).Nodup
      rw [List.map_append, List.nodup_append]
      refine ⟨distinct, List.nodup_singleton _, fun old member new single same => fresh ?_⟩
      have again : old = method := same.trans (List.mem_singleton.mp single)
      exact again ▸ member
  · intro before after distinct change
    rw [change.extends.reachable_eq]
    exact distinct

/-- **What pays for steps is bounded by the program.** -/
theorem Reaches.earned_le (isMethod : (setting.program.method? entry).isSome = true)
    (reaches : Reaches setting entry past state) :
    state.earned setting ≤ stepBound setting.program := by
  have within := reaches.within (closed_everything isMethod)
  have facts : state.facts.size ≤ (allFacts setting).length :=
    state.facts.nodup_toList.length_le_of_subset within.facts
  have edges : state.graph.edges.size ≤ (allEdges setting.program).length :=
    state.graph.edges.nodup_toList.length_le_of_subset within.edges
  have sites : (state.layout setting).length ≤ (allSites setting.program).length := by
    have subset : state.graph.reachable ⊆ setting.program.methodIds :=
      fun method reachable => within.reachable method (.inl reachable)
    obtain ⟨sorted, same, sublist⟩ := List.subperm_of_subset reaches.nodup_reachable subset
    unfold State.layout allSites
    rw [← (same.flatMap_right setting.program.callSites).length_eq]
    exact (sublist.flatMap setting.program.callSites).length_le
  rw [length_allFacts] at facts
  rw [length_allEdges] at edges
  rw [length_allSites] at sites
  have bound : stepBound setting.program = callCount setting.program +
      (setting.program.methods.size + setting.program.fields.size) * setting.program.classes.size +
      (1 + callCount setting.program * setting.program.methods.size) := rfl
  unfold State.earned
  omega

/-- The steps granted to a construction are enough to come to any of its states. -/
theorem Reaches.length_le (isMethod : (setting.program.method? entry).isSome = true)
    (reaches : Reaches setting entry past state) : past.length ≤ stepBound setting.program := by
  have paid := reaches.account
  have bound := reaches.earned_le isMethod
  omega

/-- A construction passes through every state that it comes to. -/
theorem Reaches.construct_eq (isMethod : (setting.program.method? entry).isSome = true)
    (reaches : Reaches setting entry past state) :
    ∃ steps, construct setting entry = run setting steps state := by
  obtain ⟨steps, granted⟩ := Nat.exists_eq_add_of_le (reaches.length_le isMethod)
  refine ⟨steps, ?_⟩
  unfold construct
  rw [if_pos isMethod, granted]
  exact reaches.run_eq steps

/-- **The steps granted to a construction suffice.** -/
theorem construct_ends (isMethod : (setting.program.method? entry).isSome = true) :
    ∃ past, Reaches setting entry past (construct setting entry).state ∧
      Ends setting (construct setting entry).state False (construct setting entry).ending := by
  obtain ⟨past, reaches, ends⟩ := construct_reaches isMethod
  refine ⟨past, reaches, ?_⟩
  generalize (construct setting entry).ending = ending at ends ⊢
  cases ends with
  | finished idle => exact .finished idle
  | failed stuck => exact .failed stuck
  | exhausted all busy =>
    have paid := reaches.account
    have bound := reaches.earned_le isMethod
    have queued : 0 < (construct setting entry).state.waiting := by
      by_contra none
      unfold State.waiting at none
      refine busy (step_eq_none_iff.mpr ⟨?_, ?_, ?_⟩) <;> refine List.eq_nil_of_length_eq_zero ?_ <;>
        omega
    omega

end CallFlow.Construction
