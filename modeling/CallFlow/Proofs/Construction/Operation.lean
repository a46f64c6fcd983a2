/-
**The operations of a construction as changes.**

A step is made of a few operations, each a sequence of changes: a fact is added, an edge with what
flows along it at once, a store or a load with what flows through it at once. Calls are linked by
them, right away or when the receiver that they waited for arrives.

* `Construction.Action`, `Construction.Actions`: one operation with its reason, and any number.
* `Construction.Action.changes`: an operation is a sequence of changes.
* `Construction.link_actions`: linking a call, which then has its edge and its receiver.
* `Construction.replayAll_actions`: replaying the calls that wait for a fact, which are all linked.
-/

import CallFlow.Proofs.Construction.Coherence

namespace CallFlow.Construction

variable {setting : Setting} {state : State}

/-! ### Facts -/

theorem addFact_changes {scope : Scope} {id : ClassId}
    (tracked : setting.granularity.tracksInstantiation = true)
    (cause : Cause setting state scope id) : Changes setting state (state.addFact scope id) := by
  by_cases present : (scope, id) ∈ state.facts
  · rw [state.addFact_of_mem present]
  · exact .single (.fact tracked present cause)

theorem addAll_changes {facts : List (Scope × ClassId)}
    (tracked : setting.granularity.tracksInstantiation = true)
    (causes : ∀ fact ∈ facts, Cause setting state fact.1 fact.2) :
    Changes setting state (state.addAll facts) :=
  (foldl_reflTransGen (fun (current : State) (fact : Scope × ClassId) =>
      current.addFact fact.1 fact.2) (fun _ _ => True) facts state
    (fun fact member _ changes =>
      ⟨addFact_changes tracked ((Changes.extends changes).cause (causes fact member)), trivial⟩)
    fun _ _ _ _ _ => trivial).1

/-! ### Edges, stores and loads -/

theorem seed_changes (edge : Edge) (tracked : setting.granularity.tracksInstantiation = true)
    (linked : edge ∈ state.graph.edges) :
    Changes setting state (seed setting edge.caller edge.callee state) := by
  rw [seed_eq]
  refine (addAll_changes tracked fun fact member => ?_).trans
    (addAll_changes tracked fun fact member => ?_)
  · obtain ⟨id, passes, rfl⟩ := List.mem_map.mp member
    obtain ⟨present, accepts⟩ := List.mem_filter.mp passes
    exact .followed (Facts.mem_classesIn.mp present) (.passed linked accepts)
  · obtain ⟨id, comes, rfl⟩ := List.mem_map.mp member
    obtain ⟨present, returns⟩ := List.mem_filter.mp comes
    refine .followed (Facts.mem_classesIn.mp present) (.returned ?_ returns)
    rw [State.addAll_graph]
    exact linked

theorem connect_eq (site : Site) (call : Call) (callee : MethodId) :
    connect setting site call callee state =
      if ⟨site, call.kind, callee⟩ ∈ state.graph.edges then state
      else if setting.granularity.tracksInstantiation then
        seed setting site.method callee (state.addEdge ⟨site, call.kind, callee⟩)
      else state.addEdge ⟨site, call.kind, callee⟩ := by
  unfold connect State.addEdge
  by_cases known : (⟨site, call.kind, callee⟩ : Edge) ∈ state.graph.edges
  · simp only [known, if_true]
  · simp only [known, if_false]
    by_cases reachable : state.graph.contains callee
    · have connected : (state.graph.connect ⟨site, call.kind, callee⟩).contains callee = true :=
        reachable
      simp only [State.note, connected, reachable, if_true, List.append_nil]
      rfl
    · have connected : ¬ (state.graph.connect ⟨site, call.kind, callee⟩).contains callee = true :=
        reachable
      simp only [State.note, connected, reachable]
      rfl

theorem connect_changes {site : Site} {call : Call} {receiver : Option ClassId} {callee : MethodId}
    (linkable : Linkable setting state site call receiver callee)
    (recorded : call.kind.isVirtual = true → (call.target, callee) ∈ state.cache.linked) :
    Changes setting state (connect setting site call callee state) ∧
      ⟨site, call.kind, callee⟩ ∈ (connect setting site call callee state).graph.edges := by
  rw [connect_eq]
  split
  · next known => exact ⟨.refl, known⟩
  · next fresh =>
    have added : Changes setting state (state.addEdge ⟨site, call.kind, callee⟩) :=
      .single (.edge linkable fresh recorded)
    have linked : (⟨site, call.kind, callee⟩ : Edge) ∈
        (state.addEdge ⟨site, call.kind, callee⟩).graph.edges := SortedSet.mem_insert.mpr (.inl rfl)
    split
    · next tracked =>
      have seeded := seed_changes ⟨site, call.kind, callee⟩ tracked linked
      exact ⟨added.trans seeded, seeded.extends.edges _ linked⟩
    · exact ⟨added, linked⟩

section Statements

variable {method : MethodId} {field : FieldId}
  (tracked : setting.granularity.tracksInstantiation = true)
  (reachable : method ∈ state.graph.reachable)
include tracked reachable

theorem addStore_changes (stands : setting.program.HasStatement method (.store field)) :
    Changes setting state (addStore setting (setting.scopeOf method) field state) ∧
      (setting.holdsObjects field = true → (setting.scopeOf method, field) ∈
        (addStore setting (setting.scopeOf method) field state).stores) := by
  rw [addStore_eq]
  split
  · next skipped =>
    refine ⟨.refl, fun holds => ?_⟩
    simpa [holds] using skipped
  · next fresh =>
    obtain ⟨holds, _⟩ : setting.holdsObjects field = true ∧
        (setting.scopeOf method, field) ∉ state.stores := by simpa using fresh
    have noted : Changes setting state (state.noteStore (setting.scopeOf method) field) :=
      .single (.stored reachable stands holds)
    have inStores : (setting.scopeOf method, field) ∈
        (state.noteStore (setting.scopeOf method) field).stores :=
      SortedSet.mem_insert.mpr (.inl rfl)
    refine ⟨noted.trans (addAll_changes tracked fun fact member => ?_), fun _ => ?_⟩
    · obtain ⟨id, flows, rfl⟩ := List.mem_map.mp member
      obtain ⟨present, accepts⟩ := List.mem_filter.mp flows
      exact .followed (Facts.mem_classesIn.mp present) (.stored inStores accepts)
    · rw [State.addAll_stores]
      exact inStores

theorem addLoad_changes (stands : setting.program.HasStatement method (.load field)) :
    Changes setting state (addLoad setting (setting.scopeOf method) field state) ∧
      (setting.holdsObjects field = true → (setting.fieldScope field, setting.scopeOf method) ∈
        (addLoad setting (setting.scopeOf method) field state).loads) := by
  rw [addLoad_eq]
  split
  · next skipped =>
    refine ⟨.refl, fun holds => ?_⟩
    simpa [holds] using skipped
  · next fresh =>
    obtain ⟨holds, _⟩ : setting.holdsObjects field = true ∧
        (setting.fieldScope field, setting.scopeOf method) ∉ state.loads := by simpa using fresh
    have noted : Changes setting state
        (state.noteLoad (setting.fieldScope field) (setting.scopeOf method)) :=
      .single (.loaded reachable stands holds)
    have inLoads : (setting.fieldScope field, setting.scopeOf method) ∈
        (state.noteLoad (setting.fieldScope field) (setting.scopeOf method)).loads :=
      SortedSet.mem_insert.mpr (.inl rfl)
    refine ⟨noted.trans (addAll_changes tracked fun fact member => ?_), fun _ => ?_⟩
    · obtain ⟨id, flows, rfl⟩ := List.mem_map.mp member
      exact .followed (Facts.mem_classesIn.mp flows) (.loaded inLoads)
    · rw [State.addAll_loads]
      exact inLoads

end Statements

/-! ### Operations -/

/-- The remarks that are not about a call being replayed. -/
def IsPlain : Diagnostic → Prop
  | .replaying .. => False
  | diagnostic => IsRemark diagnostic

/-- One operation, with its reason, if only some remarks are made. -/
inductive Action (setting : Setting) (allowed : Diagnostic → Prop) : State → State → Prop
  | fact {state : State} {scope : Scope} {id : ClassId}
      (tracked : setting.granularity.tracksInstantiation = true)
      (cause : Cause setting state scope id) : Action setting allowed state (state.addFact scope id)
  | connected {state : State} {site : Site} {call : Call} {receiver : Option ClassId}
      {callee : MethodId} (linkable : Linkable setting state site call receiver callee)
      (recorded : call.kind.isVirtual = true → (call.target, callee) ∈ state.cache.linked) :
      Action setting allowed state (connect setting site call callee state)
  | linked {state : State} {site : Site} {call : Call} {receiver : Option ClassId}
      {callee : MethodId} (linkable : Linkable setting state site call receiver callee)
      (virtual : call.kind.isVirtual = true) :
      Action setting allowed state (state.remember call.target callee)
  | asked {state : State} {target : Target} {receivers : List (ClassId × MethodId)}
      {cache : TargetCache}
      (answer : state.cache.ask setting.hierarchy target = .ok (receivers, cache)) :
      Action setting allowed state { state with cache }
  | parked {state : State} {parked : ParkedCall}
      (tracked : setting.granularity.tracksInstantiation = true)
      (waits : Waits setting state parked) (absent : (parked.scope, parked.receiver) ∉ state.facts)
      (fresh : parked ∉ state.parked) : Action setting allowed state (state.addParked parked)
  | stored {state : State} {method : MethodId} {field : FieldId}
      (tracked : setting.granularity.tracksInstantiation = true)
      (reachable : method ∈ state.graph.reachable)
      (stands : setting.program.HasStatement method (.store field)) :
      Action setting allowed state (addStore setting (setting.scopeOf method) field state)
  | loaded {state : State} {method : MethodId} {field : FieldId}
      (tracked : setting.granularity.tracksInstantiation = true)
      (reachable : method ∈ state.graph.reachable)
      (stands : setting.program.HasStatement method (.load field)) :
      Action setting allowed state (addLoad setting (setting.scopeOf method) field state)
  | remarked {state : State} (diagnostic : Diagnostic) (remark : IsRemark diagnostic)
      (permitted : allowed diagnostic) : Action setting allowed state (state.remark diagnostic)

/-- Any number of operations. -/
abbrev Actions (setting : Setting) (allowed : Diagnostic → Prop) : State → State → Prop :=
  Relation.ReflTransGen (Action setting allowed)

variable {allowed : Diagnostic → Prop}

/-- **An operation is a sequence of changes.** -/
theorem Action.changes {before after : State} (action : Action setting allowed before after) :
    Changes setting before after := by
  cases action with
  | fact tracked cause => exact addFact_changes tracked cause
  | connected linkable recorded => exact (connect_changes linkable recorded).1
  | linked linkable virtual => exact .single (.linked linkable virtual)
  | asked answer => exact .single (.asked answer)
  | parked tracked waits absent fresh => exact .single (.parked tracked waits absent fresh)
  | stored tracked reachable stands => exact (addStore_changes tracked reachable stands).1
  | loaded tracked reachable stands => exact (addLoad_changes tracked reachable stands).1
  | remarked diagnostic remark _ => exact .single (.remarked diagnostic remark)

theorem Actions.changes {before after : State} (actions : Actions setting allowed before after) :
    Changes setting before after := by
  induction actions with
  | refl => exact .refl
  | tail _ action hyp => exact hyp.trans action.changes

theorem Actions.extends {before after : State} (actions : Actions setting allowed before after) :
    Extends before after := (Actions.changes actions).extends

/-! ### Links -/

/-- A call site has an edge to a method, and the receiver has arrived in the scope of the method. -/
structure Linked (setting : Setting) (state : State) (site : Site) (kind : CallKind)
    (receiver : Option ClassId) (callee : MethodId) : Prop where
  edge : ⟨site, kind, callee⟩ ∈ state.graph.edges
  arrived : ∀ id, receiver = some id → (setting.scopeOf callee, id) ∈ state.facts

theorem Extends.linked {before after : State} (grown : Extends before after) {site : Site}
    {kind : CallKind} {receiver : Option ClassId} {callee : MethodId}
    (linked : Linked setting before site kind receiver callee) :
    Linked setting after site kind receiver callee :=
  ⟨grown.edges _ linked.edge, fun id same => grown.facts _ (linked.arrived id same)⟩

theorem link_none (site : Site) (call : Call) (callee : MethodId) :
    link setting site call callee none state = connect setting site call callee
      (if call.kind.isVirtual then state.remember call.target callee else state) := by
  unfold link
  cases setting.granularity.tracksInstantiation <;> rfl

theorem link_some (tracked : setting.granularity.tracksInstantiation = true) (site : Site)
    (call : Call) (callee : MethodId) (id : ClassId) :
    link setting site call callee (some id) state =
      link setting site call callee none (state.addFact (setting.scopeOf callee) id) := by
  unfold link
  rw [tracked]

/-- **Linking a call** is a sequence of operations, and then the call has its edge and its receiver
has arrived. -/
theorem link_actions {site : Site} {call : Call} {receiver : Option ClassId} {callee : MethodId}
    (linkable : Linkable setting state site call receiver callee) :
    Actions setting allowed state (link setting site call callee receiver state) ∧
      Linked setting (link setting site call callee receiver state) site call.kind receiver
        callee := by
  have untargeted {before : State} (linkable : Linkable setting before site call receiver callee) :
      Actions setting allowed before (link setting site call callee none before) ∧
        ⟨site, call.kind, callee⟩ ∈ (link setting site call callee none before).graph.edges := by
    rw [link_none]
    split
    · next virtual =>
      have remembered : Actions setting allowed before (before.remember call.target callee) :=
        .single (.linked linkable virtual)
      have again := remembered.extends.linkable linkable
      have recorded : call.kind.isVirtual = true →
          (call.target, callee) ∈ (before.remember call.target callee).cache.linked :=
        fun _ => SortedSet.mem_insert.mpr (.inl rfl)
      exact ⟨remembered.tail (.connected again recorded), (connect_changes again recorded).2⟩
    · next direct =>
      have recorded : call.kind.isVirtual = true → (call.target, callee) ∈ before.cache.linked :=
        fun virtual => absurd virtual direct
      exact ⟨.single (.connected linkable recorded), (connect_changes linkable recorded).2⟩
  cases receiver with
  | none =>
    obtain ⟨actions, linked⟩ := untargeted linkable
    exact ⟨actions, linked, fun id same => by cases same⟩
  | some id =>
    have tracked : setting.granularity.tracksInstantiation = true := by
      cases linkable.selected with
      | received virtual tracked present receives => exact tracked
    rw [link_some tracked]
    have arrived : Actions setting allowed state (state.addFact (setting.scopeOf callee) id) :=
      .single (.fact tracked (.received linkable))
    obtain ⟨actions, linked⟩ := untargeted (arrived.extends.linkable linkable)
    refine ⟨arrived.trans actions, linked, fun other same => ?_⟩
    cases same
    exact actions.extends.facts _ (State.mem_addFact.mpr (.inl rfl))

/-! ### Parked calls -/

/-- A parked call may be linked once its receiver is there. -/
theorem Waits.linkable {parked : ParkedCall}
    (tracked : setting.granularity.tracksInstantiation = true) (waits : Waits setting state parked)
    (present : (parked.scope, parked.receiver) ∈ state.facts) :
    ∃ call, setting.program.call? parked.site = some call ∧
      Linkable setting state parked.site call (some parked.receiver) parked.callee := by
  obtain ⟨call, isCall, virtual, known, receives⟩ := waits.isCall
  rw [waits.scope_eq] at present
  exact ⟨call, isCall, waits.reachable, isCall, .received virtual tracked present receives,
    fun _ => known⟩

theorem replay_eq {site : Site} {call : Call} (isCall : setting.program.call? site = some call)
    (id : ClassId) (callee : MethodId) :
    replay setting id state (site, callee) =
      link setting site call callee (some id) (state.remark (.replaying site callee)) := by
  unfold replay
  simp only [isCall]
  rfl

/-- The state after the calls that wait for a fact have been taken out. -/
def withoutWaiting (scope : Scope) (id : ClassId) (state : State) : State :=
  { state with parked := state.parked.remaining id scope }

/-- **Replaying the calls that wait for a fact** links all of them. -/
theorem replayAll_actions {scope : Scope} {id : ClassId}
    (tracked : setting.granularity.tracksInstantiation = true)
    (present : (scope, id) ∈ state.facts)
    (waits : ∀ parked ∈ state.parked, Waits setting state parked) :
    Actions setting IsRemark (withoutWaiting scope id state) (replayAll setting scope id state) ∧
      ∀ parked ∈ state.parked, parked.receiver = id → parked.scope = scope →
        ∀ call, setting.program.call? parked.site = some call →
          Linked setting (replayAll setting scope id state) parked.site call.kind (some id)
            parked.callee := by
  have each : ∀ waiting ∈ state.parked.waiting id scope, ∀ reached,
      Actions setting IsRemark (withoutWaiting scope id state) reached →
      Actions setting IsRemark reached (replay setting id reached waiting) ∧
        ∀ call, setting.program.call? waiting.1 = some call →
          Linked setting (replay setting id reached waiting) waiting.1 call.kind (some id)
            waiting.2 := by
    rintro ⟨site, callee⟩ member reached actions
    have waiting : Waits setting (withoutWaiting scope id state) ⟨id, scope, site, callee⟩ :=
      (waits _ (Parked.mem_waiting.mp member)).congr rfl rfl
    obtain ⟨call, isCall, linkable⟩ := waiting.linkable tracked present
    have remarked : Actions setting IsRemark reached (reached.remark (.replaying site callee)) :=
      .single (.remarked _ trivial trivial)
    obtain ⟨linking, linked⟩ := link_actions
      (remarked.extends.linkable (actions.extends.linkable linkable))
    rw [replay_eq isCall]
    refine ⟨remarked.trans linking, fun other same => ?_⟩
    rw [isCall] at same
    cases same
    exact linked
  obtain ⟨actions, established⟩ := foldl_reflTransGen (replay setting id)
    (fun waiting state => ∀ call, setting.program.call? waiting.1 = some call →
      Linked setting state waiting.1 call.kind (some id) waiting.2)
    (state.parked.waiting id scope) (withoutWaiting scope id state) each
    fun _ _ _ actions done call isCall => (Actions.extends actions).linked (done call isCall)
  refine ⟨actions, ?_⟩
  rintro ⟨receiver, inScope, site, callee⟩ member rfl rfl call isCall
  exact established (site, callee) (Parked.mem_waiting.mpr member) call isCall

/-- **Drawing the consequences of a fact** makes changes, and then the calls that waited for it are
linked. -/
theorem draw_changes (state : State) {scope : Scope} {id : ClassId}
    (tracked : setting.granularity.tracksInstantiation = true)
    (present : (scope, id) ∈ state.facts)
    (waits : ∀ parked ∈ state.parked, Waits setting state parked) :
    Changes setting (withoutWaiting scope id state) (draw setting scope id state) ∧
      ∀ parked ∈ state.parked, parked.receiver = id → parked.scope = scope →
        ∀ call, setting.program.call? parked.site = some call →
          Linked setting (draw setting scope id state) parked.site call.kind (some id)
            parked.callee := by
  obtain ⟨replayed, linked⟩ := replayAll_actions tracked present waits
  rw [draw_eq]
  have added : Changes setting (replayAll setting scope id state)
      ((replayAll setting scope id state).addAll
        (setting.consequences (replayAll setting scope id state) scope id)) :=
    addAll_changes tracked fun fact member =>
      .followed (replayed.extends.facts _ present) (follows_of_mem_consequences member)
  exact ⟨replayed.changes.trans added, fun parked member receiver inScope call isCall =>
    added.extends.linked (linked parked member receiver inScope call isCall)⟩

end CallFlow.Construction
