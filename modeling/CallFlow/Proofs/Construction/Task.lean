/-
**The tasks of a construction as changes.**

A step draws the consequences of a fact, resolves a call site or processes a method. Each of them is
a sequence of operations, and what it is there for holds afterwards for good: the statements of a
method are absorbed, a call site is handled.

* `Construction.absorb_actions`, `Construction.resolveSite_actions`,
  `Construction.processMethod_actions`: what absorbing, resolving and processing bring about.
* `Construction.step_changes`: a step takes something off its queue and then makes changes.
-/

import CallFlow.Proofs.Construction.Operation

namespace CallFlow.Construction

variable {setting : Setting} {state : State}

/-! ### Statements -/

/-- What a statement of a method contributes is there. -/
structure Absorbed (setting : Setting) (state : State) (method : MethodId) (statement : Statement) :
    Prop where
  allocated : ∀ id, setting.Allocates statement id → (setting.scopeOf method, id) ∈ state.facts
  stored : ∀ field, statement = .store field → setting.holdsObjects field = true →
    (setting.scopeOf method, field) ∈ state.stores
  loaded : ∀ field, statement = .load field → setting.holdsObjects field = true →
    (setting.fieldScope field, setting.scopeOf method) ∈ state.loads

theorem Extends.absorbed {before after : State} (grown : Extends before after) {method : MethodId}
    {statement : Statement} (absorbed : Absorbed setting before method statement) :
    Absorbed setting after method statement where
  allocated id allocates := grown.facts _ (absorbed.allocated id allocates)
  stored field same holds := grown.stores _ (absorbed.stored field same holds)
  loaded field same holds := grown.loads _ (absorbed.loaded field same holds)

/-- Whether a statement is absorbed depends on the facts, the stores and the loads. -/
theorem Absorbed.congr {first second : State} {method : MethodId} {statement : Statement}
    (absorbed : Absorbed setting first method statement) (facts : second.facts = first.facts)
    (stores : second.stores = first.stores) (loads : second.loads = first.loads) :
    Absorbed setting second method statement where
  allocated id allocates := facts ▸ absorbed.allocated id allocates
  stored field same holds := stores ▸ absorbed.stored field same holds
  loaded field same holds := loads ▸ absorbed.loaded field same holds

section Statements

variable {method : MethodId} {statement : Statement}
  (tracked : setting.granularity.tracksInstantiation = true)
  (reachable : method ∈ state.graph.reachable)
include tracked reachable

theorem allocate_actions {id : ClassId}
    (stands : setting.program.HasStatement method statement)
    (allocates : setting.program.isConcrete id = true → setting.Allocates statement id) :
    Actions setting IsPlain state (allocate setting (setting.scopeOf method) id state) ∧
      (setting.program.isConcrete id = true →
        (setting.scopeOf method, id) ∈
          (allocate setting (setting.scopeOf method) id state).facts) := by
  unfold allocate
  split
  · next concrete =>
    exact ⟨.single (.fact tracked (.allocated reachable stands (allocates concrete))),
      fun _ => State.mem_addFact.mpr (.inl rfl)⟩
  · next abstract =>
    exact ⟨.single (.remarked (.ignoredAllocation id) trivial trivial),
      fun concrete => absurd concrete abstract⟩

/-- **Absorbing a statement** of a reachable method is a sequence of operations, and then what the
statement contributes is there. -/
theorem absorb_actions (stands : setting.program.HasStatement method statement) :
    Actions setting IsPlain state (absorb setting (setting.scopeOf method) state statement) ∧
      Absorbed setting (absorb setting (setting.scopeOf method) state statement) method
        statement := by
  cases statement with
  | new allocated =>
    obtain ⟨actions, present⟩ := allocate_actions tracked reachable stands .new
    refine ⟨actions, ?_, nofun, nofun⟩
    intro id allocates
    cases allocates with
    | new concrete => exact present concrete
  | newArray element =>
    simp only [absorb]
    split
    · next base counts found =>
      obtain ⟨actions, present⟩ := allocate_actions tracked reachable stands
        (Setting.Allocates.newArray counts found)
      refine ⟨actions, ?_, nofun, nofun⟩
      intro id allocates
      cases allocates with
      | newArray _ same concrete =>
        rw [found] at same
        cases same
        exact present concrete
    · next missing =>
      refine ⟨.refl, ?_, nofun, nofun⟩
      intro id allocates
      cases allocates with
      | newArray counts found _ => exact (missing id counts found).elim
  | store field =>
    refine ⟨.single (.stored tracked reachable stands), nofun, ?_, nofun⟩
    intro other same holds
    cases same
    exact (addStore_changes tracked reachable stands).2 holds
  | load field =>
    refine ⟨.single (.loaded tracked reachable stands), nofun, nofun, ?_⟩
    intro other same holds
    cases same
    exact (addLoad_changes tracked reachable stands).2 holds
  | invoke call => exact ⟨.refl, nofun, nofun, nofun⟩
  | other => exact ⟨.refl, nofun, nofun, nofun⟩

end Statements

/-! ### Call sites -/

/-- A call site has been resolved: the hierarchy has answered, the methods that are called whatever is
instantiated are linked, and each receiver class has arrived and is linked, or the call is parked until
it arrives. -/
structure Handled (setting : Setting) (state : State) (site : Site) (call : Call) : Prop where
  recognised : call.kind ≠ .other
  answers : setting.hierarchy.Answers call
  linked : ∀ callee, Selects setting state.facts site call none callee →
    ⟨site, call.kind, callee⟩ ∈ state.graph.edges
  received : call.kind.isVirtual = true → setting.granularity.tracksInstantiation = true →
    ∀ id callee, setting.Receives call.target id callee →
      ⟨id, setting.scopeOf site.method, site, callee⟩ ∈ state.parked ∨
        (setting.scopeOf site.method, id) ∈ state.facts ∧
          Linked setting state site call.kind (some id) callee

/-- What is called whatever is instantiated does not depend on the facts. -/
theorem Selects.any_facts {first second : Facts} {site : Site} {call : Call} {callee : MethodId}
    (selected : Selects setting first site call none callee) :
    Selects setting second site call none callee := by
  cases selected with
  | declared direct resolved concrete => exact .declared direct resolved concrete
  | dispatched virtual untracked receives => exact .dispatched virtual untracked receives

theorem Extends.handled {before after : State} (grown : Extends before after) {site : Site}
    {call : Call} (handled : Handled setting before site call) :
    Handled setting after site call where
  recognised := handled.recognised
  answers := handled.answers
  linked callee selected := grown.edges _ (handled.linked callee selected.any_facts)
  received virtual tracked id callee receives := by
    rcases handled.received virtual tracked id callee receives with parked | ⟨present, linked⟩
    · exact .inl (grown.parked _ parked)
    · exact .inr ⟨grown.facts _ present, grown.linked linked⟩

/-- Whether a call site is handled depends on the edges, the facts and the parked calls. -/
theorem Handled.congr {first second : State} {site : Site} {call : Call}
    (handled : Handled setting first site call) (edges : second.graph.edges = first.graph.edges)
    (facts : second.facts = first.facts) (parked : second.parked = first.parked) :
    Handled setting second site call where
  recognised := handled.recognised
  answers := handled.answers
  linked callee selected := edges ▸ handled.linked callee selected.any_facts
  received virtual tracked id callee receives := by
    rw [parked, facts]
    refine (handled.received virtual tracked id callee receives).imp_right fun arrived => ?_
    exact ⟨arrived.1, edges ▸ arrived.2.edge, facts ▸ arrived.2.arrived⟩

/-- A call that is not virtual calls at most what is declared for it. -/
theorem Handled.of_direct {site : Site} {call : Call} (recognised : call.kind ≠ .other)
    (answers : setting.hierarchy.Answers call) (direct : call.kind.isVirtual = false)
    (linked : ∀ callee, call.kind = .static ∨ call.kind = .special →
      setting.hierarchy.resolve call.target = .ok (some callee) →
      setting.program.isAbstract callee = false → ⟨site, call.kind, callee⟩ ∈ state.graph.edges) :
    Handled setting state site call where
  recognised := recognised
  answers := answers
  linked callee selected := by
    cases selected with
    | declared kind resolved concrete => exact linked callee kind resolved concrete
    | dispatched virtual _ _ => rw [direct] at virtual; cases virtual
  received virtual := by
    rw [direct] at virtual
    cases virtual

theorem park_eq (site : Site) (pair : ClassId × MethodId) :
    park setting site state pair =
      if ⟨pair.1, setting.scopeOf site.method, site, pair.2⟩ ∈ state.parked then state
      else state.addParked ⟨pair.1, setting.scopeOf site.method, site, pair.2⟩ := rfl

section Sites

variable {site : Site} {call : Call} {next : State}
  (reachable : site.method ∈ state.graph.reachable)

theorem checkStatic_actions (kind : CallKind) (callee : MethodId) :
    Actions setting IsPlain state (checkStatic setting site kind callee state) := by
  unfold checkStatic
  split
  · exact .refl
  · exact .single (.remarked (.kindMismatch site callee kind) trivial trivial)

include reachable

theorem resolveDeclared_actions (isCall : setting.program.call? site = some call)
    (direct : call.kind = .static ∨ call.kind = .special)
    (resolved : resolveDeclared setting site call state = .ok next) :
    Actions setting IsPlain state next ∧ Handled setting next site call := by
  have recognised : call.kind ≠ .other := by rcases direct with same | same <;> rw [same] <;> decide
  have notVirtual : call.kind.isVirtual = false := by
    rcases direct with same | same <;> rw [same] <;> rfl
  unfold resolveDeclared at resolved
  split at resolved
  · cases resolved
  · next declared found =>
    have answers : setting.hierarchy.Answers call :=
      ⟨fun _ => ⟨declared, found⟩, fun virtual => by rw [notVirtual] at virtual; cases virtual⟩
    split at resolved
    · next callee chosen =>
      cases resolved
      obtain ⟨rfl, concrete⟩ := Option.filter_eq_some_iff.mp chosen
      have checked : Actions setting IsPlain state (checkStatic setting site call.kind callee state) :=
        checkStatic_actions call.kind callee
      have linkable : Linkable setting state site call none callee :=
        ⟨reachable, isCall, .declared direct found (by simpa using concrete), fun virtual => by
          rw [notVirtual] at virtual; cases virtual⟩
      obtain ⟨linking, linked⟩ := link_actions (checked.extends.linkable linkable)
      refine ⟨checked.trans linking, .of_direct recognised answers notVirtual ?_⟩
      intro other _ same _
      rw [found] at same
      cases same
      exact linked.edge
    · next missing =>
      cases resolved
      refine ⟨.single (.remarked (.missingDeclaration site call.target) trivial trivial),
        .of_direct recognised answers notVirtual ?_⟩
      intro callee _ same concrete
      rw [found] at same
      cases same
      simp [Option.filter, concrete] at missing

theorem foldl_park_actions
    (tracked : setting.granularity.tracksInstantiation = true)
    (pairs : List (ClassId × MethodId))
    (waits : ∀ pair ∈ pairs,
      Waits setting state ⟨pair.1, setting.scopeOf site.method, site, pair.2⟩)
    (absent : ∀ pair ∈ pairs, (setting.scopeOf site.method, pair.1) ∉ state.facts) :
    Actions setting IsPlain state (pairs.foldl (park setting site) state) ∧
      ∀ pair ∈ pairs, ⟨pair.1, setting.scopeOf site.method, site, pair.2⟩ ∈
        (pairs.foldl (park setting site) state).parked := by
  induction pairs generalizing state with
  | nil => exact ⟨.refl, fun _ member => absurd member List.not_mem_nil⟩
  | cons pair rest hyp =>
    have parking : Actions setting IsPlain state (park setting site state pair) ∧
        (park setting site state pair).facts = state.facts ∧
        ⟨pair.1, setting.scopeOf site.method, site, pair.2⟩ ∈
          (park setting site state pair).parked := by
      rw [park_eq]
      split
      · next known => exact ⟨.refl, rfl, known⟩
      · next fresh =>
        exact ⟨.single (.parked tracked (waits pair List.mem_cons_self)
          (absent pair List.mem_cons_self) fresh), rfl, Parked.mem_park.mpr (.inl rfl)⟩
    obtain ⟨parks, sameFacts, parked⟩ := parking
    obtain ⟨actions, others⟩ := hyp (parks.extends.reachable reachable)
      (fun other member => parks.extends.waits (waits other (List.mem_cons_of_mem _ member)))
      fun other member => by
        rw [sameFacts]
        exact absent other (List.mem_cons_of_mem _ member)
    refine ⟨parks.trans actions, fun other member => ?_⟩
    rcases List.mem_cons.mp member with rfl | member
    · exact actions.extends.parked _ parked
    · exact others other member

omit reachable in
/-- Linking a call to the methods of a list of receivers. -/
theorem foldl_link_actions (state : State) (call : Call) (receiver : ClassId → Option ClassId)
    (pairs : List (ClassId × MethodId))
    (linkable : ∀ pair ∈ pairs, Linkable setting state site call (receiver pair.1) pair.2) :
    Actions setting IsPlain state (pairs.foldl
        (fun state pair => link setting site call pair.2 (receiver pair.1) state) state) ∧
      ∀ pair ∈ pairs, Linked setting (pairs.foldl
        (fun state pair => link setting site call pair.2 (receiver pair.1) state) state)
          site call.kind (receiver pair.1) pair.2 :=
  foldl_reflTransGen (fun state pair => link setting site call pair.2 (receiver pair.1) state)
    (fun pair state => Linked setting state site call.kind (receiver pair.1) pair.2) pairs state
    (fun pair member _ (actions : Actions setting IsPlain state _) =>
      link_actions (actions.extends.linkable (linkable pair member)))
    fun pair _ _ (actions : Actions setting IsPlain _ _) linked => by
      show Linked setting _ site call.kind (receiver pair.1) pair.2
      exact actions.extends.linked linked

/-- Parking a virtual call for the absent receivers and linking it for the present ones. -/
def parkAndLink (setting : Setting) (site : Site) (call : Call)
    (receivers : List (ClassId × MethodId)) (state : State) : State :=
  (receivers.filter fun pair => state.facts.has (setting.scopeOf site.method) pair.1).foldl
    (fun state pair => link setting site call pair.2 (some pair.1) state)
    ((receivers.filter fun pair => !state.facts.has (setting.scopeOf site.method) pair.1).foldl
      (park setting site) state)

omit reachable in
theorem resolveVirtual_eq : resolveVirtual setting site call state =
    match state.cache.ask setting.hierarchy call.target with
    | .error fault => .error (.fault fault)
    | .ok (receivers, cache) =>
      if setting.granularity.tracksInstantiation then
        .ok (parkAndLink setting site call receivers { state with cache })
      else
        .ok (receivers.foldl (fun state pair => link setting site call pair.2 none state)
          { state with cache }) := by
  unfold resolveVirtual parkAndLink
  cases state.cache.ask setting.hierarchy call.target with
  | error fault => rfl
  | ok answer =>
    simp only [List.partition_eq_filter_filter]
    rfl

/-- Afterwards the call is parked or linked for every receiver. -/
theorem parkAndLink_actions (isCall : setting.program.call? site = some call)
    (virtual : call.kind.isVirtual = true)
    (known : (state.cache.known.lookup call.target).isSome = true)
    (tracked : setting.granularity.tracksInstantiation = true)
    {receivers : List (ClassId × MethodId)}
    (receives : ∀ pair ∈ receivers, setting.Receives call.target pair.1 pair.2) :
    Actions setting IsPlain state (parkAndLink setting site call receivers state) ∧
      ∀ id callee, (id, callee) ∈ receivers →
        ⟨id, setting.scopeOf site.method, site, callee⟩ ∈
          (parkAndLink setting site call receivers state).parked ∨
        (setting.scopeOf site.method, id) ∈
          (parkAndLink setting site call receivers state).facts ∧
          Linked setting (parkAndLink setting site call receivers state) site call.kind
            (some id) callee := by
  obtain ⟨parking, parked⟩ := foldl_park_actions reachable tracked
    (receivers.filter fun pair => !state.facts.has (setting.scopeOf site.method) pair.1)
    (fun pair member => ⟨reachable, rfl, call, isCall, virtual, known,
      receives pair (List.mem_filter.mp member).1⟩)
    fun pair member => by simpa [← Facts.has_iff] using (List.mem_filter.mp member).2
  obtain ⟨linking, linked⟩ := foldl_link_actions _ call some
    (receivers.filter fun pair => state.facts.has (setting.scopeOf site.method) pair.1)
    fun pair member => parking.extends.linkable ⟨reachable, isCall, .received virtual tracked
      (by simpa using (List.mem_filter.mp member).2)
      (receives pair (List.mem_filter.mp member).1), fun _ => known⟩
  refine ⟨parking.trans linking, fun id callee member => ?_⟩
  by_cases present : (setting.scopeOf site.method, id) ∈ state.facts
  · exact .inr ⟨linking.extends.facts _ (parking.extends.facts _ present),
      linked (id, callee) (List.mem_filter.mpr ⟨member, by simpa using present⟩)⟩
  · exact .inl (linking.extends.parked _
      (parked (id, callee) (List.mem_filter.mpr ⟨member, by simpa [← Facts.has_iff] using present⟩)))

theorem resolveVirtual_actions (isCall : setting.program.call? site = some call)
    (coherent : Coherent setting state) (virtual : call.kind.isVirtual = true)
    (resolved : resolveVirtual setting site call state = .ok next) :
    Actions setting IsPlain state next ∧ Handled setting next site call := by
  have recognised : call.kind ≠ .other := by
    intro same
    rw [same] at virtual
    cases virtual
  have unnamed : ¬ (call.kind = .static ∨ call.kind = .special) := by
    rintro (same | same) <;> rw [same] at virtual <;> cases virtual
  have indirect (facts : Facts) {callee : MethodId}
      (selected : Selects setting facts site call none callee) :
      setting.granularity.tracksInstantiation = false ∧
        ∃ id, setting.Receives call.target id callee := by
    cases selected with
    | declared direct _ _ => exact absurd direct unnamed
    | dispatched _ untracked receives => exact ⟨untracked, _, receives⟩
  rw [resolveVirtual_eq] at resolved
  split at resolved
  · cases resolved
  · next receivers cache answer =>
    obtain ⟨looked, _⟩ := answers_ask coherent.answers answer
    have answers : setting.hierarchy.Answers call :=
      ⟨fun direct => absurd direct unnamed, fun _ => ⟨receivers, looked⟩⟩
    have receives {id : ClassId} {callee : MethodId} :
        (id, callee) ∈ receivers ↔ setting.Receives call.target id callee :=
      Hierarchy.mem_receivers looked
    have asked : Actions setting IsPlain state { state with cache } := .single (.asked answer)
    have known : (cache.known.lookup call.target).isSome = true :=
      state.cache.isSome_ask answer (.inr rfl)
    split at resolved
    · next tracked =>
      cases resolved
      obtain ⟨actions, handled⟩ := parkAndLink_actions
        (asked.extends.reachable reachable) isCall virtual known tracked
        fun pair member => receives.mp member
      refine ⟨asked.trans actions, recognised, answers, ?_, ?_⟩
      · intro callee selected
        have untracked := (indirect _ selected).1
        rw [tracked] at untracked
        cases untracked
      · exact fun _ _ id callee receiving => handled id callee (receives.mpr receiving)
    · next untracked =>
      cases resolved
      rw [Bool.not_eq_true] at untracked
      obtain ⟨linking, linked⟩ := foldl_link_actions { state with cache } call
        (fun _ => none) receivers fun pair member => ⟨asked.extends.reachable reachable, isCall,
          .dispatched virtual untracked (receives.mp member), fun _ => known⟩
      refine ⟨asked.trans linking, recognised, answers, ?_, ?_⟩
      · intro callee selected
        obtain ⟨_, id, receiving⟩ := indirect _ selected
        exact (linked _ (receives.mpr receiving)).edge
      · intro _ tracked
        rw [tracked] at untracked
        cases untracked

omit reachable in
/-- **Resolving a call site** of a reachable method makes actions, and then the site is handled. -/
theorem resolveSite_actions (state : State) (reachable : site.method ∈ state.graph.reachable)
    (coherent : Coherent setting state)
    (resolved : resolveSite setting site state = .ok next) :
    Actions setting IsPlain state next ∧
      ∀ call, setting.program.call? site = some call → Handled setting next site call := by
  unfold resolveSite at resolved
  split at resolved
  · next missing =>
    cases resolved
    exact ⟨.refl, fun call isCall => by rw [missing] at isCall; cases isCall⟩
  · next call isCall =>
    have only {handled : Call → Prop} (this : handled call) :
        ∀ other, setting.program.call? site = some other → handled other := by
      intro other same
      rw [isCall] at same
      cases same
      exact this
    split at resolved
    · next kind =>
      obtain ⟨actions, handled⟩ := resolveDeclared_actions reachable isCall (.inl kind) resolved
      exact ⟨actions, only handled⟩
    · next kind =>
      obtain ⟨actions, handled⟩ := resolveDeclared_actions reachable isCall (.inr kind) resolved
      exact ⟨actions, only handled⟩
    · next kind =>
      obtain ⟨actions, handled⟩ := resolveVirtual_actions reachable isCall coherent
        (by rw [kind]; rfl) resolved
      exact ⟨actions, only handled⟩
    · next kind =>
      obtain ⟨actions, handled⟩ := resolveVirtual_actions reachable isCall coherent
        (by rw [kind]; rfl) resolved
      exact ⟨actions, only handled⟩
    · next kind =>
      cases resolved
      refine ⟨.single (.remarked (.unresolvedDynamic site) trivial trivial),
        only (.of_direct (by rw [kind]; decide) (.of_dynamic kind) (by rw [kind]; rfl) ?_)⟩
      intro callee direct
      rw [kind] at direct
      rcases direct with same | same <;> cases same
    · cases resolved

end Sites

/-! ### Methods -/

theorem absorbBody_actions {method : MethodId} {info : Method} {next : State}
    (reachable : method ∈ state.graph.reachable) (found : setting.program.method? method = some info)
    (absorbed : absorbBody setting method info.body state = .ok next) :
    Actions setting IsPlain state next ∧ (setting.granularity.tracksInstantiation = true →
      ∀ statement, setting.program.HasStatement method statement →
        Absorbed setting next method statement) := by
  unfold absorbBody at absorbed
  split at absorbed
  · next untracked =>
    cases absorbed
    refine ⟨.refl, fun tracked => ?_⟩
    rw [tracked] at untracked
    cases untracked
  · next tracked =>
    simp only [Bool.not_eq_true, Bool.not_eq_false'] at tracked
    split at absorbed
    · cases absorbed
      obtain ⟨actions, all⟩ := foldl_reflTransGen (absorb setting (setting.scopeOf method))
        (fun statement state => Absorbed setting state method statement) info.body state
        (fun statement member _ (actions : Actions setting IsPlain state _) =>
          absorb_actions tracked (actions.extends.reachable reachable) ⟨info, found, member⟩)
        fun _ _ _ (actions : Actions setting IsPlain _ _) absorbed =>
          actions.extends.absorbed absorbed
      refine ⟨actions, fun _ statement stands => ?_⟩
      obtain ⟨other, same, member⟩ := stands
      rw [found] at same
      cases same
      exact all statement member
    · cases absorbed

theorem mem_reachable_discover {method other : MethodId} (fresh : method ∉ state.graph.reachable) :
    other ∈ (State.discover setting method state).graph.reachable ↔
      other ∈ state.graph.reachable ∨ other = method := by
  show other ∈ (state.graph.discover _ _).reachable ↔ _
  rw [state.graph.discover_of_fresh _ fresh]
  simp [CallGraph.reachable]

/-- **Processing a method** that is not reachable makes it reachable and takes in its statements;
nothing is done for a method that is reachable. -/
theorem processMethod_actions (state : State) {method : MethodId} {next : State}
    (processed : processMethod setting method state = .ok next) :
    method ∈ state.graph.reachable ∧ next = state ∨
      method ∉ state.graph.reachable ∧ (setting.program.method? method).isSome = true ∧
        Actions setting IsPlain (State.discover setting method state) next ∧
        (setting.granularity.tracksInstantiation = true →
          ∀ statement, setting.program.HasStatement method statement →
            Absorbed setting next method statement) := by
  unfold processMethod at processed
  split at processed
  · next known =>
    cases processed
    exact .inl ⟨state.graph.contains_iff.mp known, rfl⟩
  · next unknown =>
    have fresh : method ∉ state.graph.reachable := fun known =>
      unknown (state.graph.contains_iff.mpr known)
    split at processed
    · cases processed
    · next info found =>
      obtain ⟨actions, absorbed⟩ := absorbBody_actions
        ((mem_reachable_discover fresh).mpr (.inr rfl)) found processed
      exact .inr ⟨fresh, by rw [found]; rfl, actions, absorbed⟩

/-! ### Steps -/

/-- What a step does, by the queues. -/
theorem step_cases {outcome : Except BuildError State}
    (stepped : step setting state = some outcome) :
    (∃ scope id events, state.events = (scope, id) :: events ∧
      outcome = .ok (draw setting scope id { state with events })) ∨
    (∃ site sites, state.events = [] ∧ state.sites = site :: sites ∧
      outcome = resolveSite setting site { state with sites }) ∨
    ∃ method methods, state.events = [] ∧ state.sites = [] ∧ state.methods = method :: methods ∧
      outcome = processMethod setting method { state with methods } := by
  unfold step at stepped
  split at stepped
  · next scope id events waiting =>
    cases stepped
    exact .inl ⟨scope, id, events, waiting, rfl⟩
  · next site sites drained waiting =>
    cases stepped
    exact .inr (.inl ⟨site, sites, drained, waiting, rfl⟩)
  · next method methods drained idle waiting =>
    cases stepped
    exact .inr (.inr ⟨method, methods, drained, idle, waiting, rfl⟩)
  · cases stepped

/-- Nothing is left when all queues are empty. -/
theorem step_eq_none_iff :
    step setting state = none ↔ state.events = [] ∧ state.sites = [] ∧ state.methods = [] := by
  unfold step
  constructor
  · intro finished
    split at finished
    · cases finished
    · cases finished
    · cases finished
    · next drained idle done => exact ⟨drained, idle, done⟩
  · rintro ⟨drained, idle, done⟩
    rw [drained, idle, done]

theorem Coherent.tracked_of_mem (coherent : Coherent setting state) {fact : Scope × ClassId}
    (present : fact ∈ state.facts) : setting.granularity.tracksInstantiation = true := by
  by_contra untracked
  exact (coherent.untracked (Bool.not_eq_true _ ▸ untracked)).1 fact present

/-- **A step takes the most urgent thing off its queue and then makes changes.** -/
theorem step_changes {next : State} (coherent : Coherent setting state)
    (stepped : step setting state = some (.ok next)) :
    ∃ taken, Takes setting state taken ∧ Changes setting taken next := by
  rcases step_cases stepped with ⟨scope, id, events, waiting, same⟩ |
    ⟨site, sites, drained, waiting, same⟩ | ⟨method, methods, drained, idle, waiting, same⟩
  · cases same
    have present : (scope, id) ∈ state.facts :=
      coherent.queued _ (waiting ▸ List.mem_cons_self)
    exact ⟨_, .event waiting, (draw_changes { state with events }
      (coherent.tracked_of_mem present) present
      fun parked member => (coherent.waits parked member).congr rfl rfl).1⟩
  · have takes : Takes setting state { state with sites } := .site drained waiting
    obtain ⟨actions, _⟩ := resolveSite_actions { state with sites }
      (coherent.sites site (waiting ▸ List.mem_cons_self)) (takes.coherent coherent) same.symm
    exact ⟨_, takes, actions.changes⟩
  · rcases processMethod_actions { state with methods } same.symm with ⟨known, rfl⟩ |
      ⟨fresh, inRange, actions, _⟩
    · exact ⟨_, .known drained idle waiting known, .refl⟩
    · exact ⟨_, .discovered drained idle waiting fresh inRange, actions.changes⟩

end CallFlow.Construction
