/-
**What the counts of a construction count.**

Resolving a call site adds one to at most one count, and says by its call which one. Linking, parking,
replaying and absorbing do not touch these counts. As the call sites of the reachable methods are
resolved once each, in the order of their discovery, the counts can be read off their list.

* `Construction.SiteCounts`, `Construction.SiteCounts.resolve`: the counts, and what a call site adds.
* `Construction.resolveSite_siteCounts`, `Construction.step_siteCounts`: nothing else adds to them.
* `Construction.Counted`: what they come to for a list of call sites.
* `Construction.Reaches.counted`, `Construction.counted_of_idle`: the counts in every state, and in the end.
-/

import CallFlow.Proofs.Construction.Discovery

namespace CallFlow

/-- Whether a call names a declaration. -/
def CallKind.isDirect : CallKind → Bool
  | .static | .special => true
  | _ => false

/-- Such a call is neither virtual nor dynamic. -/
theorem CallKind.others_of_direct {kind : CallKind} (direct : kind.isDirect = true) :
    kind.isVirtual = false ∧ kind ≠ .dynamic := by
  cases kind <;> simp_all [isDirect, isVirtual]

/-- A virtual call neither names a declaration nor is it dynamic. -/
theorem CallKind.others_of_virtual {kind : CallKind} (virtual : kind.isVirtual = true) :
    kind.isDirect = false ∧ kind ≠ .dynamic := by
  cases kind <;> simp_all [isDirect, isVirtual]

namespace Construction

variable {setting : Setting} {entry : MethodId} {past : List State} {state : State}

/-! ### What is asked of a call site -/

section Sites

variable (setting : Setting) (site : Site)

/-- The declaration that a static or special call is linked to. -/
def Setting.declared? (target : Target) : Option MethodId :=
  (setting.hierarchy.resolve target).toOption.join.filter fun callee =>
    !setting.program.isAbstract callee

/-- The target of the virtual call at a site. -/
def Setting.virtualTarget? : Option Target :=
  (setting.program.call? site).bind fun call =>
    if call.kind.isVirtual then some call.target else none

/-- Whether a dynamic call stands at a site. -/
def Setting.isDynamic : Bool := (setting.program.call? site).any fun call => call.kind = .dynamic

/-- Whether a static or special call stands at a site without a declaration to link it to. -/
def Setting.isSkipped : Bool :=
  (setting.program.call? site).any fun call =>
    call.kind.isDirect && (setting.declared? call.target).isNone

/-- Whether a static or special call stands at a site and disagrees with its declaration. -/
def Setting.isMismatched : Bool :=
  (setting.program.call? site).any fun call =>
    call.kind.isDirect && (setting.declared? call.target).any fun callee =>
      setting.program.isStatic callee != (call.kind = .static : Bool)

end Sites

/-! ### The counts -/

/-- What has been counted about the call sites resolved so far. -/
structure SiteCounts where
  /-- The virtual targets that are known. -/
  targets : List Target := []
  hits : Nat := 0
  misses : Nat := 0
  dynamic : Nat := 0
  skipped : Nat := 0
  mismatched : Nat := 0
  deriving DecidableEq, Repr, Inhabited

/-- The counts as they stand in a state. -/
def State.siteCounts (state : State) : SiteCounts where
  targets := state.cache.known.map Prod.fst
  hits := state.cache.hits
  misses := state.cache.misses
  dynamic := state.counters.unresolvedDynamic
  skipped := state.counters.skippedTargets
  mismatched := state.counters.kindMismatches

namespace SiteCounts

/-- What a question about the receivers of a target adds to the counts. -/
def ask (counts : SiteCounts) (target : Target) : SiteCounts :=
  if target ∈ counts.targets then { counts with hits := counts.hits + 1 }
  else { counts with targets := target :: counts.targets, misses := counts.misses + 1 }

/-- What a call site adds to the counts when it is resolved. -/
def resolve (setting : Setting) (counts : SiteCounts) (site : Site) : SiteCounts :=
  { (setting.virtualTarget? site).elim counts counts.ask with
    dynamic := counts.dynamic + if setting.isDynamic site then 1 else 0
    skipped := counts.skipped + if setting.isSkipped site then 1 else 0
    mismatched := counts.mismatched + if setting.isMismatched site then 1 else 0 }

variable {counts : SiteCounts} {site : Site} {call : Call}
  (isCall : setting.program.call? site = some call)
include isCall

/-- A static or special call adds to at most one count. -/
theorem resolve_direct (direct : call.kind.isDirect = true) : counts.resolve setting site =
    match setting.declared? call.target with
    | none => { counts with skipped := counts.skipped + 1 }
    | some callee =>
      if setting.program.isStatic callee = (call.kind = .static : Bool) then counts
      else { counts with mismatched := counts.mismatched + 1 } := by
  have others := CallKind.others_of_direct direct
  unfold resolve Setting.virtualTarget? Setting.isDynamic Setting.isSkipped Setting.isMismatched
  cases declared : setting.declared? call.target with
  | none => simp [isCall, direct, others, declared]
  | some callee =>
    by_cases agrees : setting.program.isStatic callee = (call.kind = .static : Bool)
    · simp [isCall, direct, others, declared, agrees]
    · simp [isCall, direct, others, declared, agrees]

/-- A virtual call asks for its target and adds nothing else. -/
theorem resolve_virtual (virtual : call.kind.isVirtual = true) :
    counts.resolve setting site = counts.ask call.target := by
  have others := CallKind.others_of_virtual virtual
  unfold resolve Setting.virtualTarget? Setting.isDynamic Setting.isSkipped Setting.isMismatched ask
  by_cases known : call.target ∈ counts.targets
  · simp [isCall, virtual, others, known]
  · simp [isCall, virtual, others, known]

theorem resolve_dynamic (dynamic : call.kind = .dynamic) :
    counts.resolve setting site = { counts with dynamic := counts.dynamic + 1 } := by
  unfold resolve Setting.virtualTarget? Setting.isDynamic Setting.isSkipped Setting.isMismatched
  simp [isCall, dynamic, CallKind.isDirect, CallKind.isVirtual]

end SiteCounts

/-! ### What leaves the counts alone -/

theorem isSome_lookup_iff {α β : Type} [DecidableEq α] {pairs : List (α × β)} {key : α} :
    (pairs.lookup key).isSome = true ↔ key ∈ pairs.map Prod.fst := by
  rw [List.lookup_isSome_iff, List.mem_map]
  constructor
  · rintro ⟨pair, member, same⟩
    exact ⟨pair, member, (beq_iff_eq.mp same).symm⟩
  · rintro ⟨pair, member, same⟩
    exact ⟨pair, member, beq_iff_eq.mpr same.symm⟩

@[simp] theorem addAll_siteCounts (facts : List (Scope × ClassId)) :
    (state.addAll facts).siteCounts = state.siteCounts := by
  obtain ⟨_, _, _, same⟩ := state.addAll_frame facts
  rw [same]
  rfl

@[simp] theorem addFact_siteCounts (scope : Scope) (id : ClassId) :
    (state.addFact scope id).siteCounts = state.siteCounts :=
  addAll_siteCounts [(scope, id)]

theorem connect_siteCounts (site : Site) (call : Call) (callee : MethodId) :
    (connect setting site call callee state).siteCounts = state.siteCounts := by
  rw [connect_eq]
  split
  · rfl
  · split
    · rw [seed_eq]
      simp only [addAll_siteCounts]
      rfl
    · rfl

/-- Remembering a method for a target that is known. -/
theorem remember_siteCounts {target : Target} (callee : MethodId)
    (known : target ∈ state.siteCounts.targets) :
    (state.remember target callee).siteCounts = state.siteCounts := by
  unfold State.remember TargetCache.record State.siteCounts
  rw [if_pos (isSome_lookup_iff.mpr known)]

theorem link_siteCounts {site : Site} {call : Call} (callee : MethodId) (receiver : Option ClassId)
    (known : call.kind.isVirtual = true → call.target ∈ state.siteCounts.targets) :
    (link setting site call callee receiver state).siteCounts = state.siteCounts := by
  have untargeted {before : State} (same : before.siteCounts = state.siteCounts) :
      (link setting site call callee none before).siteCounts = state.siteCounts := by
    rw [link_none, connect_siteCounts]
    split
    · next virtual =>
      rw [← same] at known ⊢
      exact remember_siteCounts callee (known virtual)
    · exact same
  cases receiver with
  | none => exact untargeted rfl
  | some id =>
    cases tracked : setting.granularity.tracksInstantiation with
    | true =>
      rw [link_some tracked]
      exact untargeted (addFact_siteCounts _ _)
    | false =>
      have ignored : link setting site call callee (some id) state =
          link setting site call callee none state := by
        unfold link
        rw [tracked]
      rw [ignored]
      exact untargeted rfl

/-- Linking a call to the methods of a list of receivers. -/
theorem foldl_link_siteCounts {site : Site} {call : Call} (receiver : ClassId → Option ClassId)
    (pairs : List (ClassId × MethodId))
    (known : call.kind.isVirtual = true → call.target ∈ state.siteCounts.targets) :
    (pairs.foldl (fun state pair => link setting site call pair.2 (receiver pair.1) state)
      state).siteCounts = state.siteCounts := by
  induction pairs generalizing state with
  | nil => rfl
  | cons pair rest hyp =>
    have first : (link setting site call pair.2 (receiver pair.1) state).siteCounts =
        state.siteCounts := link_siteCounts pair.2 (receiver pair.1) known
    rw [List.foldl_cons, hyp (first ▸ known), first]

theorem foldl_park_siteCounts (site : Site) (pairs : List (ClassId × MethodId)) :
    (pairs.foldl (park setting site) state).siteCounts = state.siteCounts := by
  induction pairs generalizing state with
  | nil => rfl
  | cons pair rest hyp =>
    rw [List.foldl_cons, hyp, park_eq]
    split <;> rfl

/-- Replaying calls whose targets are known. -/
theorem foldl_replay_siteCounts (id : ClassId) (waiting : List (Site × MethodId))
    (known : ∀ pair ∈ waiting, ∃ call, setting.program.call? pair.1 = some call ∧
      call.target ∈ state.siteCounts.targets) :
    (waiting.foldl (replay setting id) state).siteCounts = state.siteCounts := by
  induction waiting generalizing state with
  | nil => rfl
  | cons first rest hyp =>
    obtain ⟨site, callee⟩ := first
    obtain ⟨call, isCall, target⟩ := known (site, callee) List.mem_cons_self
    have remarked : (state.remark (.replaying site callee)).siteCounts = state.siteCounts := rfl
    have replayed : (replay setting id state (site, callee)).siteCounts = state.siteCounts := by
      rw [replay_eq isCall, link_siteCounts _ _ fun _ => remarked ▸ target, remarked]
    rw [List.foldl_cons, hyp, replayed]
    rw [replayed]
    exact fun pair member => known pair (List.mem_cons_of_mem _ member)

/-- **Drawing the consequences of a fact leaves the counts.** -/
theorem draw_siteCounts (scope : Scope) (id : ClassId)
    (waits : ∀ parked ∈ state.parked, Waits setting state parked) :
    (draw setting scope id state).siteCounts = state.siteCounts := by
  rw [draw_eq, addAll_siteCounts]
  unfold replayAll
  rw [foldl_replay_siteCounts]
  · rfl
  · rintro ⟨site, callee⟩ member
    obtain ⟨call, isCall, _, known, _⟩ := (waits _ (Parked.mem_waiting.mp member)).isCall
    exact ⟨call, isCall, isSome_lookup_iff.mp known⟩

theorem allocate_siteCounts (scope : Scope) (id : ClassId) :
    (allocate setting scope id state).siteCounts = state.siteCounts := by
  unfold allocate
  split
  · exact addFact_siteCounts scope id
  · rfl

theorem absorb_siteCounts (scope : Scope) (statement : Statement) :
    (absorb setting scope state statement).siteCounts = state.siteCounts := by
  cases statement with
  | new allocated => exact allocate_siteCounts scope allocated
  | newArray element =>
    simp only [absorb]
    split
    · exact allocate_siteCounts scope _
    · rfl
  | store field =>
    show (addStore setting scope field state).siteCounts = _
    rw [addStore_eq]
    split
    · rfl
    · rw [addAll_siteCounts]
      rfl
  | load field =>
    show (addLoad setting scope field state).siteCounts = _
    rw [addLoad_eq]
    split
    · rfl
    · rw [addAll_siteCounts]
      rfl
  | invoke call => rfl
  | other => rfl

/-- **Processing a method leaves the counts.** -/
theorem processMethod_siteCounts {method : MethodId} {next : State}
    (processed : processMethod setting method state = .ok next) :
    next.siteCounts = state.siteCounts := by
  have absorbed (body : List Statement) (scope : Scope) (state : State) :
      (body.foldl (absorb setting scope) state).siteCounts = state.siteCounts := by
    induction body generalizing state with
    | nil => rfl
    | cons first rest hyp => rw [List.foldl_cons, hyp, absorb_siteCounts]
  unfold processMethod at processed
  split at processed
  · cases processed
    rfl
  · split at processed
    · cases processed
    · unfold absorbBody at processed
      split at processed
      · cases processed
        rfl
      · split at processed
        · cases processed
          rw [absorbed]
          rfl
        · cases processed

/-! ### What resolving a call site counts -/

/-- A question makes its target known, and counts whether it was. -/
theorem ask_siteCounts {target : Target} {receivers : List (ClassId × MethodId)} {cache : TargetCache}
    (answer : state.cache.ask setting.hierarchy target = .ok (receivers, cache)) :
    target ∈ (State.siteCounts { state with cache }).targets ∧
      State.siteCounts { state with cache } = state.siteCounts.ask target := by
  unfold SiteCounts.ask
  rcases state.cache.ask_cases answer with ⟨found, rfl⟩ | ⟨unknown, _, rfl⟩
  · have known : target ∈ state.siteCounts.targets := by
      apply isSome_lookup_iff.mp
      rw [found]
      rfl
    rw [if_pos known]
    exact ⟨known, rfl⟩
  · have missing : target ∉ state.siteCounts.targets := by
      intro known
      have found := isSome_lookup_iff.mpr known
      rw [unknown] at found
      cases found
    rw [if_neg missing]
    exact ⟨List.mem_cons_self, rfl⟩

section Sites

variable {site : Site} {next : State}

theorem resolveDeclared_siteCounts {call : Call} (isCall : setting.program.call? site = some call)
    (direct : call.kind.isDirect = true)
    (resolved : resolveDeclared setting site call state = .ok next) :
    next.siteCounts = state.siteCounts.resolve setting site := by
  have unvirtual : ¬ call.kind.isVirtual = true := by
    rw [(CallKind.others_of_direct direct).1]
    exact nofun
  have checked (callee : MethodId) :
      (checkStatic setting site call.kind callee state).siteCounts =
        if setting.program.isStatic callee = (call.kind = .static : Bool) then state.siteCounts
        else { state.siteCounts with mismatched := state.siteCounts.mismatched + 1 } := by
    unfold checkStatic
    split <;> rfl
  rw [SiteCounts.resolve_direct isCall direct]
  unfold resolveDeclared at resolved
  unfold Setting.declared?
  cases found : setting.hierarchy.resolve call.target with
  | error fault => rw [found] at resolved; cases resolved
  | ok declared =>
    rw [found] at resolved
    simp only at resolved
    show next.siteCounts = match declared.filter _ with | none => _ | some callee => _
    split at resolved
    · next callee concrete =>
      cases resolved
      rw [concrete, link_siteCounts callee none fun virtual => absurd virtual unvirtual, checked]
    · next missing =>
      cases resolved
      rw [missing]
      rfl

theorem resolveVirtual_siteCounts {call : Call} (isCall : setting.program.call? site = some call)
    (virtual : call.kind.isVirtual = true)
    (resolved : resolveVirtual setting site call state = .ok next) :
    next.siteCounts = state.siteCounts.resolve setting site := by
  rw [SiteCounts.resolve_virtual isCall virtual]
  rw [resolveVirtual_eq] at resolved
  split at resolved
  · cases resolved
  · next receivers cache answer =>
    obtain ⟨known, asked⟩ := ask_siteCounts answer
    rw [← asked]
    split at resolved
    · cases resolved
      unfold parkAndLink
      rw [foldl_link_siteCounts some, foldl_park_siteCounts]
      rw [foldl_park_siteCounts]
      exact fun _ => known
    · cases resolved
      exact foldl_link_siteCounts (fun _ => none) receivers fun _ => known

/-- **Resolving a call site** adds to the counts what its call says. -/
theorem resolveSite_siteCounts (resolved : resolveSite setting site state = .ok next) :
    next.siteCounts = state.siteCounts.resolve setting site := by
  unfold resolveSite at resolved
  cases isCall : setting.program.call? site with
  | none =>
    rw [isCall] at resolved
    cases resolved
    unfold SiteCounts.resolve Setting.virtualTarget? Setting.isDynamic Setting.isSkipped
      Setting.isMismatched
    rw [isCall]
    rfl
  | some call =>
    rw [isCall] at resolved
    simp only at resolved
    split at resolved
    · next kind => exact resolveDeclared_siteCounts isCall (kind ▸ rfl) resolved
    · next kind => exact resolveDeclared_siteCounts isCall (kind ▸ rfl) resolved
    · next kind => exact resolveVirtual_siteCounts isCall (kind ▸ rfl) resolved
    · next kind => exact resolveVirtual_siteCounts isCall (kind ▸ rfl) resolved
    · next kind =>
      cases resolved
      rw [SiteCounts.resolve_dynamic isCall kind]
      rfl
    · cases resolved

end Sites

/-- **A step** adds to the counts what the call site that it resolves says, and nothing else. -/
theorem step_siteCounts {next : State} (coherent : Coherent setting state)
    (stepped : step setting state = some (.ok next)) : next.siteCounts =
      state.resolved?.elim state.siteCounts (state.siteCounts.resolve setting) := by
  unfold State.resolved?
  rcases step_cases stepped with ⟨scope, id, events, waiting, same⟩ |
    ⟨site, sites, drained, waiting, same⟩ | ⟨method, methods, drained, idle, waiting, same⟩
  · cases same
    rw [waiting]
    exact draw_siteCounts scope id fun parked member => (coherent.waits parked member).congr rfl rfl
  · rw [drained, waiting]
    exact (resolveSite_siteCounts same.symm).trans rfl
  · rw [drained, idle]
    exact (processMethod_siteCounts same.symm).trans rfl

/-! ### What is counted in the end -/

/-- What the counts say after questions about the targets of a list. -/
structure Asked (targets : List Target) (counts : SiteCounts) : Prop where
  known : ∀ target, target ∈ counts.targets ↔ target ∈ targets
  distinct : counts.targets.Nodup
  misses : counts.misses = counts.targets.length
  questions : counts.hits + counts.misses = targets.length

/-- **One more question.** -/
theorem Asked.ask {targets : List Target} {counts : SiteCounts} (asked : Asked targets counts)
    (target : Target) : Asked (targets ++ [target]) (counts.ask target) := by
  have misses := asked.misses
  have questions := asked.questions
  unfold SiteCounts.ask
  by_cases known : target ∈ counts.targets
  · rw [if_pos known]
    refine ⟨fun other => ?_, asked.distinct, misses, ?_⟩
    · have already := (asked.known target).mp known
      rw [asked.known other, List.mem_append, List.mem_singleton]
      constructor
      · exact .inl
      · rintro (old | rfl)
        · exact old
        · exact already
    · simp only [List.length_append, List.length_singleton]
      omega
  · rw [if_neg known]
    refine ⟨fun other => ?_, List.nodup_cons.mpr ⟨known, asked.distinct⟩, ?_, ?_⟩
    · rw [List.mem_cons, asked.known other, List.mem_append, List.mem_singleton, or_comm]
    · simp only [List.length_cons, misses]
    · simp only [List.length_append, List.length_singleton]
      omega

/-- What the counts come to for a list of call sites. -/
structure Counted (setting : Setting) (sites : List Site) (counts : SiteCounts) : Prop where
  asked : Asked (sites.filterMap setting.virtualTarget?) counts
  dynamic : counts.dynamic = sites.countP setting.isDynamic
  skipped : counts.skipped = sites.countP setting.isSkipped
  mismatched : counts.mismatched = sites.countP setting.isMismatched

/-- **One more call site.** -/
theorem Counted.resolve {sites : List Site} {counts : SiteCounts}
    (counted : Counted setting sites counts) (site : Site) :
    Counted setting (sites ++ [site]) (counts.resolve setting site) := by
  have once (test : Site → Bool) : (sites ++ [site]).countP test =
      sites.countP test + if test site then 1 else 0 := by
    rw [List.countP_append, List.countP_singleton]
  have asked : Asked ((sites ++ [site]).filterMap setting.virtualTarget?)
      ((setting.virtualTarget? site).elim counts counts.ask) := by
    rw [List.filterMap_append]
    cases found : setting.virtualTarget? site with
    | none => simpa [found] using counted.asked
    | some target => simpa [found] using counted.asked.ask target
  refine ⟨⟨asked.known, asked.distinct, asked.misses, asked.questions⟩, ?_, ?_, ?_⟩
  · rw [once, ← counted.dynamic]
    rfl
  · rw [once, ← counted.skipped]
    rfl
  · rw [once, ← counted.mismatched]
    rfl

/-- **The counts are told by the call sites**, but for the order in which targets became known. -/
theorem Counted.unique {sites : List Site} {counts other : SiteCounts}
    (counted : Counted setting sites counts) (same : Counted setting sites other) :
    { other with targets := counts.targets } = counts := by
  have targets : other.targets.Perm counts.targets := by
    rw [List.perm_ext_iff_of_nodup same.asked.distinct counted.asked.distinct]
    intro target
    rw [same.asked.known, counted.asked.known]
  have misses : other.misses = counts.misses := by
    rw [same.asked.misses, counted.asked.misses, targets.length_eq]
  have hits : other.hits = counts.hits := by
    have questions := counted.asked.questions
    have sameQuestions := same.asked.questions
    omega
  have dynamic := same.dynamic.trans counted.dynamic.symm
  have skipped := same.skipped.trans counted.skipped.symm
  have mismatched := same.mismatched.trans counted.mismatched.symm
  simp only [hits, misses, dynamic, skipped, mismatched]

/-- **The counts are those of the call sites that have been resolved.** -/
theorem Reaches.counted (reaches : Reaches setting entry past state) :
    Counted setting (resolved past) state.siteCounts := by
  induction reaches with
  | initial => exact ⟨⟨fun target => Iff.rfl, List.nodup_nil, rfl, rfl⟩, rfl, rfl, rfl⟩
  | @step past state next reaches stepped hyp =>
    unfold resolved at hyp ⊢
    rw [filterMap_concat, step_siteCounts reaches.coherent stepped]
    cases state.resolved? with
    | none =>
      rw [Option.toList_none, List.append_nil]
      exact hyp
    | some site => exact hyp.resolve site

/-- **In the end every call site of a reachable method is counted once.** -/
theorem counted_of_idle (reaches : Reaches setting entry past state)
    (idle : step setting state = none) :
    Counted setting (state.layout setting) state.siteCounts := by
  obtain ⟨_, drained, _⟩ := step_eq_none_iff.mp idle
  rw [reaches.layout_eq, drained, List.append_nil]
  exact reaches.counted

end Construction

end CallFlow
