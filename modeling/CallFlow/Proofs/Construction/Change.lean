/-
**The changes of a construction.**

A step takes the most urgent thing off its queue. Whatever it does then is a sequence of small
changes: a fact is added, an edge, a parked call, a store, a load, a remembered target or a remark.
Every change has a reason in the state that it changes, and reasons never go away.

* `Construction.Linkable`, `Construction.Cause`: why a call site may be linked to a method, and why
  a class comes into a scope.
* `Construction.Takes`: what is taken off its queue, and what goes with that.
* `Construction.Change`, `Construction.Changes`: one change with its reason, and any number of them.
* `Construction.Changes.extends`: changes only add, and every new fact is queued.
* `Construction.foldl_reflTransGen`: changes along a list, with what each of them establishes for good.
-/

import Mathlib.Logic.Relation
import CallFlow.Construction.Step

namespace CallFlow

namespace Program

variable (program : Program)

/-- A statement stands in the body of a method. -/
def HasStatement (method : MethodId) (statement : Statement) : Prop :=
  ∃ info, program.method? method = some info ∧ statement ∈ info.body

/-- The statement at a site. -/
def statement? (site : Site) : Option Statement :=
  (program.method? site.method).bind fun method => method.body[site.index]?

variable {program}

/-- The call at a site is that of the call statement there. -/
theorem call?_eq_some {site : Site} {call : Call} :
    program.call? site = some call ↔ program.statement? site = some (.invoke call) := by
  have isInvoke (statement : Statement) : statement.call? = some call ↔ statement = .invoke call := by
    cases statement <;> simp [Statement.call?]
  unfold call? statement?
  simp only [Option.bind_eq_some_iff, isInvoke, exists_eq_right]

/-- The statements of a method are those at its sites. -/
theorem hasStatement_iff {method : MethodId} {statement : Statement} :
    program.HasStatement method statement ↔ ∃ index, program.statement? ⟨method, index⟩ = some statement := by
  unfold HasStatement statement?
  simp only [List.mem_iff_getElem?, Option.bind_eq_some_iff]
  constructor
  · rintro ⟨info, found, index, stands⟩
    exact ⟨index, info, found, stands⟩
  · rintro ⟨index, info, found, stands⟩
    exact ⟨info, found, index, stands⟩

end Program

namespace Construction

/-! ### Reasons -/

section Reasons

variable (setting : Setting)

/-- A call of the target on a receiver of exactly the class runs the method. -/
def Setting.Receives (target : Target) (id : ClassId) (callee : MethodId) : Prop :=
  id ∈ setting.hierarchy.concreteSubtypes target.owner ∧
    setting.hierarchy.dispatch id target.member = .ok (some callee)

/-- The statement instantiates the class. -/
inductive Setting.Allocates : Statement → ClassId → Prop
  | new {id : ClassId} (concrete : setting.program.isConcrete id = true) :
      Setting.Allocates (.new id) id
  | newArray {element : Ty} {id : ClassId} (counts : setting.granularity.countsArrays = true)
      (base : element.baseClass = some id) (concrete : setting.program.isConcrete id = true) :
      Setting.Allocates (.newArray element) id

/-- Why a call is linked to a method: the method is declared for it, some receiver runs it and all
receivers count, or it is run on a receiver that is instantiated where the call stands. -/
inductive Selects (facts : Facts) (site : Site) (call : Call) : Option ClassId → MethodId → Prop
  | declared {callee : MethodId} (direct : call.kind = .static ∨ call.kind = .special)
      (resolved : setting.hierarchy.resolve call.target = .ok (some callee))
      (concrete : setting.program.isAbstract callee = false) : Selects facts site call none callee
  | dispatched {id : ClassId} {callee : MethodId} (virtual : call.kind.isVirtual = true)
      (untracked : setting.granularity.tracksInstantiation = false)
      (receives : setting.Receives call.target id callee) : Selects facts site call none callee
  | received {id : ClassId} {callee : MethodId} (virtual : call.kind.isVirtual = true)
      (tracked : setting.granularity.tracksInstantiation = true)
      (present : (setting.scopeOf site.method, id) ∈ facts)
      (receives : setting.Receives call.target id callee) :
      Selects facts site call (some id) callee

variable (state : State)

/-- A call site of a reachable method may be linked to a method. -/
structure Linkable (site : Site) (call : Call) (receiver : Option ClassId) (callee : MethodId) :
    Prop where
  reachable : site.method ∈ state.graph.reachable
  isCall : setting.program.call? site = some call
  selected : Selects setting state.facts site call receiver callee
  known : call.kind.isVirtual = true → (state.cache.known.lookup call.target).isSome = true

/-- A parked call is a virtual call of a reachable method, on a receiver that would run the callee. -/
structure Waits (parked : ParkedCall) : Prop where
  reachable : parked.site.method ∈ state.graph.reachable
  scope_eq : parked.scope = setting.scopeOf parked.site.method
  isCall : ∃ call, setting.program.call? parked.site = some call ∧ call.kind.isVirtual = true ∧
    (state.cache.known.lookup call.target).isSome = true ∧
    setting.Receives call.target parked.receiver parked.callee

/-- A class that is in one scope flows into another one, along an edge, by a store or by a load. -/
inductive Follows : Scope × ClassId → Scope × ClassId → Prop
  | passed {edge : Edge} {id : ClassId} (linked : edge ∈ state.graph.edges)
      (accepts : setting.acceptsArgument edge.callee id = true) :
      Follows (setting.scopeOf edge.caller, id) (setting.scopeOf edge.callee, id)
  | returned {edge : Edge} {id : ClassId} (linked : edge ∈ state.graph.edges)
      (returns : setting.returns edge.callee id = true) :
      Follows (setting.scopeOf edge.callee, id) (setting.scopeOf edge.caller, id)
  | stored {scope : Scope} {field : FieldId} {id : ClassId} (stored : (scope, field) ∈ state.stores)
      (accepts : setting.fieldAccepts field id = true) :
      Follows (scope, id) (setting.fieldScope field, id)
  | loaded {source loader : Scope} {id : ClassId} (loaded : (source, loader) ∈ state.loads) :
      Follows (source, id) (loader, id)

/-- Why a class comes into a scope. -/
inductive Cause : Scope → ClassId → Prop
  | allocated {method : MethodId} {statement : Statement} {id : ClassId}
      (reachable : method ∈ state.graph.reachable)
      (stands : setting.program.HasStatement method statement)
      (allocates : setting.Allocates statement id) : Cause (setting.scopeOf method) id
  | received {site : Site} {call : Call} {id : ClassId} {callee : MethodId}
      (linkable : Linkable setting state site call (some id) callee) :
      Cause (setting.scopeOf callee) id
  | followed {source : Scope × ClassId} {scope : Scope} {id : ClassId} (present : source ∈ state.facts)
      (follows : Follows setting state source (scope, id)) : Cause scope id

end Reasons

/-! ### Single changes -/

/-- What a remark counts. -/
def tally : Diagnostic → Counters → Counters
  | .replaying .., counters => { counters with replayedCalls := counters.replayedCalls + 1 }
  | .unresolvedDynamic .., counters =>
    { counters with unresolvedDynamic := counters.unresolvedDynamic + 1 }
  | .missingDeclaration .., counters =>
    { counters with skippedTargets := counters.skippedTargets + 1 }
  | .kindMismatch .., counters => { counters with kindMismatches := counters.kindMismatches + 1 }
  | .ignoredAllocation .., counters | .processing .., counters | .newEdge .., counters
  | .finished .., counters => counters

/-- The diagnostics that go with no other change than that of a count. -/
def IsRemark : Diagnostic → Prop
  | .processing .. | .newEdge .. | .finished .. => False
  | _ => True

namespace State

variable (state : State)

/-- Records a remark and counts it. -/
def remark (diagnostic : Diagnostic) : State := (state.count (tally diagnostic)).note diagnostic

/-- Adds a new edge, queues its callee if that is not reachable, and enrols both ends. -/
def addEdge (edge : Edge) : State :=
  { state with
    graph := state.graph.connect edge
    methods := state.methods ++ if state.graph.contains edge.callee then [] else [edge.callee]
    enrolled := (state.enrolled.insert edge.caller).insert edge.callee
    log := .newEdge edge.site edge.callee :: state.log }

/-- Remembers that a method has been linked for a target. -/
def remember (target : Target) (callee : MethodId) : State :=
  { state with cache := state.cache.record target callee }

/-- Parks a call that is not parked. -/
def addParked (parked : ParkedCall) : State :=
  { state with parked := state.parked.park parked }.count fun counters =>
    { counters with parkedCalls := counters.parkedCalls + 1 }

/-- Notes that a field is stored to from a scope. -/
def noteStore (scope : Scope) (field : FieldId) : State :=
  { state with stores := state.stores.insert (scope, field) }

/-- Notes that a scope of fields is loaded from in a scope. -/
def noteLoad (source loader : Scope) : State :=
  { state with loads := state.loads.insert (source, loader) }

/-- Makes a method reachable and lays out its call sites. -/
def discover (setting : Setting) (method : MethodId) (state : State) : State :=
  let sites := setting.program.callSites method
  let state := { state with graph := state.graph.discover method sites, sites := sites }
  let state := (state.count fun counters =>
    { counters with methodsProcessed := counters.methodsProcessed + 1 }).enroll method
  state.note (.processing method)

end State

/-- One change of the state, with its reason. -/
inductive Change (setting : Setting) : State → State → Prop
  | fact {state : State} {scope : Scope} {id : ClassId}
      (tracked : setting.granularity.tracksInstantiation = true)
      (fresh : (scope, id) ∉ state.facts) (cause : Cause setting state scope id) :
      Change setting state (state.addFact scope id)
  | edge {state : State} {site : Site} {call : Call} {receiver : Option ClassId} {callee : MethodId}
      (linkable : Linkable setting state site call receiver callee)
      (fresh : ⟨site, call.kind, callee⟩ ∉ state.graph.edges)
      (recorded : call.kind.isVirtual = true → (call.target, callee) ∈ state.cache.linked) :
      Change setting state (state.addEdge ⟨site, call.kind, callee⟩)
  | linked {state : State} {site : Site} {call : Call} {receiver : Option ClassId}
      {callee : MethodId} (linkable : Linkable setting state site call receiver callee)
      (virtual : call.kind.isVirtual = true) :
      Change setting state (state.remember call.target callee)
  | asked {state : State} {target : Target} {receivers : List (ClassId × MethodId)}
      {cache : TargetCache}
      (answer : state.cache.ask setting.hierarchy target = .ok (receivers, cache)) :
      Change setting state { state with cache }
  | parked {state : State} {parked : ParkedCall}
      (tracked : setting.granularity.tracksInstantiation = true)
      (waits : Waits setting state parked) (absent : (parked.scope, parked.receiver) ∉ state.facts)
      (fresh : parked ∉ state.parked) : Change setting state (state.addParked parked)
  | stored {state : State} {method : MethodId} {field : FieldId}
      (reachable : method ∈ state.graph.reachable)
      (stands : setting.program.HasStatement method (.store field))
      (holds : setting.holdsObjects field = true) :
      Change setting state (state.noteStore (setting.scopeOf method) field)
  | loaded {state : State} {method : MethodId} {field : FieldId}
      (reachable : method ∈ state.graph.reachable)
      (stands : setting.program.HasStatement method (.load field))
      (holds : setting.holdsObjects field = true) :
      Change setting state (state.noteLoad (setting.fieldScope field) (setting.scopeOf method))
  | remarked {state : State} (diagnostic : Diagnostic) (remark : IsRemark diagnostic) :
      Change setting state (state.remark diagnostic)

/-- Any number of changes. -/
abbrev Changes (setting : Setting) : State → State → Prop := Relation.ReflTransGen (Change setting)

/-- Taking the most urgent thing off its queue: a fact, together with the calls that waited for it,
or a call site, or a method, which becomes reachable if it is not. -/
inductive Takes (setting : Setting) : State → State → Prop
  | event {state : State} {scope : Scope} {id : ClassId} {events : List (Scope × ClassId)}
      (next : state.events = (scope, id) :: events) :
      Takes setting state { state with events, parked := state.parked.remaining id scope }
  | site {state : State} {site : Site} {sites : List Site} (drained : state.events = [])
      (next : state.sites = site :: sites) : Takes setting state { state with sites }
  | known {state : State} {method : MethodId} {methods : List MethodId}
      (drained : state.events = []) (idle : state.sites = [])
      (next : state.methods = method :: methods) (known : method ∈ state.graph.reachable) :
      Takes setting state { state with methods }
  | discovered {state : State} {method : MethodId} {methods : List MethodId}
      (drained : state.events = []) (idle : state.sites = [])
      (next : state.methods = method :: methods) (fresh : method ∉ state.graph.reachable)
      (inRange : (setting.program.method? method).isSome = true) :
      Takes setting state (State.discover setting method { state with methods })

/-! ### What changes preserve -/

/-- The second state has everything that the first one has, queues included, its new facts are
queued, and the same methods are reachable. -/
structure Extends (before after : State) : Prop where
  entry : after.graph.entry = before.graph.entry
  discovered : after.graph.discovered = before.graph.discovered
  sites : after.sites = before.sites
  edges : ∀ edge ∈ before.graph.edges, edge ∈ after.graph.edges
  facts : ∀ fact ∈ before.facts, fact ∈ after.facts
  known : ∀ target, (before.cache.known.lookup target).isSome = true →
    (after.cache.known.lookup target).isSome = true
  parked : ∀ parked ∈ before.parked, parked ∈ after.parked
  methods : before.methods <+: after.methods
  events : before.events <+: after.events
  queued : ∀ fact ∈ after.facts, fact ∈ before.facts ∨ fact ∈ after.events
  stores : ∀ store ∈ before.stores, store ∈ after.stores
  loads : ∀ load ∈ before.loads, load ∈ after.loads

namespace Extends

theorem refl (state : State) : Extends state state :=
  ⟨rfl, rfl, rfl, fun _ => id, fun _ => id, fun _ => id, fun _ => id, List.prefix_rfl,
    List.prefix_rfl, fun _ => Or.inl, fun _ => id, fun _ => id⟩

theorem trans {first second third : State} (left : Extends first second)
    (right : Extends second third) : Extends first third where
  entry := right.entry.trans left.entry
  discovered := right.discovered.trans left.discovered
  sites := right.sites.trans left.sites
  edges edge member := right.edges edge (left.edges edge member)
  facts fact member := right.facts fact (left.facts fact member)
  known target known := right.known target (left.known target known)
  parked parked member := right.parked parked (left.parked parked member)
  methods := left.methods.trans right.methods
  events := left.events.trans right.events
  queued fact member := by
    rcases right.queued fact member with old | new
    · rcases left.queued fact old with old | new
      · exact .inl old
      · exact .inr (right.events.subset new)
    · exact .inr new
  stores store member := right.stores store (left.stores store member)
  loads load member := right.loads load (left.loads load member)

variable {before after : State} (grown : Extends before after)
include grown

theorem reachable_eq : after.graph.reachable = before.graph.reachable :=
  congrArg (List.map Prod.fst) grown.discovered

theorem reachable {method : MethodId} (member : method ∈ before.graph.reachable) :
    method ∈ after.graph.reachable := by
  rw [grown.reachable_eq]
  exact member

theorem selects {setting : Setting} {site : Site} {call : Call} {receiver : Option ClassId}
    {callee : MethodId} (selected : Selects setting before.facts site call receiver callee) :
    Selects setting after.facts site call receiver callee := by
  cases selected with
  | declared direct resolved concrete => exact .declared direct resolved concrete
  | dispatched virtual untracked receives => exact .dispatched virtual untracked receives
  | received virtual tracked present receives =>
    exact .received virtual tracked (grown.facts _ present) receives

theorem linkable {setting : Setting} {site : Site} {call : Call} {receiver : Option ClassId}
    {callee : MethodId} (linkable : Linkable setting before site call receiver callee) :
    Linkable setting after site call receiver callee where
  reachable := grown.reachable linkable.reachable
  isCall := linkable.isCall
  selected := grown.selects linkable.selected
  known virtual := grown.known _ (linkable.known virtual)

theorem waits {setting : Setting} {parked : ParkedCall} (waits : Waits setting before parked) :
    Waits setting after parked := by
  obtain ⟨call, isCall, virtual, known, receives⟩ := waits.isCall
  exact ⟨grown.reachable waits.reachable, waits.scope_eq,
    call, isCall, virtual, grown.known _ known, receives⟩

theorem follows {setting : Setting} {source target : Scope × ClassId}
    (follows : Follows setting before source target) : Follows setting after source target := by
  cases follows with
  | passed linked accepts => exact .passed (grown.edges _ linked) accepts
  | returned linked returns => exact .returned (grown.edges _ linked) returns
  | stored stored accepts => exact .stored (grown.stores _ stored) accepts
  | loaded loaded => exact .loaded (grown.loads _ loaded)

theorem cause {setting : Setting} {scope : Scope} {id : ClassId}
    (cause : Cause setting before scope id) : Cause setting after scope id := by
  cases cause with
  | allocated reachable stands allocates =>
    exact .allocated (grown.reachable reachable) stands allocates
  | received linkable => exact .received (grown.linkable linkable)
  | followed present follows => exact .followed (grown.facts _ present) (grown.follows follows)

end Extends

/-- **A change only adds**, and a new fact is queued. -/
theorem Change.extends {setting : Setting} {before after : State}
    (change : Change setting before after) : Extends before after := by
  cases change with
  | fact tracked fresh cause =>
    rw [before.addFact_of_fresh fresh]
    refine { Extends.refl before with facts := ?_, events := ?_, queued := ?_ }
    · exact fun fact member => Facts.mem_add.mpr (.inr member)
    · exact List.prefix_append _ _
    · intro fact member
      rcases Facts.mem_add.mp member with rfl | old
      · exact .inr (List.mem_append_right _ (List.mem_singleton_self _))
      · exact .inl old
  | edge linkable fresh recorded =>
    refine { Extends.refl before with edges := ?_, methods := ?_ }
    · exact fun edge member => SortedSet.mem_insert.mpr (.inr member)
    · exact List.prefix_append _ _
  | linked linkable virtual =>
    exact { Extends.refl before with known := fun _ => before.cache.isSome_record }
  | asked answer =>
    exact { Extends.refl before with
      known := fun _ known => before.cache.isSome_ask answer (.inl known) }
  | parked tracked waits absent fresh =>
    exact { Extends.refl before with
      parked := fun _ member => Parked.mem_park.mpr (.inr member) }
  | stored reachable stands holds =>
    exact { Extends.refl before with
      stores := fun _ member => SortedSet.mem_insert.mpr (.inr member) }
  | loaded reachable stands holds =>
    exact { Extends.refl before with
      loads := fun _ member => SortedSet.mem_insert.mpr (.inr member) }
  | remarked diagnostic remark => exact { Extends.refl before with }

theorem Changes.extends {setting : Setting} {before after : State}
    (changes : Changes setting before after) : Extends before after := by
  induction changes with
  | refl => exact .refl before
  | tail _ change hyp => exact hyp.trans change.extends

/-- What every change preserves, any number of changes preserve. -/
theorem reflTransGen_preserves {change : State → State → Prop} {kept : State → Prop} {before after : State}
    (each : ∀ {first second}, kept first → change first second → kept second)
    (changes : Relation.ReflTransGen change before after) (holds : kept before) : kept after := by
  induction changes with
  | refl => exact holds
  | tail _ change hyp => exact each hyp change

/-- **Changes along a list.** If each element brings about changes, and what it establishes is not
undone by later changes, then in the end it holds for all elements. -/
theorem foldl_reflTransGen {change : State → State → Prop} {β : Type} (operation : State → β → State)
    (done : β → State → Prop) (list : List β) (before : State)
    (each : ∀ element ∈ list, ∀ state, Relation.ReflTransGen change before state →
      Relation.ReflTransGen change state (operation state element) ∧
        done element (operation state element))
    (stable : ∀ element first second, Relation.ReflTransGen change first second →
      done element first → done element second) :
    Relation.ReflTransGen change before (list.foldl operation before) ∧
      ∀ element ∈ list, done element (list.foldl operation before) := by
  induction list generalizing before with
  | nil => exact ⟨.refl, fun _ member => absurd member List.not_mem_nil⟩
  | cons first rest hyp =>
    obtain ⟨changed, established⟩ := each first List.mem_cons_self before .refl
    obtain ⟨rest, others⟩ := hyp (operation before first) fun element member state changes =>
      each element (List.mem_cons_of_mem _ member) state (changed.trans changes)
    refine ⟨changed.trans rest, fun element member => ?_⟩
    rcases List.mem_cons.mp member with rfl | member
    · exact stable element _ _ rest established
    · exact others element member

end Construction

end CallFlow
