/-
**Where classes flow.**

A class flows into a declared type that is one of its supertypes. Along a call edge classes flow
into parameters and out of results; stores carry them into fields and loads out of fields.

* `Construction.link`: adds an edge and what flows along it at once.
* `Construction.draw`: draws the consequences of one new fact.
* `Construction.absorb`: what the other statements of a method contribute.
-/

import CallFlow.Construction.State

namespace CallFlow

namespace Construction

variable (setting : Setting)

/-! ### Types that accept a class -/

/-- Whether a class flows into a declared type. -/
def Setting.flowsInto (id : ClassId) (type : Ty) : Bool :=
  type.asClass.any fun declared => setting.hierarchy.isSubtype id declared

/-- Whether a method takes a class as an argument. -/
def Setting.acceptsArgument (method : MethodId) (id : ClassId) : Bool :=
  (setting.program.method? method).any fun info => info.params.any (setting.flowsInto id)

/-- Whether a method can return a class. -/
def Setting.returns (method : MethodId) (id : ClassId) : Bool :=
  (setting.program.method? method).any fun info => info.result.any (setting.flowsInto id)

/-- Whether a field can hold a class. -/
def Setting.fieldAccepts (field : FieldId) (id : ClassId) : Bool :=
  (setting.program.field? field).any fun info => setting.flowsInto id info.type

/-- Whether the type of a field is a class. -/
def Setting.holdsObjects (field : FieldId) : Bool :=
  (setting.program.field? field).any fun info => info.type.asClass.isSome

/-- The scope of a method. -/
def Setting.scopeOf (method : MethodId) : Scope := setting.granularity.methodScope method

/-- The scope of a field. -/
def Setting.fieldScope (field : FieldId) : Scope := setting.granularity.fieldScope field

/-! ### Edges -/

/-- Lets flow along a new edge what is known at its two ends: arguments first, then results. -/
def seed (caller callee : MethodId) (state : State) : State :=
  let callerScope := setting.scopeOf caller
  let calleeScope := setting.scopeOf callee
  let passed := (state.facts.classesIn callerScope).filter (setting.acceptsArgument callee)
  let state := state.addFacts calleeScope passed
  let returned := (state.facts.classesIn calleeScope).filter (setting.returns callee)
  state.addFacts callerScope returned

/-- Adds an edge of the graph, queues its callee if that is not reachable yet, and enrols both ends.
A known edge changes nothing. -/
def connect (site : Site) (call : Call) (callee : MethodId) (state : State) : State :=
  let edge : Edge := ⟨site, call.kind, callee⟩
  if edge ∈ state.graph.edges then state
  else
    let state := { state with graph := state.graph.connect edge }.note (.newEdge site callee)
    let state := if state.graph.contains callee then state
      else { state with methods := state.methods ++ [callee] }
    let state := (state.enroll site.method).enroll callee
    if setting.granularity.tracksInstantiation then seed setting site.method callee state else state

/-- Links a call site to a method, for a receiver class if the call depends on one. The receiver
flows into the method, even along a known edge. -/
def link (site : Site) (call : Call) (callee : MethodId) (receiver : Option ClassId)
    (state : State) : State :=
  let state := match setting.granularity.tracksInstantiation, receiver with
    | true, some id => state.addFact (setting.scopeOf callee) id
    | _, _ => state
  let state := if call.kind.isVirtual then
      { state with cache := state.cache.record call.target callee }
    else state
  connect setting site call callee state

/-! ### Consequences of a fact -/

/-- Links a call that waited for a receiver class. -/
def replay (receiver : ClassId) (state : State) (waiting : Site × MethodId) : State :=
  let (site, callee) := waiting
  let state := state.count fun counters =>
    { counters with replayedCalls := counters.replayedCalls + 1 }
  let state := state.note (.replaying site callee)
  match setting.program.call? site with
  | some call => link setting site call callee (some receiver) state
  | none => state

/-- Lets a class that is new in the scope of a method flow along the edges at the method. -/
def passOn (id : ClassId) (state : State) (method : MethodId) : State :=
  let takers := (state.graph.calleesOf method).filter fun callee =>
    setting.acceptsArgument callee id
  let state := takers.foldl (fun state callee => state.addFact (setting.scopeOf callee) id) state
  if setting.returns method id then
    (state.graph.callersOf method).foldl
      (fun state site => state.addFact (setting.scopeOf site.method) id) state
  else state

/-- Draws the consequences of a new fact: parked calls, call edges, stores, loads, in this order. -/
def draw (scope : Scope) (id : ClassId) (state : State) : State :=
  let waiting := state.parked.waiting id scope
  let state := { state with parked := state.parked.remaining id scope }
  let state := waiting.foldl (replay setting id) state
  let state := (state.enrolledIn setting.granularity scope).foldl (passOn setting id) state
  let stored := (state.storedFrom scope).filter fun field => setting.fieldAccepts field id
  let state := stored.foldl (fun state field => state.addFact (setting.fieldScope field) id) state
  (state.loadersOf scope).foldl (fun state loader => state.addFact loader id) state

/-! ### Statements other than calls -/

/-- A class is instantiated in a scope, if it has objects. -/
def allocate (scope : Scope) (id : ClassId) (state : State) : State :=
  if setting.program.isConcrete id then state.addFact scope id
  else state.note (.ignoredAllocation id)

/-- A field is stored to from a scope. -/
def addStore (scope : Scope) (field : FieldId) (state : State) : State :=
  if !setting.holdsObjects field || (scope, field) ∈ state.stores then state
  else
    let state := { state with stores := state.stores.insert (scope, field) }
    state.addFacts (setting.fieldScope field)
      ((state.facts.classesIn scope).filter (setting.fieldAccepts field))

/-- A field is loaded from in a scope. -/
def addLoad (scope : Scope) (field : FieldId) (state : State) : State :=
  let fieldScope := setting.fieldScope field
  if !setting.holdsObjects field || (fieldScope, scope) ∈ state.loads then state
  else
    let state := { state with loads := state.loads.insert (fieldScope, scope) }
    state.addFacts scope (state.facts.classesIn fieldScope)

/-- What a statement of a method with a scope contributes. Calls are resolved later. -/
def absorb (scope : Scope) (state : State) : Statement → State
  | .new allocated => allocate setting scope allocated state
  | .newArray element =>
    match setting.granularity.countsArrays, element.baseClass with
    | true, some base => allocate setting scope base state
    | _, _ => state
  | .store field => addStore setting scope field state
  | .load field => addLoad setting scope field state
  | .invoke _ | .other => state

/-- Whether the identifiers that a statement makes the construction look at are inside their
tables. -/
def operandsInRange : Statement → Bool
  | .new allocated => (setting.program.class? allocated).isSome
  | .newArray element =>
    !setting.granularity.countsArrays ||
      element.baseClass.all fun base => (setting.program.class? base).isSome
  | .store field | .load field => (setting.program.field? field).isSome
  | .invoke _ | .other => true

end Construction

end CallFlow
