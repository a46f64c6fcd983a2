/-
**The guarded construction.**

The rules and steps of a construction, with every table read through a guard. A rule may ask for the
scope of a method or a field, and a granularity may read the scope off its entry, so asking for it reads
the entry; a diagnostic is put into words when it is recorded, so recording it reads what it names.

* `Guarded.link`, `Guarded.draw`, `Guarded.absorb`: linking a call, drawing the consequences of a fact
  and taking in a statement.
* `Guarded.step`: the next state.
-/

import CallFlow.Construction.Step
import CallFlow.Guarded.Hierarchy

namespace CallFlow

namespace Guarded

open Construction (Setting State)

variable (setting : Setting)

/-! ### Types that accept a class -/

/-- Whether a class flows into a declared type. -/
def flowsInto (id : ClassId) (type : Ty) : Except Fault Bool :=
  match type.asClass with
  | some declared => isSubtype setting.hierarchy id declared
  | none => pure false

/-- Whether a method takes a class as an argument. -/
def acceptsArgument (method : MethodId) (id : ClassId) : Except Fault Bool := do
  let info ← readMethod setting.program method
  info.params.anyM (flowsInto setting id)

/-- Whether a method can return a class. -/
def returns (method : MethodId) (id : ClassId) : Except Fault Bool := do
  let info ← readMethod setting.program method
  match info.result with
  | some type => flowsInto setting id type
  | none => pure false

/-- Whether a field can hold a class. -/
def fieldAccepts (field : FieldId) (id : ClassId) : Except Fault Bool := do
  let info ← readField setting.program field
  flowsInto setting id info.type

/-- Whether the type of a field is a class. -/
def holdsObjects (field : FieldId) : Except Fault Bool := do
  let info ← readField setting.program field
  pure info.type.asClass.isSome

/-- The scope of a method. -/
def scopeOf (method : MethodId) : Except Fault Scope := do
  let _ ← readMethod setting.program method
  pure (setting.scopeOf method)

/-- The scope of a field. -/
def fieldScope (field : FieldId) : Except Fault Scope := do
  let _ ← readField setting.program field
  pure (setting.fieldScope field)

/-! ### Edges -/

/-- Records a diagnostic. -/
def note (diagnostic : Diagnostic) (state : State) : Except Fault State := do
  let _ ← details setting.program diagnostic
  pure (state.note diagnostic)

/-- Notes, under the scope of a method, that the method appears in the graph. -/
def enroll (method : MethodId) (state : State) : Except Fault State := do
  let _ ← scopeOf setting method
  pure (state.enroll method)

/-- Lets flow along a new edge what is known at its two ends. -/
def seed (caller callee : MethodId) (state : State) : Except Fault State := do
  let callerScope ← scopeOf setting caller
  let calleeScope ← scopeOf setting callee
  let passed ← (state.facts.classesIn callerScope).filterM (acceptsArgument setting callee)
  let state := state.addFacts calleeScope passed
  let returned ← (state.facts.classesIn calleeScope).filterM (returns setting callee)
  pure (state.addFacts callerScope returned)

/-- Adds an edge of the graph. -/
def connect (site : Site) (call : Call) (callee : MethodId) (state : State) : Except Fault State :=
  let edge : Edge := ⟨site, call.kind, callee⟩
  if edge ∈ state.graph.edges then pure state
  else do
    let state ← note setting (.newEdge site callee) { state with graph := state.graph.connect edge }
    let state := if state.graph.contains callee then state
      else { state with methods := state.methods ++ [callee] }
    let state ← enroll setting site.method state
    let state ← enroll setting callee state
    if setting.granularity.tracksInstantiation then seed setting site.method callee state
    else pure state

/-- Links a call site to a method, for a receiver class if the call depends on one. The call is read at
the site once more. -/
def link (site : Site) (call : Call) (callee : MethodId) (receiver : Option ClassId)
    (state : State) : Except Fault State := do
  let _ ← Guarded.call setting.program site
  let _ ← scopeOf setting site.method
  let calleeScope ← scopeOf setting callee
  let state := match setting.granularity.tracksInstantiation, receiver with
    | true, some id => state.addFact calleeScope id
    | _, _ => state
  let state := if call.kind.isVirtual then
      { state with cache := state.cache.record call.target callee }
    else state
  connect setting site call callee state

/-! ### Consequences of a fact -/

/-- Links a call that waited for a receiver class. -/
def replay (receiver : ClassId) (state : State) (waiting : Site × MethodId) :
    Except Fault State := do
  let (site, callee) := waiting
  let state ← note setting (.replaying site callee) (state.count fun counters =>
    { counters with replayedCalls := counters.replayedCalls + 1 })
  match ← call setting.program site with
  | some call => link setting site call callee (some receiver) state
  | none => pure state

/-- Adds a fact to the scope of a method. -/
def addToMethod (id : ClassId) (state : State) (method : MethodId) : Except Fault State := do
  let scope ← scopeOf setting method
  pure (state.addFact scope id)

/-- Adds a fact to the scope of a field. -/
def addToField (id : ClassId) (state : State) (field : FieldId) : Except Fault State := do
  let scope ← fieldScope setting field
  pure (state.addFact scope id)

/-- Lets a class that is new in the scope of a method flow along the edges at the method. -/
def passOn (id : ClassId) (state : State) (method : MethodId) : Except Fault State := do
  let takers ← (state.graph.calleesOf method).filterM fun callee => acceptsArgument setting callee id
  let state ← takers.foldlM (addToMethod setting id) state
  if ← returns setting method id then
    (state.graph.callersOf method).foldlM
      (fun state site => addToMethod setting id state site.method) state
  else pure state

/-- Draws the consequences of a new fact. -/
def draw (scope : Scope) (id : ClassId) (state : State) : Except Fault State := do
  let waiting := state.parked.waiting id scope
  let state := { state with parked := state.parked.remaining id scope }
  let state ← waiting.foldlM (replay setting id) state
  let state ← (state.enrolledIn setting.granularity scope).foldlM (passOn setting id) state
  let stored ← (state.storedFrom scope).filterM fun field => fieldAccepts setting field id
  let state ← stored.foldlM (addToField setting id) state
  pure ((state.loadersOf scope).foldl (fun state loader => state.addFact loader id) state)

/-! ### Statements other than calls -/

/-- A class is instantiated in a scope, if it has objects. -/
def allocate (scope : Scope) (id : ClassId) (state : State) : Except Fault State := do
  let info ← readClass setting.program id
  if info.isConcrete then pure (state.addFact scope id)
  else note setting (.ignoredAllocation id) state

/-- A field is stored to from a scope. -/
def addStore (scope : Scope) (field : FieldId) (state : State) : Except Fault State := do
  let holds ← holdsObjects setting field
  if !holds || (scope, field) ∈ state.stores then pure state
  else
    let state := { state with stores := state.stores.insert (scope, field) }
    let held ← (state.facts.classesIn scope).filterM (fieldAccepts setting field)
    let fieldScope ← fieldScope setting field
    pure (state.addFacts fieldScope held)

/-- A field is loaded from in a scope. -/
def addLoad (scope : Scope) (field : FieldId) (state : State) : Except Fault State := do
  let holds ← holdsObjects setting field
  let fieldScope ← fieldScope setting field
  if !holds || (fieldScope, scope) ∈ state.loads then pure state
  else
    let state := { state with loads := state.loads.insert (fieldScope, scope) }
    pure (state.addFacts scope (state.facts.classesIn fieldScope))

/-- What a statement of a method with a scope contributes. -/
def absorb (scope : Scope) (state : State) : Statement → Except Fault State
  | .new allocated => allocate setting scope allocated state
  | .newArray element =>
    match setting.granularity.countsArrays, element.baseClass with
    | true, some base => allocate setting scope base state
    | _, _ => pure state
  | .store field => addStore setting scope field state
  | .load field => addLoad setting scope field state
  | .invoke _ | .other => pure state

/-! ### Call sites -/

/-- Counts and records a disagreement between the kind of a static or special call and its callee. -/
def checkStatic (site : Site) (kind : CallKind) (callee : MethodId) (state : State) :
    Except Fault State := do
  let info ← readMethod setting.program callee
  if info.isStatic = (kind = .static : Bool) then pure state
  else
    note setting (.kindMismatch site callee kind) (state.count fun counters =>
      { counters with kindMismatches := counters.kindMismatches + 1 })

/-- Counts and records a call whose target has no declaration that is not abstract. -/
def skip (site : Site) (call : Call) (state : State) : Except Fault State :=
  note setting (.missingDeclaration site call.target) (state.count fun counters =>
    { counters with skippedTargets := counters.skippedTargets + 1 })

/-- Links a static or special call to the declaration that it names, unless that is abstract. -/
def resolveDeclared (site : Site) (call : Call) (state : State) : Except Fault State := do
  match ← resolve setting.hierarchy call.target with
  | some callee =>
    let abstract ← isAbstract setting.program callee
    if abstract then skip setting site call state
    else
      let state ← checkStatic setting site call.kind callee state
      link setting site call callee none state
  | none => skip setting site call state

/-- Links a virtual call to the methods that it reaches, or parks it. -/
def resolveVirtual (site : Site) (call : Call) (state : State) : Except Fault State := do
  let (receivers, cache) ← ask setting.hierarchy state.cache call.target
  let state := { state with cache }
  if setting.granularity.tracksInstantiation then
    let scope ← scopeOf setting site.method
    let (present, absent) := receivers.partition fun pair => state.facts.has scope pair.1
    let state := absent.foldl (Construction.park setting site) state
    present.foldlM (fun state pair => link setting site call pair.2 (some pair.1) state) state
  else
    receivers.foldlM (fun state pair => link setting site call pair.2 none state) state

/-- A fault ends the construction. -/
def lift {α : Type} : Except Fault α → Except BuildError α := Except.mapError .fault

/-- Resolves a call site. An error names the site. -/
def resolveSite (site : Site) (state : State) : Except BuildError State := do
  match ← lift (call setting.program site) with
  | none => pure state
  | some call =>
    match call.kind with
    | .static | .special => lift (resolveDeclared setting site call state)
    | .virtual | .interface => lift (resolveVirtual setting site call state)
    | .dynamic =>
      lift (note setting (.unresolvedDynamic site) (state.count fun counters =>
        { counters with unresolvedDynamic := counters.unresolvedDynamic + 1 }))
    | .other =>
      let _ ← lift (siteName setting.program site)
      .error (.malformedCallKind site)

/-! ### Methods -/

/-- Takes in what the statements of a method contribute, calls apart. -/
def absorbBody (method : MethodId) (body : List Statement) (state : State) :
    Except Fault State :=
  if !setting.granularity.tracksInstantiation then pure state
  else do
    let scope ← scopeOf setting method
    body.foldlM (absorb setting scope) state

/-- Processes a method that may have been processed before. Its call sites are laid out first. -/
def processMethod (method : MethodId) (state : State) : Except Fault State := do
  let sites ← callSites setting.program method
  if state.graph.contains method then pure state
  else
    let state := { state with graph := state.graph.discover method sites, sites := sites }
    let state ← enroll setting method (state.count fun counters =>
      { counters with methodsProcessed := counters.methodsProcessed + 1 })
    let state ← note setting (.processing method) state
    let info ← readMethod setting.program method
    absorbBody setting method info.body state

/-! ### Steps -/

/-- The state after the most urgent thing left, or nothing if nothing is left. -/
def step (state : State) : Option (Except BuildError State) :=
  match state.events, state.sites, state.methods with
  | (scope, id) :: events, _, _ => some (lift (draw setting scope id { state with events }))
  | [], site :: sites, _ => some (resolveSite setting site { state with sites })
  | [], [], method :: methods => some (lift (processMethod setting method { state with methods }))
  | [], [], [] => none

end Guarded

end CallFlow
