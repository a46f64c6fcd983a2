/-
**The steps of a construction.**

A step does the most urgent thing that is left: it draws the consequences of the oldest fact; if no
fact waits, it resolves the next call site of the method being processed; if none is left, it takes
the next method off the queue. So the facts are closed under the flow rules before a call site is
resolved, and the call sites of a method are resolved before another method is processed.

* `Construction.step`: the next state, an error, or nothing if nothing is left.
-/

import CallFlow.Construction.Rules

namespace CallFlow

/-- Why no graph is built. -/
inductive BuildError where
  | unknownEntry (entry : MethodId)
  /-- A call site with an unknown instruction was reached. -/
  | malformedCallKind (site : Site)
  | fault (cause : Fault)
  /-- The steps granted did not suffice. -/
  | stepsExhausted
  deriving DecidableEq, Repr, Inhabited

/-- What a build error says. -/
def BuildError.message (program : Program) : BuildError → String
  | .unknownEntry entry =>
    "entry method MethodId(" ++ toString entry.index ++ ") is not part of the program"
  | .malformedCallKind site =>
    "failed to resolve call site " ++ program.siteName site ++ ": unrecognised call kind"
  | .fault .outOfRange => "an identifier is out of range"
  | .fault .endlessWalk => "the superclass chain does not end"
  | .stepsExhausted => "the steps granted did not suffice"

namespace Construction

variable (setting : Setting)

/-! ### Call sites -/

/-- Counts and records a disagreement between the kind of a static or special call and its callee. -/
def checkStatic (site : Site) (kind : CallKind) (callee : MethodId) (state : State) : State :=
  if setting.program.isStatic callee = (kind = .static : Bool) then state
  else
    (state.count fun counters => { counters with kindMismatches := counters.kindMismatches + 1 }).note
      (.kindMismatch site callee kind)

/-- Links a static or special call to the declaration that it names, unless that is abstract. -/
def resolveDeclared (site : Site) (call : Call) (state : State) : Except BuildError State :=
  match setting.hierarchy.resolve call.target with
  | .error fault => .error (.fault fault)
  | .ok declared =>
    match declared.filter fun callee => !setting.program.isAbstract callee with
    | some callee =>
      .ok (link setting site call callee none (checkStatic setting site call.kind callee state))
    | none =>
      .ok ((state.count fun counters =>
        { counters with skippedTargets := counters.skippedTargets + 1 }).note
          (.missingDeclaration site call.target))

/-- Parks a call until a receiver class arrives in the scope of its caller. -/
def park (site : Site) (state : State) (pair : ClassId × MethodId) : State :=
  let call : ParkedCall := ⟨pair.1, setting.scopeOf site.method, site, pair.2⟩
  if call ∈ state.parked then state
  else
    { state with parked := state.parked.park call }.count fun counters =>
      { counters with parkedCalls := counters.parkedCalls + 1 }

/-- Links a virtual call to the methods that it reaches. If instantiation is tracked, only for the
receiver classes that are instantiated in the scope of the caller; for the others it is parked. -/
def resolveVirtual (site : Site) (call : Call) (state : State) : Except BuildError State :=
  match state.cache.ask setting.hierarchy call.target with
  | .error fault => .error (.fault fault)
  | .ok (receivers, cache) =>
    let state := { state with cache }
    if setting.granularity.tracksInstantiation then
      let scope := setting.scopeOf site.method
      let (present, absent) := receivers.partition fun pair => state.facts.has scope pair.1
      let state := absent.foldl (park setting site) state
      .ok (present.foldl (fun state pair => link setting site call pair.2 (some pair.1) state) state)
    else
      .ok (receivers.foldl (fun state pair => link setting site call pair.2 none state) state)

/-- Resolves a call site. -/
def resolveSite (site : Site) (state : State) : Except BuildError State :=
  match setting.program.call? site with
  | none => .ok state
  | some call =>
    match call.kind with
    | .static | .special => resolveDeclared setting site call state
    | .virtual | .interface => resolveVirtual setting site call state
    | .dynamic =>
      .ok ((state.count fun counters =>
        { counters with unresolvedDynamic := counters.unresolvedDynamic + 1 }).note
          (.unresolvedDynamic site))
    | .other => .error (.malformedCallKind site)

/-! ### Methods -/

/-- Takes in what the statements of a method contribute, calls apart. -/
def absorbBody (method : MethodId) (body : List Statement) (state : State) :
    Except BuildError State :=
  if !setting.granularity.tracksInstantiation then .ok state
  else if body.all (operandsInRange setting) then
    .ok (body.foldl (absorb setting (setting.scopeOf method)) state)
  else .error (.fault .outOfRange)

/-- Processes a method that may have been processed before: makes it reachable, takes in its
statements and lays out its call sites. -/
def processMethod (method : MethodId) (state : State) : Except BuildError State :=
  if state.graph.contains method then .ok state
  else
    match setting.program.method? method with
    | none => .error (.fault .outOfRange)
    | some info =>
      let sites := setting.program.callSites method
      let state := { state with graph := state.graph.discover method sites, sites := sites }
      let state := (state.count fun counters =>
        { counters with methodsProcessed := counters.methodsProcessed + 1 }).enroll method
      absorbBody setting method info.body (state.note (.processing method))

/-! ### Steps -/

/-- The state after the most urgent thing left, or nothing if nothing is left. -/
def step (state : State) : Option (Except BuildError State) :=
  match state.events, state.sites, state.methods with
  | (scope, id) :: events, _, _ => some (.ok (draw setting scope id { state with events }))
  | [], site :: sites, _ => some (resolveSite setting site { state with sites })
  | [], [], method :: methods => some (processMethod setting method { state with methods })
  | [], [], [] => none

end Construction

end CallFlow
