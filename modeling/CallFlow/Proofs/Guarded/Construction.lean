/-
**The guarded construction of a program in range.**

From a state in range every guarded rule passes: no guard stops it, it has the outcome of the rule
without guards, and that is in range again. So the steps are the same.

* `Guarded.Passes`: a guarded rule has the outcome of the plain one, and stays in range.
* `Guarded.link_passes`, `Guarded.draw_passes`, `Guarded.absorb_passes`: the rules.
* `Guarded.step_passes`: a step.
-/

import CallFlow.Guarded.Construction
import CallFlow.Proofs.Guarded.Hierarchy
import CallFlow.Proofs.Guarded.State

namespace CallFlow

namespace Guarded

open Construction (Setting State)

/-- A guarded rule has the outcome of the plain one, which mentions identifiers of the program only. -/
structure Passes (program : Program) (guarded : Except Fault State) (plain : State) : Prop where
  same : guarded = .ok plain
  inRange : plain.InRange program

theorem lift_ok {α : Type} (answer : α) : lift (.ok answer) = .ok answer := rfl

theorem Passes.of_inRange {program : Program} {state : State} (inRange : state.InRange program) :
    Passes program (.ok state) state := ⟨rfl, inRange⟩

/-- What passes may be followed by what passes from its outcome. -/
theorem Passes.bind {program : Program} {guarded : Except Fault State} {plain after : State}
    {next : State → Except Fault State} (first : Passes program guarded plain)
    (rest : plain.InRange program → Passes program (next plain) after) :
    Passes program (guarded >>= next) after := by
  obtain ⟨rfl, inRange⟩ := first
  exact rest inRange

/-- A walk along a list passes if every single rule does. -/
theorem Passes.foldlM {program : Program} {α : Type} {list : List α}
    {change : State → α → Except Fault State} {plain : State → α → State} {state : State}
    (start : state.InRange program)
    (each : ∀ element ∈ list, ∀ state, State.InRange program state →
      Passes program (change state element) (plain state element)) :
    Passes program (list.foldlM change state) (list.foldl plain state) := by
  obtain ⟨same, inRange⟩ := foldlM_eq_ok start fun element member state inRange =>
    ⟨(each element member state inRange).same, (each element member state inRange).inRange⟩
  exact ⟨same, inRange⟩

/-- A guarded step has the outcome of the plain one. A next state mentions identifiers of the program
only, and no identifier is the reason of a failure. -/
structure Agrees (program : Program) (guarded plain : Except BuildError State) : Prop where
  same : guarded = plain
  inRange : ∀ next, plain = .ok next → next.InRange program
  reads : plain ≠ .error (.fault .outOfRange)

theorem Agrees.of_error {program : Program} {error : BuildError}
    (other : error ≠ .fault .outOfRange) : Agrees program (.error error) (.error error) :=
  ⟨rfl, nofun, fun same => other (Except.error.inj same)⟩

theorem Agrees.of_fault {program : Program} {fault : Fault} {α : Type} {asked : Except Fault α}
    (failed : asked = .error fault) (other : asked ≠ .error .outOfRange) :
    Agrees program (.error (.fault fault)) (.error (.fault fault)) := by
  refine .of_error fun same => other ?_
  rw [failed, BuildError.fault.inj same]

theorem Passes.agrees {program : Program} {guarded : Except Fault State} {plain : State}
    (passes : Passes program guarded plain) : Agrees program (lift guarded) (.ok plain) := by
  obtain ⟨rfl, inRange⟩ := passes
  refine ⟨rfl, fun next same => ?_, nofun⟩
  cases same
  exact inRange

variable {setting : Setting} {state : State}

/-! ### Types that accept a class -/

theorem flowsInto_eq {id : ClassId} (isClass : (setting.program.class? id).isSome = true) (type : Ty) :
    flowsInto setting id type = .ok (setting.flowsInto id type) := by
  unfold flowsInto Setting.flowsInto
  cases type.asClass with
  | none => rfl
  | some declared => exact isSubtype_eq isClass declared

theorem acceptsArgument_eq {method : MethodId} {id : ClassId}
    (isMethod : (setting.program.method? method).isSome = true)
    (isClass : (setting.program.class? id).isSome = true) :
    acceptsArgument setting method id = .ok (setting.acceptsArgument method id) := by
  obtain ⟨info, found⟩ := Option.isSome_iff_exists.mp isMethod
  unfold acceptsArgument Setting.acceptsArgument
  rw [readMethod_eq found, found]
  exact anyM_eq_ok fun type _ => flowsInto_eq isClass type

theorem returns_eq {method : MethodId} {id : ClassId}
    (isMethod : (setting.program.method? method).isSome = true)
    (isClass : (setting.program.class? id).isSome = true) :
    returns setting method id = .ok (setting.returns method id) := by
  obtain ⟨info, found⟩ := Option.isSome_iff_exists.mp isMethod
  unfold returns Setting.returns
  rw [readMethod_eq found, found]
  simp only [ok_bind, Option.any_some]
  cases info.result with
  | none => rfl
  | some type => exact flowsInto_eq isClass type

theorem fieldAccepts_eq {field : FieldId} {id : ClassId}
    (isField : (setting.program.field? field).isSome = true)
    (isClass : (setting.program.class? id).isSome = true) :
    fieldAccepts setting field id = .ok (setting.fieldAccepts field id) := by
  obtain ⟨info, found⟩ := Option.isSome_iff_exists.mp isField
  unfold fieldAccepts Setting.fieldAccepts
  rw [readField_eq found, found]
  exact flowsInto_eq isClass info.type

theorem holdsObjects_eq {field : FieldId} (isField : (setting.program.field? field).isSome = true) :
    holdsObjects setting field = .ok (setting.holdsObjects field) := by
  obtain ⟨info, found⟩ := Option.isSome_iff_exists.mp isField
  unfold holdsObjects Setting.holdsObjects
  rw [readField_eq found, found]
  rfl

theorem scopeOf_eq {method : MethodId} (isMethod : (setting.program.method? method).isSome = true) :
    scopeOf setting method = .ok (setting.scopeOf method) := by
  obtain ⟨info, found⟩ := Option.isSome_iff_exists.mp isMethod
  unfold scopeOf
  rw [readMethod_eq found]
  rfl

theorem fieldScope_eq {field : FieldId} (isField : (setting.program.field? field).isSome = true) :
    fieldScope setting field = .ok (setting.fieldScope field) := by
  obtain ⟨info, found⟩ := Option.isSome_iff_exists.mp isField
  unfold fieldScope
  rw [readField_eq found]
  rfl

/-! ### Writing into a state -/

theorem enroll_passes (inRange : state.InRange setting.program) {method : MethodId}
    (isMethod : (setting.program.method? method).isSome = true) :
    Passes setting.program (enroll setting method state) (state.enroll method) := by
  unfold enroll
  rw [scopeOf_eq isMethod]
  exact .of_inRange (inRange.enroll isMethod)

/-- A class is added to the scopes of the methods that a list is about. -/
theorem foldlM_addToMethod {α : Type} (method : α → MethodId) {list : List α} {id : ClassId}
    (inRange : state.InRange setting.program)
    (isClass : (setting.program.class? id).isSome = true)
    (methods : ∀ element ∈ list, (setting.program.method? (method element)).isSome = true) :
    Passes setting.program
      (list.foldlM (fun state element => addToMethod setting id state (method element)) state)
      (list.foldl (fun state element => state.addFact (setting.scopeOf (method element)) id) state) := by
  refine .foldlM inRange fun element member state inRange => ?_
  unfold addToMethod
  rw [scopeOf_eq (methods element member)]
  exact .of_inRange (inRange.addFact _ isClass)

/-- A class is added to the scopes of fields. -/
theorem foldlM_addToField {fields : List FieldId} {id : ClassId}
    (inRange : state.InRange setting.program)
    (isClass : (setting.program.class? id).isSome = true)
    (areFields : ∀ field ∈ fields, (setting.program.field? field).isSome = true) :
    Passes setting.program (fields.foldlM (addToField setting id) state)
      (fields.foldl (fun state field => state.addFact (setting.fieldScope field) id) state) := by
  refine .foldlM inRange fun field member state inRange => ?_
  unfold addToField
  rw [fieldScope_eq (areFields field member)]
  exact .of_inRange (inRange.addFact _ isClass)

theorem seed_passes (inRange : state.InRange setting.program) {caller callee : MethodId}
    (isCaller : (setting.program.method? caller).isSome = true)
    (isCallee : (setting.program.method? callee).isSome = true) :
    Passes setting.program (seed setting caller callee state)
      (Construction.seed setting caller callee state) := by
  have passed : State.InRange setting.program (state.addFacts (setting.scopeOf callee)
      ((state.facts.classesIn (setting.scopeOf caller)).filter (setting.acceptsArgument callee))) :=
    inRange.addFacts _ fun id member => inRange.classesIn (List.mem_filter.mp member).1
  unfold seed Construction.seed
  rw [scopeOf_eq isCaller, scopeOf_eq isCallee, ok_bind, ok_bind,
    filterM_eq_ok fun id member => acceptsArgument_eq isCallee (inRange.classesIn member), ok_bind]
  dsimp only
  rw [filterM_eq_ok fun id member => returns_eq isCallee (passed.classesIn member)]
  exact .of_inRange (passed.addFacts _ fun id member =>
    passed.classesIn (List.mem_filter.mp member).1)

section Rules

variable (program : setting.program.InRange)
include program

theorem note_passes (inRange : state.InRange setting.program) {diagnostic : Diagnostic}
    (within : InTables setting.program diagnostic) :
    Passes setting.program (note setting diagnostic state) (state.note diagnostic) := by
  unfold note
  rw [details_eq program within]
  exact .of_inRange (inRange.note diagnostic)

/-! ### Edges -/

theorem connect_passes (inRange : state.InRange setting.program) {site : Site} {call : Call}
    {callee : MethodId} (isCaller : (setting.program.method? site.method).isSome = true)
    (isCallee : (setting.program.method? callee).isSome = true) :
    Passes setting.program (connect setting site call callee state)
      (Construction.connect setting site call callee state) := by
  unfold connect Construction.connect
  show Passes _ (if _ then _ else _) (if _ then _ else _)
  split
  · exact .of_inRange inRange
  · have connected : State.InRange setting.program { state with
        graph := state.graph.connect ⟨site, call.kind, callee⟩ } := inRange.connect isCaller isCallee
    have within : InTables setting.program (.newEdge site callee) := ⟨isCaller, isCallee⟩
    refine (note_passes program connected within).bind fun noted => ?_
    refine (enroll_passes (noted.enqueue isCallee) isCaller).bind fun first => ?_
    refine (enroll_passes first isCallee).bind fun enrolled => ?_
    split
    · exact seed_passes enrolled isCaller isCallee
    · exact .of_inRange enrolled

theorem link_passes (inRange : state.InRange setting.program) {site : Site} {call : Call}
    (isCall : setting.program.call? site = some call) {callee : MethodId}
    (isCallee : (setting.program.method? callee).isSome = true) {receiver : Option ClassId}
    (isReceiver : ∀ id ∈ receiver, (setting.program.class? id).isSome = true) :
    Passes setting.program (link setting site call callee receiver state)
      (Construction.link setting site call callee receiver state) := by
  have isCaller := setting.program.isMethod_of_call isCall
  obtain ⟨isClass, isMember⟩ := program.call isCall
  have arrived := inRange.receive setting.granularity.tracksInstantiation (setting.scopeOf callee)
    isReceiver
  unfold link Construction.link
  rw [call_eq isCaller, scopeOf_eq isCaller, scopeOf_eq isCallee, ok_bind, ok_bind, ok_bind]
  refine connect_passes program ?_ isCaller isCallee
  split
  · exact arrived.record isClass isMember isCallee
  · exact arrived

/-! ### Consequences of a fact -/

theorem replay_passes (inRange : state.InRange setting.program) {receiver : ClassId}
    (isClass : (setting.program.class? receiver).isSome = true) {waiting : Site × MethodId}
    (isCaller : (setting.program.method? waiting.1.method).isSome = true)
    (isCallee : (setting.program.method? waiting.2).isSome = true) :
    Passes setting.program (replay setting receiver state waiting)
      (Construction.replay setting receiver state waiting) := by
  obtain ⟨site, callee⟩ := waiting
  have within : InTables setting.program (.replaying site callee) := ⟨isCaller, isCallee⟩
  unfold replay Construction.replay
  refine (note_passes program (inRange.count _) within).bind fun noted => ?_
  rw [call_eq isCaller, ok_bind]
  dsimp only
  cases isCall : setting.program.call? site with
  | none => exact .of_inRange noted
  | some call =>
    refine link_passes program noted isCall isCallee fun id same => ?_
    cases same
    exact isClass

omit program in
theorem passOn_passes (inRange : state.InRange setting.program) {id : ClassId}
    (isClass : (setting.program.class? id).isSome = true) {method : MethodId}
    (isMethod : (setting.program.method? method).isSome = true) :
    Passes setting.program (passOn setting id state method)
      (Construction.passOn setting id state method) := by
  unfold passOn Construction.passOn
  rw [filterM_eq_ok fun callee member => acceptsArgument_eq (inRange.callee member) isClass, ok_bind]
  refine (foldlM_addToMethod (fun callee => callee) inRange isClass fun callee member =>
    inRange.callee (List.mem_filter.mp member).1).bind fun passed => ?_
  rw [returns_eq isMethod isClass, ok_bind]
  split
  · exact foldlM_addToMethod Site.method passed isClass fun site member => passed.caller member
  · exact .of_inRange passed

/-- **The consequences of a fact are drawn.** -/
theorem draw_passes (inRange : state.InRange setting.program) (scope : Scope) {id : ClassId}
    (isClass : (setting.program.class? id).isSome = true) :
    Passes setting.program (draw setting scope id state)
      (Construction.draw setting scope id state) := by
  have replayed : Passes setting.program
      ((state.parked.waiting id scope).foldlM (replay setting id)
        { state with parked := state.parked.remaining id scope })
      ((state.parked.waiting id scope).foldl (Construction.replay setting id)
        { state with parked := state.parked.remaining id scope }) := by
    refine .foldlM (inRange.unpark scope id) fun waiting member reached within => ?_
    obtain ⟨_, isCaller, isCallee⟩ := inRange.parked _ (Parked.mem_waiting.mp member)
    exact replay_passes program within isClass isCaller isCallee
  unfold draw Construction.draw
  refine replayed.bind fun linked => ?_
  refine (Passes.foldlM linked fun method member reached within =>
    passOn_passes within isClass (linked.enrolled method (State.mem_enrolledIn _ |>.mp member).1)).bind
      fun passed => ?_
  rw [filterM_eq_ok fun field member => fieldAccepts_eq (passed.storedFrom member) isClass, ok_bind]
  refine (foldlM_addToField passed isClass fun field member =>
    passed.storedFrom (List.mem_filter.mp member).1).bind fun stored => ?_
  exact .of_inRange (List.foldlRecOn _ _ stored fun _ within loader _ => within.addFact loader isClass)

/-! ### Statements other than calls -/

theorem allocate_passes (inRange : state.InRange setting.program) (scope : Scope) {id : ClassId}
    (isClass : (setting.program.class? id).isSome = true) :
    Passes setting.program (allocate setting scope id state)
      (Construction.allocate setting scope id state) := by
  obtain ⟨info, found⟩ := Option.isSome_iff_exists.mp isClass
  have concrete : setting.program.isConcrete id = info.isConcrete := by
    unfold Program.isConcrete
    rw [found]
    rfl
  unfold allocate Construction.allocate
  rw [readClass_eq found, ok_bind, concrete]
  split
  · exact .of_inRange (inRange.addFact scope isClass)
  · exact note_passes program inRange isClass

omit program in
theorem addStore_passes (inRange : state.InRange setting.program) (scope : Scope) {field : FieldId}
    (isField : (setting.program.field? field).isSome = true) :
    Passes setting.program (addStore setting scope field state)
      (Construction.addStore setting scope field state) := by
  have noted := inRange.store scope isField
  unfold addStore Construction.addStore
  rw [holdsObjects_eq isField, ok_bind]
  split
  · exact .of_inRange inRange
  · dsimp only
    rw [filterM_eq_ok fun id member => fieldAccepts_eq isField (inRange.classesIn member), ok_bind,
      fieldScope_eq isField, ok_bind]
    exact .of_inRange (noted.addFacts _ fun id member =>
      inRange.classesIn (List.mem_filter.mp member).1)

omit program in
theorem addLoad_passes (inRange : state.InRange setting.program) (scope : Scope) {field : FieldId}
    (isField : (setting.program.field? field).isSome = true) :
    Passes setting.program (addLoad setting scope field state)
      (Construction.addLoad setting scope field state) := by
  have noted : State.InRange setting.program
      { state with loads := state.loads.insert (setting.fieldScope field, scope) } :=
    { inRange with }
  unfold addLoad Construction.addLoad
  rw [holdsObjects_eq isField, fieldScope_eq isField, ok_bind, ok_bind]
  dsimp only
  split
  · exact .of_inRange inRange
  · exact .of_inRange (noted.addFacts scope fun id member => inRange.classesIn member)

/-- **A statement of a program in range is taken in.** -/
theorem absorb_passes (inRange : state.InRange setting.program) (scope : Scope)
    {statement : Statement} (ranged : setting.program.statementInRange statement = true) :
    Passes setting.program (absorb setting scope state statement)
      (Construction.absorb setting scope state statement) := by
  cases statement with
  | new allocated => exact allocate_passes program inRange scope ranged
  | newArray element =>
    have ranged : setting.program.hasType element = true := ranged
    unfold absorb Construction.absorb
    dsimp only
    cases setting.granularity.countsArrays with
    | false => exact .of_inRange inRange
    | true =>
      cases isBase : element.baseClass with
      | none => exact .of_inRange inRange
      | some base =>
        unfold Program.hasType at ranged
        rw [isBase] at ranged
        exact allocate_passes program inRange scope ranged
  | store field => exact addStore_passes inRange scope ranged
  | load field => exact addLoad_passes inRange scope ranged
  | invoke call => exact .of_inRange inRange
  | other => exact .of_inRange inRange

/-! ### Call sites -/

theorem checkStatic_passes (inRange : state.InRange setting.program) {site : Site} (kind : CallKind)
    {callee : MethodId} (isCaller : (setting.program.method? site.method).isSome = true)
    (isCallee : (setting.program.method? callee).isSome = true) :
    Passes setting.program (checkStatic setting site kind callee state)
      (Construction.checkStatic setting site kind callee state) := by
  obtain ⟨info, found⟩ := Option.isSome_iff_exists.mp isCallee
  have isStatic : setting.program.isStatic callee = info.isStatic := by
    unfold Program.isStatic
    rw [found]
    rfl
  have within : InTables setting.program (.kindMismatch site callee kind) := ⟨isCaller, isCallee⟩
  unfold checkStatic Construction.checkStatic
  rw [readMethod_eq found, ok_bind, isStatic]
  split
  · exact .of_inRange inRange
  · exact note_passes program (inRange.count _) within

theorem skip_passes (inRange : state.InRange setting.program) {site : Site} {call : Call}
    (isCall : setting.program.call? site = some call) :
    Passes setting.program (skip setting site call state)
      ((state.count fun counters =>
        { counters with skippedTargets := counters.skippedTargets + 1 }).note
          (.missingDeclaration site call.target)) := by
  have within : InTables setting.program (.missingDeclaration site call.target) :=
    ⟨setting.program.isMethod_of_call isCall, (program.call isCall).2⟩
  exact note_passes program (inRange.count _) within

/-! ### Steps that may fail -/

theorem resolveDeclared_agrees (inRange : state.InRange setting.program) {site : Site} {call : Call}
    (isCall : setting.program.call? site = some call) :
    Agrees setting.program (lift (resolveDeclared setting site call state))
      (Construction.resolveDeclared setting site call state) := by
  have isCaller := setting.program.isMethod_of_call isCall
  have skipped := skip_passes program inRange isCall
  unfold resolveDeclared Construction.resolveDeclared
  rw [resolve_eq (program.call isCall).1]
  cases resolved : setting.hierarchy.resolve call.target with
  | error fault => exact .of_fault resolved (resolve_ne program (program.call isCall).1)
  | ok declared =>
    rw [ok_bind]
    cases declared with
    | none => exact skipped.agrees
    | some callee =>
      have isCallee : (setting.program.method? callee).isSome = true :=
        Hierarchy.isMethod_of_resolve resolved
      dsimp only
      rw [isAbstract_eq isCallee, ok_bind, Option.filter_some]
      cases setting.program.isAbstract callee with
      | true => exact skipped.agrees
      | false =>
        refine ((checkStatic_passes program inRange call.kind isCaller isCallee).bind
          fun checked => ?_).agrees
        exact link_passes program checked isCall isCallee fun id member =>
          absurd member (Option.not_mem_none id)

theorem resolveVirtual_agrees (inRange : state.InRange setting.program) {site : Site} {call : Call}
    (isCall : setting.program.call? site = some call) :
    Agrees setting.program (lift (resolveVirtual setting site call state))
      (Construction.resolveVirtual setting site call state) := by
  have isCaller := setting.program.isMethod_of_call isCall
  unfold resolveVirtual Construction.resolveVirtual
  rw [ask_eq program state.cache (program.call isCall).1]
  cases answer : state.cache.ask setting.hierarchy call.target with
  | error fault => exact .of_fault answer (ask_ne program state.cache (program.call isCall).1)
  | ok answered =>
    obtain ⟨receivers, cache⟩ := answered
    obtain ⟨fine, asked⟩ := inRange.ask rfl answer
    rw [ok_bind]
    dsimp only
    split
    · rw [scopeOf_eq isCaller, ok_bind, List.partition_eq_filter_filter]
      dsimp only
      have parked := List.foldlRecOn (receivers.filter fun pair => !state.facts.has
          (setting.scopeOf site.method) pair.1) (Construction.park setting site) asked
        fun reached within pair member =>
          have ⟨isClass, isMethod⟩ := fine pair (List.mem_filter.mp member).1
          State.InRange.park within isCaller isClass isMethod
      refine (Passes.foldlM parked fun pair member reached within => ?_).agrees
      obtain ⟨isClass, isMethod⟩ := fine pair (List.mem_filter.mp member).1
      refine link_passes program within isCall isMethod fun id same => ?_
      cases same
      exact isClass
    · refine (Passes.foldlM asked fun pair member reached within => ?_).agrees
      exact link_passes program within isCall (fine pair member).2 fun id member =>
        absurd member (Option.not_mem_none id)

/-- **A call site is resolved**, or fails with the same error. -/
theorem resolveSite_agrees (inRange : state.InRange setting.program) {site : Site}
    (isMethod : (setting.program.method? site.method).isSome = true) :
    Agrees setting.program (resolveSite setting site state)
      (Construction.resolveSite setting site state) := by
  unfold resolveSite Construction.resolveSite
  rw [call_eq isMethod, lift_ok, ok_bind]
  cases isCall : setting.program.call? site with
  | none => exact (Passes.of_inRange inRange).agrees
  | some call =>
    dsimp only
    cases call.kind with
    | static | special => exact resolveDeclared_agrees program inRange isCall
    | virtual | interface => exact resolveVirtual_agrees program inRange isCall
    | dynamic =>
      have within : InTables setting.program (.unresolvedDynamic site) := isMethod
      exact (note_passes program (inRange.count _) within).agrees
    | other =>
      dsimp only
      rw [siteName_eq program isMethod]
      exact .of_error nofun

/-- The statements of a method are taken in. -/
theorem absorbBody_passes (inRange : state.InRange setting.program) {method : MethodId} {info : Method}
    (found : setting.program.method? method = some info) :
    ∃ absorbed, Construction.absorbBody setting method info.body state = .ok absorbed ∧
      Passes setting.program (absorbBody setting method info.body state) absorbed := by
  have isMethod : (setting.program.method? method).isSome = true := by
    rw [found]
    rfl
  unfold absorbBody Construction.absorbBody
  rw [program.operands rfl found]
  cases setting.granularity.tracksInstantiation with
  | false => exact ⟨state, rfl, .of_inRange inRange⟩
  | true =>
    refine ⟨_, rfl, ?_⟩
    show Passes _ (scopeOf setting method >>= _) _
    rw [scopeOf_eq isMethod, ok_bind]
    exact .foldlM inRange fun statement stands reached within =>
      absorb_passes program within _ (program.statement found stands)

/-- **A method is processed.** -/
theorem processMethod_agrees (inRange : state.InRange setting.program) {method : MethodId}
    (isMethod : (setting.program.method? method).isSome = true) :
    Agrees setting.program (lift (processMethod setting method state))
      (Construction.processMethod setting method state) := by
  obtain ⟨info, found⟩ := Option.isSome_iff_exists.mp isMethod
  unfold processMethod Construction.processMethod
  rw [callSites_eq isMethod, ok_bind, found]
  dsimp only
  split
  · exact (Passes.of_inRange inRange).agrees
  · next unknown =>
    have fresh : method ∉ state.graph.reachable := fun known =>
      unknown (state.graph.contains_iff.mpr known)
    have within : InTables setting.program (.processing method) := isMethod
    have counted := (inRange.discover isMethod fresh).count fun counters =>
      { counters with methodsProcessed := counters.methodsProcessed + 1 }
    have enrolled := enroll_passes counted isMethod
    have noted := note_passes program enrolled.inRange within
    obtain ⟨absorbed, same, passes⟩ := absorbBody_passes program noted.inRange found
    rw [same]
    refine (enrolled.bind fun _ => noted.bind fun _ => ?_).agrees
    rw [readMethod_eq found, ok_bind]
    exact passes

/-- **A step from a state in range is the same with guards**, leads to a state in range and does not fail
over an identifier. -/
theorem step_agrees (inRange : state.InRange setting.program) :
    step setting state = Construction.step setting state ∧
      (∀ next, Construction.step setting state = some (.ok next) → next.InRange setting.program) ∧
      Construction.step setting state ≠ some (.error (.fault .outOfRange)) := by
  have taken {guarded plain : Except BuildError State} (agrees : Agrees setting.program guarded plain) :
      some guarded = some plain ∧
        (∀ next, some plain = some (.ok next) → next.InRange setting.program) ∧
        some plain ≠ some (.error (.fault .outOfRange)) :=
    ⟨congrArg some agrees.same, fun next same => agrees.inRange next (Option.some.inj same),
      fun same => agrees.reads (Option.some.inj same)⟩
  rcases state with ⟨graph, facts, cache, parked, methods, sites, events, enrolled, stores, loads,
    counters, log⟩
  rcases events with _ | ⟨⟨scope, id⟩, events⟩
  · rcases sites with _ | ⟨site, sites⟩
    · rcases methods with _ | ⟨method, methods⟩
      · exact ⟨rfl, nofun, nofun⟩
      · have rest : State.InRange setting.program ⟨graph, facts, cache, parked, methods, [], [], enrolled,
            stores, loads, counters, log⟩ :=
          { inRange with methods := fun other member =>
              inRange.methods other (List.mem_cons_of_mem _ member) }
        exact taken (processMethod_agrees program rest (inRange.methods method List.mem_cons_self))
    · have rest : State.InRange setting.program ⟨graph, facts, cache, parked, methods, sites, [], enrolled,
          stores, loads, counters, log⟩ :=
        { inRange with sites := fun other member =>
            inRange.sites other (List.mem_cons_of_mem _ member) }
      exact taken (resolveSite_agrees program rest (inRange.sites site List.mem_cons_self))
  · have rest : State.InRange setting.program ⟨graph, facts, cache, parked, methods, sites, events,
        enrolled, stores, loads, counters, log⟩ :=
      { inRange with events := fun fact member =>
          inRange.events fact (List.mem_cons_of_mem _ member) }
    exact taken (draw_passes program rest scope (inRange.events (scope, id) List.mem_cons_self)).agrees

end Rules

end Guarded

end CallFlow
