/-
**Guarded reading of programs in range.**

A guard lets an identifier pass that is inside its table. In a program whose identifiers are in range,
what an entry mentions can be read as well, so names and diagnostics can be put into words.

* `Guarded.mapM_eq_ok`, `Guarded.filterM_eq_ok`, `Guarded.foldlM_eq_ok`: walks along a list in which
  every single question has an answer.
* `Guarded.methodName_eq`, `Guarded.details_eq`: names and diagnostics.
-/

import CallFlow.Guarded.Program
import CallFlow.Proofs.Program.InRange

namespace CallFlow

namespace Guarded

/-! ### Walks along a list -/

section Walks

variable {ε α β : Type}

/-- What follows an answer is asked about the answer. -/
theorem ok_bind (answer : α) (next : α → Except ε β) : (Except.ok answer >>= next) = next answer := rfl

/-- Walks that ask the same of each element have the same outcome. -/
theorem mapM_congr {list : List α} {ask other : α → Except ε β}
    (each : ∀ element ∈ list, ask element = other element) : list.mapM ask = list.mapM other := by
  induction list with
  | nil => rfl
  | cons element rest hyp =>
    rw [List.mapM_cons, List.mapM_cons, each element List.mem_cons_self,
      hyp fun later member => each later (List.mem_cons_of_mem _ member)]

theorem mapM_eq_ok {list : List α} {ask : α → Except ε β} {answer : α → β}
    (each : ∀ element ∈ list, ask element = .ok (answer element)) :
    list.mapM ask = .ok (list.map answer) :=
  (mapM_congr each).trans List.mapM_pure

/-- What is made of an answer fails as the question does. -/
theorem map_ne_error {outcome : Except ε α} {error : ε} {make : α → β}
    (other : outcome ≠ .error error) : outcome.map make ≠ .error error := by
  cases outcome with
  | error found => exact fun same => other (congrArg Except.error (Except.error.inj same))
  | ok answer => nofun

theorem mapM_ne_error {list : List α} {ask : α → Except ε β} {error : ε}
    (each : ∀ element ∈ list, ask element ≠ .error error) : list.mapM ask ≠ .error error := by
  induction list with
  | nil => nofun
  | cons element rest hyp =>
    rw [List.mapM_cons]
    have first := each element List.mem_cons_self
    have others := hyp fun later member => each later (List.mem_cons_of_mem _ member)
    cases asked : ask element with
    | error found =>
      rw [asked] at first
      exact fun same => first (congrArg Except.error (Except.error.inj same))
    | ok answer =>
      cases later : rest.mapM ask with
      | error found =>
        rw [later] at others
        exact fun same => others (congrArg Except.error (Except.error.inj same))
      | ok answers => nofun

theorem forM_eq_ok {list : List α} {ask : α → Except ε Unit}
    (each : ∀ element ∈ list, ask element = .ok ()) : list.forM ask = .ok () := by
  induction list with
  | nil => rfl
  | cons element rest hyp =>
    show (ask element >>= fun _ => rest.forM ask) = .ok ()
    rw [each element List.mem_cons_self]
    exact hyp fun later member => each later (List.mem_cons_of_mem _ member)

theorem anyM_eq_ok {list : List α} {ask : α → Except ε Bool} {test : α → Bool}
    (each : ∀ element ∈ list, ask element = .ok (test element)) :
    list.anyM ask = .ok (list.any test) := by
  induction list with
  | nil => rfl
  | cons element rest hyp =>
    have others := hyp fun later member => each later (List.mem_cons_of_mem _ member)
    unfold List.anyM
    rw [each element List.mem_cons_self, List.any_cons]
    cases test element with
    | true => rfl
    | false => exact others

theorem findSomeM?_eq_ok {list : List α} {ask : α → Except ε (Option β)} {answer : α → Option β}
    (each : ∀ element ∈ list, ask element = .ok (answer element)) :
    list.findSomeM? ask = .ok (list.findSome? answer) := by
  induction list with
  | nil => rfl
  | cons element rest hyp =>
    have others := hyp fun later member => each later (List.mem_cons_of_mem _ member)
    unfold List.findSomeM?
    rw [each element List.mem_cons_self, List.findSome?_cons]
    cases answer element with
    | none => exact others
    | some found => rfl

theorem filterM_eq_ok {list : List α} {ask : α → Except ε Bool} {test : α → Bool}
    (each : ∀ element ∈ list, ask element = .ok (test element)) :
    list.filterM ask = .ok (list.filter test) := by
  have kept : ∀ found, list.filterAuxM ask found = .ok ((list.filter test).reverse ++ found) := by
    induction list with
    | nil => exact fun _ => rfl
    | cons element rest hyp =>
      intro found
      unfold List.filterAuxM
      rw [each element List.mem_cons_self]
      show rest.filterAuxM ask (cond (test element) (element :: found) found) = _
      rw [hyp fun later member => each later (List.mem_cons_of_mem _ member)]
      cases tested : test element <;> simp [tested]
  unfold List.filterM
  rw [kept []]
  show Except.ok ((list.filter test).reverse ++ []).reverse = _
  rw [List.append_nil, List.reverse_reverse]

/-- **A walk that changes a state** has the outcome of plain changes, if each change is possible from
every state with a property that the changes keep. -/
theorem foldlM_eq_ok {σ : Type} {list : List α} {change : σ → α → Except ε σ} {plain : σ → α → σ}
    {kept : σ → Prop} {state : σ} (start : kept state)
    (each : ∀ element ∈ list, ∀ state, kept state →
      change state element = .ok (plain state element) ∧ kept (plain state element)) :
    list.foldlM change state = .ok (list.foldl plain state) ∧ kept (list.foldl plain state) := by
  induction list generalizing state with
  | nil => exact ⟨rfl, start⟩
  | cons element rest hyp =>
    obtain ⟨changed, keeps⟩ := each element List.mem_cons_self state start
    rw [List.foldlM_cons, changed]
    exact hyp keeps fun later member => each later (List.mem_cons_of_mem _ member)

end Walks

/-! ### Reading a table -/

section Tables

variable {program : Program}

theorem readClass_eq {id : ClassId} {info : Class} (found : program.class? id = some info) :
    readClass program id = .ok info := by
  unfold readClass
  rw [found]
  rfl

theorem readMethod_eq {id : MethodId} {info : Method} (found : program.method? id = some info) :
    readMethod program id = .ok info := by
  unfold readMethod
  rw [found]
  rfl

theorem readField_eq {id : FieldId} {info : Field} (found : program.field? id = some info) :
    readField program id = .ok info := by
  unfold readField
  rw [found]
  rfl

theorem readMember_eq {id : MemberId} {text : String} (found : program.member? id = some text) :
    readMember program id = .ok text := by
  unfold readMember
  rw [found]
  rfl

theorem isAbstract_eq {id : MethodId} (isMethod : (program.method? id).isSome = true) :
    isAbstract program id = .ok (program.isAbstract id) := by
  obtain ⟨info, found⟩ := Option.isSome_iff_exists.mp isMethod
  unfold isAbstract Program.isAbstract
  rw [readMethod_eq found, found]
  rfl

theorem call_eq {site : Site} (isMethod : (program.method? site.method).isSome = true) :
    call program site = .ok (program.call? site) := by
  obtain ⟨info, found⟩ := Option.isSome_iff_exists.mp isMethod
  unfold call Program.call?
  rw [readMethod_eq found, found]
  rfl

theorem callSites_eq {id : MethodId} (isMethod : (program.method? id).isSome = true) :
    callSites program id = .ok (program.callSites id) := by
  obtain ⟨info, found⟩ := Option.isSome_iff_exists.mp isMethod
  unfold callSites Program.callSites
  rw [readMethod_eq found, found]
  rfl

/-! ### Names -/

theorem targetName_eq {target : Target} (isClass : (program.class? target.owner).isSome = true)
    (isMember : (program.member? target.member).isSome = true) :
    targetName program target = .ok (program.targetName target) := by
  obtain ⟨info, found⟩ := Option.isSome_iff_exists.mp isClass
  obtain ⟨text, known⟩ := Option.isSome_iff_exists.mp isMember
  unfold targetName Program.targetName Program.className Program.memberName
  rw [readClass_eq found, readMember_eq known, found, known]
  rfl

variable (inRange : program.InRange)
include inRange

/-- **A method of a program in range has a name.** -/
theorem methodName_eq {id : MethodId} (isMethod : (program.method? id).isSome = true) :
    methodName program id = .ok (program.methodName id) := by
  obtain ⟨info, found⟩ := Option.isSome_iff_exists.mp isMethod
  obtain ⟨isClass, isMember⟩ := inRange.head found
  unfold methodName Program.methodName
  rw [readMethod_eq found, found]
  exact targetName_eq isClass isMember

theorem siteName_eq {site : Site} (isMethod : (program.method? site.method).isSome = true) :
    siteName program site = .ok (program.siteName site) := by
  unfold siteName
  rw [methodName_eq inRange isMethod]
  rfl

end Tables

/-- The identifiers that a diagnostic is about are inside their tables. -/
def InTables (program : Program) : Diagnostic → Prop
  | .processing method => (program.method? method).isSome = true
  | .ignoredAllocation allocated => (program.class? allocated).isSome = true
  | .newEdge site callee | .replaying site callee | .kindMismatch site callee _ =>
    (program.method? site.method).isSome = true ∧ (program.method? callee).isSome = true
  | .unresolvedDynamic site => (program.method? site.method).isSome = true
  | .missingDeclaration site target =>
    (program.method? site.method).isSome = true ∧ (program.member? target.member).isSome = true
  | .finished entry .. => (program.method? entry).isSome = true

/-- **A diagnostic about identifiers of a program in range can be put into words.** -/
theorem details_eq {program : Program} (inRange : program.InRange) {diagnostic : Diagnostic}
    (within : InTables program diagnostic) :
    details program diagnostic = .ok (diagnostic.details program) := by
  cases diagnostic with
  | processing method =>
    rw [details, methodName_eq inRange within]
    rfl
  | ignoredAllocation allocated =>
    obtain ⟨info, found⟩ := Option.isSome_iff_exists.mp within
    rw [details, readClass_eq found, Diagnostic.details, Program.className, found]
    rfl
  | newEdge site callee | replaying site callee | kindMismatch site callee kind =>
    rw [details, siteName_eq inRange within.1, methodName_eq inRange within.2]
    rfl
  | unresolvedDynamic site =>
    rw [details, siteName_eq inRange within]
    rfl
  | missingDeclaration site target =>
    obtain ⟨text, known⟩ := Option.isSome_iff_exists.mp within.2
    rw [details, siteName_eq inRange within.1, readMember_eq known, Diagnostic.details,
      Program.memberName, known]
    rfl
  | finished entry reachable edges facts =>
    rw [details, methodName_eq inRange within]
    rfl

end Guarded

end CallFlow
