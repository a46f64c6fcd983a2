/-
**Reading unknown instructions as dynamic ones.**

A call with an unknown instruction stops a construction, a dynamic call is only counted. A program
in which every unknown instruction is read as a dynamic one asks and answers the same questions: the
kind of a call plays no part in the hierarchy, and neither kind is virtual.

* `Program.isUnknown`, `Program.FirstUnknown`: a call with an unknown instruction stands at a site,
  and no other one before it.
* `Program.withDynamic`, `Hierarchy.withDynamic`: the changed program and its hierarchy.
* `Program.sameHeads_withDynamic`: only bodies are changed, so all questions have the same answers.
* `Program.call?_withDynamic`, `Program.callSites_withDynamic`: calls stand at the same sites.
* `Program.InRange.withDynamic`, `Program.WalksEnd.withDynamic`: the conditions are kept.
-/

import CallFlow.Proofs.Program.Bodies

namespace CallFlow

/-! ### The changed program -/

/-- The call, dynamic if its instruction is unknown. -/
def Call.withDynamic (call : Call) : Call :=
  if call.kind = .other then { call with kind := .dynamic } else call

/-- The statement, with a dynamic call if it is a call with an unknown instruction. -/
def Statement.withDynamic : Statement → Statement
  | .invoke call => .invoke call.withDynamic
  | statement => statement

/-- The method with the changed statements. -/
def Method.withDynamic (method : Method) : Method :=
  { method with body := method.body.map Statement.withDynamic }

/-- The program with the changed methods. -/
def Program.withDynamic (program : Program) : Program :=
  { program with methods := program.methods.map Method.withDynamic }

theorem Call.withDynamic_of_known {call : Call} (known : call.kind ≠ .other) :
    call.withDynamic = call := if_neg known

theorem Call.withDynamic_kind (call : Call) : call.withDynamic.kind ≠ .other := by
  unfold Call.withDynamic
  split
  · exact nofun
  · next known => exact known

theorem Call.withDynamic_target (call : Call) : call.withDynamic.target = call.target := by
  unfold Call.withDynamic
  split <;> rfl

theorem Statement.call?_withDynamic (statement : Statement) :
    statement.withDynamic.call? = statement.call?.map Call.withDynamic := by
  cases statement <;> rfl

namespace Program

variable (program : Program)

/-- Whether a call with an unknown instruction stands at a site. -/
def isUnknown (site : Site) : Bool :=
  (program.call? site).any fun call => call.kind = .other

theorem isUnknown_iff {site : Site} : program.isUnknown site = true ↔
    ∃ call, program.call? site = some call ∧ call.kind = .other := by
  unfold isUnknown
  rw [Option.any_eq_true]
  simp only [decide_eq_true_eq]

/-- The first call site with an unknown instruction in a list of methods, by the place of its method
and then by its own. -/
structure FirstUnknown (methods : List MethodId) (site : Site) : Prop where
  unknown : program.isUnknown site = true
  inOrder : ∃ earlier later, methods = earlier ++ site.method :: later ∧
    ∀ method ∈ earlier, ∀ other ∈ program.callSites method, program.isUnknown other = false
  least : ∀ other ∈ program.callSites site.method, program.isUnknown other = true →
    site.index ≤ other.index

variable {program} in
/-- It is found by going through the call sites of one method after the other. -/
theorem firstUnknown_of_find {methods : List MethodId} {site : Site}
    (found : (methods.flatMap program.callSites).find? program.isUnknown = some site) :
    program.FirstUnknown methods site := by
  rw [List.find?_flatMap, List.findSome?_eq_some_iff] at found
  obtain ⟨earlier, method, later, split, first, none⟩ := found
  have isSite : site ∈ program.callSites method := List.mem_of_find?_eq_some first
  obtain ⟨rfl, _⟩ := program.mem_callSites.mp isSite
  refine ⟨List.find?_some first, ⟨earlier, later, split, fun method member other isOther => ?_⟩, ?_⟩
  · exact Bool.not_eq_true _ ▸ List.find?_eq_none.mp (none method member) other isOther
  · intro other isOther unknown
    obtain ⟨_, before, after, sites, known⟩ := List.find?_eq_some_iff_append.mp first
    have sorted := program.pairwise_callSites site.method
    rw [sites] at sorted isOther
    rcases List.mem_append.mp isOther with old | new
    · have recognised := known other old
      rw [unknown] at recognised
      cases recognised
    · rcases List.mem_cons.mp new with rfl | behind
      · exact Nat.le_refl _
      · have below := (List.pairwise_cons.mp (List.pairwise_append.mp sorted).2.1).1
        exact Nat.le_of_lt (below other behind)

theorem method?_withDynamic (id : MethodId) :
    program.withDynamic.method? id = (program.method? id).map Method.withDynamic :=
  program.method?_mapBodies id

/-- Only bodies are changed. -/
theorem sameHeads_withDynamic : program.SameHeads program.withDynamic := program.sameHeads_mapBodies

theorem call?_withDynamic (site : Site) :
    program.withDynamic.call? site = (program.call? site).map Call.withDynamic :=
  program.call?_mapBodies Statement.call?_withDynamic site

/-- Nothing unknown is left. -/
theorem isUnknown_withDynamic (site : Site) : program.withDynamic.isUnknown site = false := by
  rw [Bool.eq_false_iff]
  intro unknown
  obtain ⟨call, isCall, other⟩ := program.withDynamic.isUnknown_iff.mp unknown
  rw [call?_withDynamic] at isCall
  obtain ⟨known, _, rfl⟩ := Option.map_eq_some_iff.mp isCall
  exact known.withDynamic_kind other

theorem callSites_withDynamic (id : MethodId) :
    program.withDynamic.callSites id = program.callSites id :=
  program.callSites_mapBodies Statement.call?_withDynamic id

variable {program}

theorem statementInRange_withDynamic (statement : Statement) :
    program.statementInRange statement.withDynamic = program.statementInRange statement := by
  cases statement with
  | invoke call =>
    show ((program.class? call.withDynamic.target.owner).isSome &&
      (program.member? call.withDynamic.target.member).isSome) = _
    rw [Call.withDynamic_target]
    rfl
  | _ => rfl

/-- The changed program is in range if the program is. -/
theorem InRange.withDynamic (inRange : program.InRange) : program.withDynamic.InRange := by
  refine program.sameHeads_withDynamic.inRange rfl inRange fun id info found statement stands => ?_
  rw [method?_withDynamic] at found
  obtain ⟨method, isMethod, rfl⟩ := Option.map_eq_some_iff.mp found
  obtain ⟨original, inBody, rfl⟩ := List.mem_map.mp stands
  rw [statementInRange_withDynamic]
  exact inRange.statement isMethod inBody

/-- No search starts for a call with an unknown instruction, whether or not it is read as dynamic. -/
theorem SearchesFrom.of_withDynamic {call : Call} {id : ClassId}
    (starts : program.SearchesFrom call.withDynamic id) : program.SearchesFrom call id := by
  by_cases unknown : call.kind = .other
  · have dynamic : call.withDynamic.kind = .dynamic := by rw [Call.withDynamic, if_pos unknown]
    cases starts with
    | named direct =>
      rw [dynamic] at direct
      rcases direct with same | same <;> cases same
    | receiver virtual _ _ =>
      rw [dynamic] at virtual
      cases virtual
  · rw [Call.withDynamic_of_known unknown] at starts
    exact starts

/-- The walks of the changed program end if those of the program do. -/
theorem WalksEnd.withDynamic (walksEnd : program.WalksEnd) : program.withDynamic.WalksEnd := by
  intro site changed isCall id starts
  rw [call?_withDynamic] at isCall
  obtain ⟨call, original, rfl⟩ := Option.map_eq_some_iff.mp isCall
  have same := program.sameHeads_withDynamic
  obtain ⟨steps, ends⟩ := walksEnd site call original id (same.searchesFrom starts).of_withDynamic
  refine ⟨steps, ?_⟩
  rw [Call.withDynamic_target, same.ascendWithin_declared?]
  exact ends

end Program

/-! ### Its hierarchy -/

namespace Hierarchy

/-- The hierarchy of the changed program has the same supertypes. -/
def withDynamic (hierarchy : Hierarchy) : Hierarchy where
  program := hierarchy.program.withDynamic
  edgesInRange := hierarchy.edgesInRange
  table := hierarchy.table
  table_eq := by
    rw [hierarchy.program.sameHeads_withDynamic.supertypesOf]
    exact hierarchy.table_eq

/-- The hierarchies are those of programs that differ in bodies only. -/
theorem sameHeads_withDynamic (hierarchy : Hierarchy) :
    hierarchy.program.SameHeads hierarchy.withDynamic.program :=
  hierarchy.program.sameHeads_withDynamic

end Hierarchy

end CallFlow
