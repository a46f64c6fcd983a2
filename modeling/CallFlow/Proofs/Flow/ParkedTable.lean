/-
**A table of parked calls is a set of parked calls.**

Calls stand in rows, and the size is counted over the rows while emptiness is told by whether there is a
row. The two agree because no operation leaves an empty row behind: parking makes a row only for the call
that it enters, and taking removes the row as a whole. So whatever is parked and taken, and in whichever
order, the table answers as the set of the calls that have been parked and not taken since.

* `EdgeIndex.Filled`: each key has one row, and no row is empty.
* `ParkedTable.InStep`: a table and a set hold the same calls.
* `ParkedTable.InStep.perform`, `ParkedTable.InStep.performAll`: operations keep them so.
* `IsParked`: which calls are parked after a sequence of operations.
* `ParkedTable.performAll_asSet`: the table after a sequence of operations, and what it has answered.
-/

import Mathlib.Data.List.Nodup
import CallFlow.Flow.ParkedTable
import CallFlow.Proofs.Graph.Indexes

namespace CallFlow

open OrderKey

/-! ### Rows that come and go -/

namespace EdgeIndex

variable {κ α : Type} [DecidableEq κ] [OrderKey α] {index : EdgeIndex κ α}

/-- Each key has one row, and no row is empty. -/
structure Filled (index : EdgeIndex κ α) : Prop where
  distinct : (index.rows.map Prod.fst).Nodup
  nonempty : ∀ row ∈ index.rows, row.2.toList ≠ []

/-- A row is entered under its key, or under a new one at the end. -/
theorem map_fst_enterRow (key : κ) (value : α) (rows : List (κ × SortedSet α)) :
    (enterRow key value rows).map Prod.fst =
      if key ∈ rows.map Prod.fst then rows.map Prod.fst else rows.map Prod.fst ++ [key] := by
  induction rows with
  | nil => rfl
  | cons row rest hyp =>
    obtain ⟨known, here⟩ := row
    by_cases own : key = known
    · subst own
      simp [enterRow]
    · rw [enterRow, if_neg own]
      simp only [List.map_cons, hyp, List.mem_cons, own, false_or]
      split <;> rfl

/-- A row with one more value is not empty. -/
theorem toList_insert_ne_nil (value : α) (row : SortedSet α) : (row.insert value).toList ≠ [] := by
  intro empty
  have member : value ∈ (row.insert value).toList := SortedSet.mem_insert.mpr (.inl rfl)
  rw [empty] at member
  cases member

/-- **Entering a value leaves no empty row.** -/
theorem Filled.enter (filled : index.Filled) (key : κ) (value : α) :
    (index.enter key value).Filled := by
  obtain ⟨rows⟩ := index
  refine ⟨?_, ?_⟩
  · show ((enterRow key value rows).map Prod.fst).Nodup
    rw [map_fst_enterRow]
    split
    · exact filled.distinct
    · next missing =>
      rw [← List.concat_eq_append]
      exact List.Nodup.concat missing filled.distinct
  · have nonempty := filled.nonempty
    show ∀ row ∈ enterRow key value rows, row.2.toList ≠ []
    clear filled
    induction rows with
    | nil =>
      intro row member
      rw [List.mem_singleton.mp member]
      exact toList_insert_ne_nil value ∅
    | cons first rest hyp =>
      obtain ⟨known, here⟩ := first
      intro row member
      rw [enterRow] at member
      split at member
      · rcases List.mem_cons.mp member with rfl | member
        · exact toList_insert_ne_nil value here
        · exact nonempty row (List.mem_cons_of_mem _ member)
      · rcases List.mem_cons.mp member with rfl | member
        · exact nonempty _ List.mem_cons_self
        · exact hyp (fun row member => nonempty row (List.mem_cons_of_mem _ member)) row member

/-- **Removing a row leaves no empty row.** -/
theorem Filled.without (filled : index.Filled) (key : κ) : (index.without key).Filled where
  distinct := (List.eraseP_sublist.map Prod.fst).nodup filled.distinct
  nonempty row member := filled.nonempty row (List.mem_of_mem_eraseP member)

/-- A key that has no row. -/
theorem row_of_missing {key : κ} {rows : List (κ × SortedSet α)} (missing : key ∉ rows.map Prod.fst) :
    row ⟨rows⟩ key = ∅ := by
  induction rows with
  | nil => rfl
  | cons first rest hyp =>
    obtain ⟨known, here⟩ := first
    rw [List.map_cons, List.mem_cons, not_or] at missing
    rw [row_cons, if_neg missing.1, hyp missing.2]

/-- Removing the row of a key leaves the other rows. -/
theorem row_without (filled : index.Filled) (key other : κ) :
    (index.without key).row other = if other = key then ∅ else index.row other := by
  obtain ⟨rows⟩ := index
  have distinct := filled.distinct
  show row ⟨rows.eraseP fun row => row.1 = key⟩ other = _
  clear filled
  induction rows with
  | nil => simp [row, EmptyCollection.emptyCollection]
  | cons first rest hyp =>
    obtain ⟨known, here⟩ := first
    obtain ⟨once, restDistinct⟩ := List.nodup_cons.mp distinct
    by_cases own : known = key
    · subst own
      rw [List.eraseP_cons_of_pos (by simp), row_cons]
      by_cases same : other = known
      · rw [if_pos same, same, row_of_missing once]
      · rw [if_neg same, if_neg same]
    · rw [List.eraseP_cons_of_neg (by simpa using own), row_cons, row_cons, hyp restDistinct]
      by_cases same : other = known
      · subst same
        rw [if_pos rfl, if_pos rfl, if_neg own]
      · rw [if_neg same, if_neg same]

/-- A known value changes nothing. -/
theorem enter_of_mem {key : κ} {value : α} (known : value ∈ index.row key) :
    index.enter key value = index := by
  obtain ⟨rows⟩ := index
  refine congrArg EdgeIndex.mk ?_
  induction rows with
  | nil => exact absurd known (SortedSet.not_mem_empty value)
  | cons first rest hyp =>
    obtain ⟨name, here⟩ := first
    rw [row_cons] at known
    by_cases own : key = name
    · rw [if_pos own] at known
      rw [enterRow, if_pos own, SortedSet.insert_of_mem known]
    · rw [if_neg own] at known
      rw [enterRow, if_neg own, hyp known]

/-- A new value adds one to the size. -/
theorem size_enter {key : κ} {value : α} (fresh : value ∉ index.row key) :
    (index.enter key value).size = index.size + 1 := by
  obtain ⟨rows⟩ := index
  show size ⟨enterRow key value rows⟩ = _
  induction rows with
  | nil => exact SortedSet.size_insert (SortedSet.not_mem_empty value)
  | cons first rest hyp =>
    obtain ⟨known, here⟩ := first
    rw [row_cons] at fresh
    by_cases own : key = known
    · rw [if_pos own] at fresh
      have grown := SortedSet.size_insert fresh
      rw [enterRow, if_pos own]
      simp only [size, List.foldr_cons] at grown ⊢
      omega
    · rw [if_neg own] at fresh
      have grown := hyp fresh
      rw [enterRow, if_neg own]
      simp only [size, List.foldr_cons] at grown ⊢
      omega

/-- A value stands in the row of a key or in those that are left without it. -/
theorem size_without (key : κ) : (index.row key).size + (index.without key).size = index.size := by
  obtain ⟨rows⟩ := index
  show _ + size ⟨rows.eraseP fun row => row.1 = key⟩ = _
  induction rows with
  | nil => rfl
  | cons first rest hyp =>
    obtain ⟨known, here⟩ := first
    rw [row_cons]
    by_cases own : key = known
    · rw [if_pos own, List.eraseP_cons_of_pos (by simpa using own.symm)]
      rfl
    · rw [if_neg own, List.eraseP_cons_of_neg (by simpa using Ne.symm own)]
      simp only [size, List.foldr_cons] at hyp ⊢
      omega

omit [DecidableEq κ] in
/-- **There is no row if there is no value**, as no row is empty. -/
theorem Filled.isEmpty_iff (filled : index.Filled) : index.rows.isEmpty = true ↔ index.size = 0 := by
  obtain ⟨rows⟩ := index
  cases rows with
  | nil => simp [size]
  | cons first rest =>
    have something : first.2.size ≠ 0 := fun none =>
      filled.nonempty first List.mem_cons_self (List.length_eq_zero_iff.mp none)
    simp [size, something]

end EdgeIndex

/-! ### A table and a set -/

/-- What waits for a class in a scope is listed by ascending sites and callees, each once. -/
theorem Parked.pairwise_waiting (parked : Parked) (receiver : ClassId) (scope : Scope) :
    (parked.waiting receiver scope).Pairwise Before := by
  unfold Parked.waiting
  rw [List.pairwise_filterMap]
  apply parked.ascending.imp
  intro first second before left leftSame right rightSame
  simp only [Option.ite_none_right_eq_some, Option.some.injEq] at leftSame rightSame
  obtain ⟨⟨rfl, rfl⟩, rfl⟩ := leftSame
  obtain ⟨⟨receiver, scope⟩, rfl⟩ := rightSame
  have pairs : Before ((first.receiver, first.scope), (first.site, first.callee))
      ((second.receiver, second.scope), (second.site, second.callee)) := before
  rw [receiver, scope] at pairs
  exact before_snd pairs

namespace ParkedTable

/-- A table and a set hold the same calls, and the table has no empty rows. -/
structure InStep (table : ParkedTable) (parked : Parked) : Prop where
  filled : table.index.Filled
  calls : ∀ receiver scope site callee,
    (site, callee) ∈ table.row receiver scope ↔ ⟨receiver, scope, site, callee⟩ ∈ parked
  size : table.size = parked.size

theorem InStep.empty : InStep {} ∅ where
  filled := ⟨List.nodup_nil, nofun⟩
  calls _ _ _ _ := iff_of_false (SortedSet.not_mem_empty _) (SortedSet.not_mem_empty _)
  size := rfl

namespace InStep

variable {table : ParkedTable} {parked : Parked} (inStep : table.InStep parked)
include inStep

/-- The row of a class and a scope is what waits there. -/
theorem toList_row (receiver : ClassId) (scope : Scope) :
    (table.row receiver scope).toList = parked.waiting receiver scope :=
  SortedSet.ascending_unique (SortedSet.ascending _) (parked.pairwise_waiting receiver scope)
    fun _ => (inStep.calls receiver scope _ _).trans Parked.mem_waiting.symm

/-- **Parking a call.** -/
theorem register (call : ParkedCall) : (table.register call).1.InStep (parked.park call) := by
  obtain ⟨receiver, scope, site, callee⟩ := call
  have known : (site, callee) ∈ table.row receiver scope ↔ ⟨receiver, scope, site, callee⟩ ∈ parked :=
    inStep.calls receiver scope site callee
  refine ⟨inStep.filled.enter _ _, fun other place here method => ?_, ?_⟩
  · show (here, method) ∈ (table.index.enter (receiver, scope) (site, callee)).row (other, place) ↔ _
    rw [EdgeIndex.row_enter, Parked.mem_park, ParkedCall.mk.injEq]
    by_cases same : (other, place) = (receiver, scope)
    · obtain ⟨rfl, rfl⟩ := Prod.mk.inj same
      rw [if_pos rfl, SortedSet.mem_insert, Prod.mk.injEq]
      simp only [true_and]
      exact or_congr_right (inStep.calls other place here method)
    · rw [if_neg same]
      refine (inStep.calls other place here method).trans (or_iff_right fun equal => same ?_).symm
      rw [equal.1, equal.2.1]
  · have size := inStep.size
    unfold ParkedTable.size at size ⊢
    by_cases parkedBefore : (⟨receiver, scope, site, callee⟩ : ParkedCall) ∈ parked
    · have unchanged : parked.park ⟨receiver, scope, site, callee⟩ = parked :=
        SortedSet.insert_of_mem parkedBefore
      show (table.index.enter (receiver, scope) (site, callee)).size = _
      rw [unchanged, EdgeIndex.enter_of_mem (known.mpr parkedBefore), size]
    · have grown : (parked.park ⟨receiver, scope, site, callee⟩).size = parked.size + 1 :=
        SortedSet.size_insert parkedBefore
      show (table.index.enter (receiver, scope) (site, callee)).size = _
      rw [grown, EdgeIndex.size_enter (mt known.mp parkedBefore), size]

/-- **Taking what waits for a class in a scope.** -/
theorem take (receiver : ClassId) (scope : Scope) :
    (table.take receiver scope).1.InStep (parked.remaining receiver scope) := by
  refine ⟨inStep.filled.without _, fun other place here method => ?_, ?_⟩
  · show (here, method) ∈ (table.index.without (receiver, scope)).row (other, place) ↔ _
    rw [EdgeIndex.row_without inStep.filled, Parked.mem_remaining, ← inStep.calls]
    by_cases same : (other, place) = (receiver, scope)
    · obtain ⟨rfl, rfl⟩ := Prod.mk.inj same
      simp
    · rw [if_neg same]
      rw [Prod.mk.injEq] at same
      exact (and_iff_left same).symm
  · have size := inStep.size
    have row := congrArg List.length (inStep.toList_row receiver scope)
    have taken : (table.index.row (receiver, scope)).size +
        (table.index.without (receiver, scope)).size = table.index.size :=
      EdgeIndex.size_without (receiver, scope)
    have left := parked.size_remaining receiver scope
    unfold ParkedTable.size at size ⊢
    show (table.index.without (receiver, scope)).size = _
    unfold ParkedTable.row at row
    unfold SortedSet.size at *
    omega

/-- **An operation keeps a table and a set in step**, and answers the same of both. -/
theorem perform (operation : ParkedOperation) :
    (table.perform operation).1.InStep (parked.perform operation) ∧
      (table.perform operation).2 = parked.answer operation := by
  cases operation with
  | register call =>
    refine ⟨inStep.register call, congrArg ParkedAnswer.registered (decide_eq_decide.mpr ?_)⟩
    exact not_congr (inStep.calls call.receiver call.scope call.site call.callee)
  | take receiver scope =>
    exact ⟨inStep.take receiver scope,
      congrArg ParkedAnswer.taken (inStep.toList_row receiver scope)⟩

end InStep

/-! ### Sequences of operations -/

theorem performAll_append (table : ParkedTable) (first second : List ParkedOperation) :
    table.performAll (first ++ second) =
      ((table.performAll first).1.performAll second).map id ((table.performAll first).2 ++ ·) := by
  induction first generalizing table with
  | nil => rfl
  | cons operation rest hyp =>
    show (_, _) = _
    rw [List.append_eq, hyp]
    rfl

theorem length_performAll (table : ParkedTable) (operations : List ParkedOperation) :
    (table.performAll operations).2.length = operations.length := by
  induction operations generalizing table with
  | nil => rfl
  | cons operation rest hyp => exact congrArg Nat.succ (hyp _)

/-- **Operations keep a table and a set in step.** -/
theorem InStep.performAll {table : ParkedTable} {parked : Parked} (inStep : table.InStep parked)
    (operations : List ParkedOperation) :
    (table.performAll operations).1.InStep (parked.performAll operations) := by
  induction operations generalizing table parked with
  | nil => exact inStep
  | cons operation rest hyp => exact hyp (inStep.perform operation).1

end ParkedTable

/-! ### What is parked -/

/-- Whether an operation decides whether a call is parked afterwards: it registers the call, or takes what
waits for the same class in the same scope. -/
def ParkedOperation.concerns (call : ParkedCall) : ParkedOperation → Bool
  | .register other => other = call
  | .take receiver scope => receiver = call.receiver ∧ scope = call.scope

/-- A call is parked after a sequence of operations if the last one of them that concerns it has
registered it. -/
def IsParked (operations : List ParkedOperation) (call : ParkedCall) : Prop :=
  (operations.filter (ParkedOperation.concerns call)).getLast? = some (.register call)

instance (operations : List ParkedOperation) (call : ParkedCall) :
    Decidable (IsParked operations call) := inferInstanceAs (Decidable (_ = _))

variable {operations : List ParkedOperation} {call : ParkedCall}

theorem not_isParked_nil (call : ParkedCall) : ¬ IsParked [] call := nofun

/-- After a registration the call is parked, and all calls that were. -/
theorem isParked_register {other : ParkedCall} :
    IsParked (operations ++ [.register other]) call ↔ call = other ∨ IsParked operations call := by
  unfold IsParked
  by_cases same : call = other
  · simp [ParkedOperation.concerns, same]
  · simp [ParkedOperation.concerns, same, Ne.symm same]

/-- After taking what waits for a class in a scope, the other calls are parked that were. -/
theorem isParked_take {receiver : ClassId} {scope : Scope} :
    IsParked (operations ++ [.take receiver scope]) call ↔
      IsParked operations call ∧ ¬ (call.receiver = receiver ∧ call.scope = scope) := by
  unfold IsParked
  by_cases taken : receiver = call.receiver ∧ scope = call.scope
  · simp [ParkedOperation.concerns, taken]
  · have other : ¬ (call.receiver = receiver ∧ call.scope = scope) := fun same =>
      taken ⟨same.1.symm, same.2.symm⟩
    simp [ParkedOperation.concerns, taken, other]

/-- **The parked calls that are kept as one set are those that are parked.** -/
theorem mem_performAll : call ∈ Parked.performAll ∅ operations ↔ IsParked operations call := by
  induction operations using List.reverseRecOn with
  | nil => exact iff_of_false (SortedSet.not_mem_empty call) (not_isParked_nil call)
  | append_singleton operations operation hyp =>
    unfold Parked.performAll at hyp ⊢
    rw [List.foldl_append]
    cases operation with
    | register other => exact Parked.mem_park.trans ((or_congr_right hyp).trans isParked_register.symm)
    | take receiver scope =>
      exact Parked.mem_remaining.trans ((and_congr_left' hyp).trans isParked_take.symm)

/-! ### What is answered -/

/-- What an operation answers after earlier ones: whether the call that it registers was not parked, or
the sites and callees of the parked calls that it takes, in ascending order. -/
def ParkedOperation.Answers (earlier : List ParkedOperation) :
    ParkedOperation → ParkedAnswer → Prop
  | .register call, .registered fresh => fresh = true ↔ ¬ IsParked earlier call
  | .take receiver scope, .taken calls => IndexedCallGraph.Enumerates calls fun pair =>
      IsParked earlier ⟨receiver, scope, pair.1, pair.2⟩
  | _, _ => False

theorem answers_answer (earlier : List ParkedOperation) (operation : ParkedOperation) :
    operation.Answers earlier ((Parked.performAll ∅ earlier).answer operation) := by
  cases operation with
  | register call => exact decide_eq_true_iff.trans (not_congr mem_performAll)
  | take receiver scope =>
    exact ⟨Parked.pairwise_waiting _ receiver scope, fun pair => Parked.mem_waiting.trans mem_performAll⟩

/-- The calls that have been handed out, by operations with their answers. -/
def handedOut (records : List (ParkedOperation × ParkedAnswer)) : List ParkedCall :=
  records.flatMap fun
    | (.take receiver scope, .taken calls) =>
      calls.map fun pair => ⟨receiver, scope, pair.1, pair.2⟩
    | _ => []

/-- A taking hands out each parked call that waits for the class in the scope once. -/
theorem count_handedOut_take {earlier : List ParkedOperation} {receiver : ClassId} {scope : Scope}
    {calls : List (Site × MethodId)}
    (answers : (ParkedOperation.take receiver scope).Answers earlier (.taken calls)) :
    (handedOut [(.take receiver scope, .taken calls)]).count call =
      if IsParked earlier call ∧ call.receiver = receiver ∧ call.scope = scope then 1 else 0 := by
  have once : (handedOut [(.take receiver scope, .taken calls)]).Nodup := by
    have distinct : calls.Nodup := SortedSet.nodup_toList ⟨calls, answers.ascending⟩
    rw [handedOut, List.flatMap_singleton]
    refine distinct.map fun first second same => ?_
    simp only [ParkedCall.mk.injEq, true_and] at same
    exact Prod.ext same.1 same.2
  rw [once.count]
  refine if_congr ?_ rfl rfl
  rw [handedOut, List.flatMap_singleton, List.mem_map]
  constructor
  · rintro ⟨pair, member, rfl⟩
    exact ⟨(answers.complete pair).mp member, rfl, rfl⟩
  · rintro ⟨parked, rfl, rfl⟩
    exact ⟨(call.site, call.callee), (answers.complete _).mpr parked, rfl⟩

/-- **An operation keeps the balance**: what it registers anew is parked more than before, and what it
hands out is parked no more. -/
theorem balance {earlier : List ParkedOperation} {operation : ParkedOperation} {answer : ParkedAnswer}
    (answers : operation.Answers earlier answer) (call : ParkedCall) :
    (handedOut [(operation, answer)]).count call +
        (if IsParked (earlier ++ [operation]) call then 1 else 0) =
      (if IsParked earlier call then 1 else 0) +
        [(operation, answer)].count (.register call, .registered true) := by
  cases operation with
  | register other =>
    cases answer with
    | taken calls => exact answers.elim
    | registered fresh =>
      have nothing : (handedOut [(.register other, .registered fresh)]).count call = 0 := rfl
      have new : fresh = true ↔ ¬ IsParked earlier other := answers
      rw [nothing, List.count_singleton]
      simp only [isParked_register]
      by_cases same : call = other
      · by_cases parked : IsParked earlier other
        · simp [same, parked, new]
        · simp [same, parked, new.mpr parked]
      · simp [same, Ne.symm same]
  | take receiver scope =>
    cases answer with
    | registered fresh => exact answers.elim
    | taken calls =>
      have nothing : [(ParkedOperation.take receiver scope, ParkedAnswer.taken calls)].count
          (.register call, .registered true) = 0 := by simp
      rw [count_handedOut_take answers, nothing]
      simp only [isParked_take]
      by_cases parked : IsParked earlier call
      · by_cases taken : call.receiver = receiver ∧ call.scope = scope
        · simp [parked, taken]
        · simp [parked, taken]
      · simp [parked]

namespace ParkedTable

/-- Every operation of a sequence answers as if the parked calls were kept as one set. -/
theorem performAll_answer (before after : List ParkedOperation) (operation : ParkedOperation) :
    (ParkedTable.performAll {} (before ++ operation :: after)).2[before.length]? =
      some ((Parked.performAll ∅ before).answer operation) := by
  have inStep := (InStep.empty.performAll before).perform operation
  have behind := Nat.le_of_eq (length_performAll {} before)
  rw [performAll_append]
  show (_ ++ _)[before.length]? = _
  rw [List.getElem?_append_right behind, length_performAll, Nat.sub_self]
  exact congrArg some inStep.2

/-- The operations of a sequence with their answers. -/
def records (operations : List ParkedOperation) : List (ParkedOperation × ParkedAnswer) :=
  operations.zip (ParkedTable.performAll {} operations).2

theorem records_concat (operations : List ParkedOperation) (operation : ParkedOperation) :
    records (operations ++ [operation]) =
      records operations ++ [(operation, (Parked.performAll ∅ operations).answer operation)] := by
  have inStep := (InStep.empty.performAll operations).perform operation
  have last : ((performAll {} operations).1.performAll [operation]).2 =
      [(Parked.performAll ∅ operations).answer operation] := congrArg (List.cons · []) inStep.2
  unfold records
  rw [performAll_append, Prod.map_snd, List.zip_append (length_performAll {} operations).symm, last]
  rfl

/-- **A call is handed out as often as it was registered anew**, but for the last time if it is still
parked. -/
theorem count_handedOut (operations : List ParkedOperation) (call : ParkedCall) :
    (handedOut (records operations)).count call + (if IsParked operations call then 1 else 0) =
      (records operations).count (.register call, .registered true) := by
  induction operations using List.reverseRecOn with
  | nil => rfl
  | append_singleton operations operation hyp =>
    have last := balance (answers_answer operations operation) call
    rw [records_concat, handedOut, List.flatMap_append, List.count_append, List.count_append]
    unfold handedOut at hyp last
    omega

/-- A table holds what is parked after a sequence of operations. -/
structure Holds (table : ParkedTable) (operations : List ParkedOperation) : Prop where
  rows : ∀ receiver scope, IndexedCallGraph.Enumerates (table.row receiver scope).toList fun pair =>
    IsParked operations ⟨receiver, scope, pair.1, pair.2⟩
  size : ∃ calls, IndexedCallGraph.Enumerates calls (IsParked operations) ∧
    table.size = calls.length
  isEmpty : table.isEmpty = true ↔ table.size = 0

theorem InStep.holds {table : ParkedTable} {operations : List ParkedOperation}
    (inStep : table.InStep (Parked.performAll ∅ operations)) : table.Holds operations where
  rows receiver scope := by
    rw [inStep.toList_row]
    exact answers_answer operations (.take receiver scope)
  size := ⟨(Parked.performAll ∅ operations).toList,
    ⟨SortedSet.ascending _, fun _ => mem_performAll⟩, inStep.size⟩
  isEmpty := inStep.filled.isEmpty_iff

/-- **A table of parked calls behaves as a set of parked calls.** After any sequence of operations it
holds the calls that are parked, counts them, and is empty if there are none. Registering parks a call and
answers whether it was not parked; taking answers what waits for a class in a scope, in ascending order, and
removes that and nothing else. So a call is handed out at most once for each time that it is registered
anew. -/
theorem performAll_asSet {operations : List ParkedOperation} {table : ParkedTable}
    {answers : List ParkedAnswer}
    (performed : ParkedTable.performAll {} operations = (table, answers)) :
    table.Holds operations ∧
    (∀ before operation after, operations = before ++ operation :: after →
      ∃ answer, answers[before.length]? = some answer ∧ operation.Answers before answer ∧
        answer = (Parked.performAll ∅ before).answer operation) ∧
    (∀ call, (∀ other, IsParked (operations ++ [.register other]) call ↔
        call = other ∨ IsParked operations call) ∧
      ∀ receiver scope, IsParked (operations ++ [.take receiver scope]) call ↔
        IsParked operations call ∧ ¬ (call.receiver = receiver ∧ call.scope = scope)) ∧
    ∀ call, (handedOut (operations.zip answers)).count call +
        (if IsParked operations call then 1 else 0) =
      (operations.zip answers).count (.register call, .registered true) := by
  obtain ⟨rfl, rfl⟩ := Prod.mk.inj performed
  refine ⟨(InStep.empty.performAll operations).holds, ?_, ?_, count_handedOut operations⟩
  · rintro before operation after rfl
    exact ⟨_, performAll_answer before after operation, answers_answer before operation, rfl⟩
  · exact fun call => ⟨fun other => isParked_register, fun receiver scope => isParked_take⟩

/-- Two calls wait for a class in a method, one of them is registered twice, and a third one waits for the
class elsewhere. What waits in the method is taken twice. -/
def sampleOperations : List ParkedOperation :=
  [.register ⟨⟨2⟩, .method ⟨0⟩, ⟨⟨0⟩, 4⟩, ⟨5⟩⟩, .register ⟨⟨2⟩, .method ⟨0⟩, ⟨⟨0⟩, 1⟩, ⟨5⟩⟩,
    .register ⟨⟨2⟩, .method ⟨0⟩, ⟨⟨0⟩, 1⟩, ⟨5⟩⟩, .register ⟨⟨2⟩, .global, ⟨⟨0⟩, 1⟩, ⟨5⟩⟩,
    .take ⟨2⟩ (.method ⟨0⟩), .take ⟨2⟩ (.method ⟨0⟩)]

theorem performAll_asSet_sample : ∃ table : ParkedTable,
    ParkedTable.performAll {} sampleOperations =
      (table, [.registered true, .registered true, .registered false, .registered true,
        .taken [(⟨⟨0⟩, 1⟩, ⟨5⟩), (⟨⟨0⟩, 4⟩, ⟨5⟩)], .taken []]) ∧
    table.Holds sampleOperations ∧ table.size = 1 ∧ table.isEmpty = false ∧
    IsParked sampleOperations ⟨⟨2⟩, .global, ⟨⟨0⟩, 1⟩, ⟨5⟩⟩ ∧
    ¬ IsParked sampleOperations ⟨⟨2⟩, .method ⟨0⟩, ⟨⟨0⟩, 1⟩, ⟨5⟩⟩ := by
  have performed : ParkedTable.performAll {} sampleOperations =
      ((ParkedTable.performAll {} sampleOperations).1,
        [.registered true, .registered true, .registered false, .registered true,
          .taken [(⟨⟨0⟩, 1⟩, ⟨5⟩), (⟨⟨0⟩, 4⟩, ⟨5⟩)], .taken []]) := Prod.ext rfl (by decide +kernel)
  exact ⟨_, performed, (performAll_asSet performed).1, by decide +kernel, by decide +kernel,
    by decide +kernel, by decide +kernel⟩

end ParkedTable

end CallFlow
