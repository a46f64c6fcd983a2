/-
**Larger bodies give larger graphs.**

If every statement of a program stands in the same method of another one, perhaps at another place,
then whatever the rules ask for in the first program they ask for in the second one. So the graph of
the first program is contained in that of the second one, with call sites moved to their places.

* `Program.Embeds`: the statements of a program stand in another one.
* `Construction.Closed.embed`: a closed solution of the second program, read at the sites of the first
  one, is closed for the first one.
* `Construction.construct_embedded`: the construction for the first program finishes if that for the
  second one does, inside it.
* `buildGraph_extended`: statements appended to bodies take nothing away.
-/

import CallFlow.Proofs.Construction.Dispatched
import CallFlow.Proofs.Construction.Coarser
import CallFlow.Proofs.Program.SameHeads

namespace CallFlow

/-- The edge from another site. -/
def Edge.moved (place : Site → Site) (edge : Edge) : Edge := { edge with site := place edge.site }

namespace Program

/-- The programs differ in bodies only, and every statement of the first one stands in the second
one, in the same method. -/
structure Embeds (first second : Program) (place : Site → Site) : Prop where
  heads : first.SameHeads second
  method : ∀ site, (place site).method = site.method
  statement : ∀ site statement, first.statement? site = some statement →
    second.statement? (place site) = some statement

namespace Embeds

variable {first second : Program} {place : Site → Site} (embeds : first.Embeds second place)
include embeds

theorem call? {site : Site} {call : Call} (isCall : first.call? site = some call) :
    second.call? (place site) = some call :=
  call?_eq_some.mpr (embeds.statement site _ (call?_eq_some.mp isCall))

theorem hasStatement {method : MethodId} {statement : Statement}
    (stands : first.HasStatement method statement) : second.HasStatement method statement := by
  obtain ⟨index, here⟩ := hasStatement_iff.mp stands
  obtain ⟨info, found, there⟩ := Option.bind_eq_some_iff.mp (embeds.statement _ _ here)
  rw [embeds.method] at found
  exact ⟨info, found, List.mem_of_getElem? there⟩

end Embeds

end Program

namespace Construction

variable {first second : Hierarchy} {granularity : Granularity} {place : Site → Site}
  {entry : MethodId}

/-- A solution with the edges of a program whose sites are moved to their places. -/
def Solution.readAt (place : Site → Site) (solution : Solution) : Solution :=
  { solution with edges := { edge | edge.moved place ∈ solution.edges } }

section Embedded

variable (embeds : first.program.Embeds second.program place)
include embeds

/-- **A closed solution of the second program is closed for the first one.** -/
theorem Closed.embed {solution : Solution} (closed : Closed ⟨second, granularity⟩ entry solution) :
    Closed ⟨first, granularity⟩ entry (solution.readAt place) := by
  have accepts := embeds.heads.acceptsArgument granularity
  have returns := embeds.heads.returns granularity
  have fieldAccepts := embeds.heads.fieldAccepts granularity
  have holds := embeds.heads.holdsObjects granularity
  have receives := embeds.heads.receives granularity
  have isConcrete : second.program.isConcrete = first.program.isConcrete := embeds.heads.isConcrete
  have moved {site : Site} (reachable : site.method ∈ solution.reachable) :
      (place site).method ∈ solution.reachable := by
    rw [embeds.method]
    exact reachable
  have caller (edge : Edge) : (edge.moved place).caller = edge.caller := embeds.method edge.site
  refine ⟨closed.entry, fun edge linked => closed.callee (edge.moved place) linked, ?_, ?_, ?_, ?_, ?_, ?_, ?_, ?_, ?_⟩
  · intro site call callee reachable isCall direct resolved concrete
    refine closed.declared (place site) call callee (moved reachable) (embeds.call? isCall) direct ?_ ?_
    · show second.resolve call.target = _
      rw [embeds.heads.resolve]
      exact resolved
    · show second.program.isAbstract callee = false
      rw [embeds.heads.isAbstract]
      exact concrete
  · intro untracked site call id callee reachable isCall virtual receiving
    refine closed.dispatched untracked (place site) call id callee (moved reachable)
      (embeds.call? isCall) virtual ?_
    rw [receives]
    exact receiving
  · intro tracked site call id callee reachable isCall virtual receiving present
    refine closed.received tracked (place site) call id callee (moved reachable)
      (embeds.call? isCall) virtual ?_ ?_
    · rw [receives]
      exact receiving
    · rw [embeds.method]
      exact present
  · intro tracked method id reachable stands concrete
    refine closed.allocated tracked method id reachable (embeds.hasStatement stands) ?_
    show second.program.isConcrete id = true
    rw [isConcrete]
    exact concrete
  · intro tracked counts method element id reachable stands base concrete
    refine closed.allocatedArray tracked counts method element id reachable
      (embeds.hasStatement stands) base ?_
    show second.program.isConcrete id = true
    rw [isConcrete]
    exact concrete
  · intro tracked edge linked id present accepting
    refine closed.passed tracked (edge.moved place) linked id ?_ ?_
    · rw [caller]
      exact present
    · rw [accepts]
      exact accepting
  · intro tracked edge linked id present returning
    have arrived := closed.returned tracked (edge.moved place) linked id present (by
      rw [returns]
      exact returning)
    rw [caller] at arrived
    exact arrived
  · intro tracked method field id reachable stands present accepting
    refine closed.stored tracked method field id reachable (embeds.hasStatement stands) present ?_
    rw [fieldAccepts]
    exact accepting
  · intro tracked method field id reachable stands holding present
    refine closed.loaded tracked method field id reachable (embeds.hasStatement stands) ?_ present
    rw [holds]
    exact holding

/-- **The construction for the first program finishes inside that for the second one**, if that one
finishes. What it has linked for a target the second one has linked as well. -/
theorem construct_embedded (inRange : first.program.InRange)
    (finished : (construct ⟨second, granularity⟩ entry).ending = .finished) :
    (construct ⟨first, granularity⟩ entry).ending = .finished ∧
      (construct ⟨first, granularity⟩ entry).state.solution ≤
        (construct ⟨second, granularity⟩ entry).state.solution.readAt place ∧
      ∀ pair ∈ (construct ⟨first, granularity⟩ entry).state.cache.linked,
        pair ∈ (construct ⟨second, granularity⟩ entry).state.cache.linked := by
  obtain ⟨past, reaches, idle⟩ := reaches_of_finished finished
  have closed := (closed_of_idle reaches idle).embed embeds
  have isMethod : (first.program.method? entry).isSome = true := by
    rw [← embeds.heads.isSome_method?]
    exact isMethod_of_finished finished
  obtain ⟨ended, inside⟩ : (construct ⟨first, granularity⟩ entry).ending = .finished ∧ _ :=
    construct_of_closed ⟨first, granularity⟩ inRange isMethod closed
      fun site call reachable isCall => by
        obtain ⟨recognised, answers⟩ :=
          resolvable_of_idle reaches idle (embeds.method site ▸ reachable) (embeds.call? isCall)
        exact ⟨recognised, embeds.heads.answers answers⟩
  refine ⟨ended, inside, fun pair linked => ?_⟩
  obtain ⟨target, callee⟩ := pair
  obtain ⟨_, reached, _⟩ := reaches_of_finished ended
  obtain ⟨site, call, isCall, virtual, same, edge⟩ := reached.exists_edge_of_linked closed linked
  exact (mem_linked_of_idle reaches idle).mpr
    ⟨place site, call, embeds.call? isCall, virtual, same, edge⟩

end Embedded

end Construction

/-! ### Appended statements -/

/-- The programs differ in bodies only, and those of the second one are longer: statements have been
appended. -/
structure Program.ExtendedBy (first second : Program) : Prop where
  heads : first.SameHeads second
  bodies : ∀ id, first.body id <+: second.body id

/-- Appending keeps every statement at its place. -/
theorem Program.ExtendedBy.embeds {first second : Program} (extended : first.ExtendedBy second) :
    first.Embeds second id := by
  refine ⟨extended.heads, fun site => rfl, fun site statement here => ?_⟩
  rw [Program.statement?_eq] at here ⊢
  obtain ⟨more, body⟩ := extended.bodies site.method
  show (second.body site.method)[site.index]? = some statement
  rw [← body, List.getElem?_append_left (List.getElem?_eq_some_iff.mp here).1]
  exact here

/-- **Appending statements takes nothing away.** If a graph can be built for a program with statements
appended to its bodies then one can be built without them, and every reachable method, edge, fact and
linked method of it is also there with them. The scopes of the named analyses are the same. -/
theorem buildGraph_extended {first second : Program} (inRange : first.InRange)
    (extended : first.ExtendedBy second) :
    (∀ variant : Variant, variant.granularity second = variant.granularity first) ∧
    ∀ granularity entry larger, buildGraph second granularity entry = .ok larger →
      ∃ output, buildGraph first granularity entry = .ok output ∧
        output.graph.ContainedIn larger.graph ∧
        (∀ target callees, (target, callees) ∈ output.dispatched → ∀ callee ∈ callees,
          ∃ more, (target, more) ∈ larger.dispatched ∧ callee ∈ more) ∧
        ∀ run largerRun, constructGraph first granularity entry = .ok run →
          constructGraph second granularity entry = .ok largerRun →
          ∀ fact ∈ run.state.facts, fact ∈ largerRun.state.facts := by
  refine ⟨extended.heads.granularity, fun granularity entry larger built => ?_⟩
  obtain ⟨largerRun, largerConstructed, finished, rfl⟩ := buildGraph_eq_ok.mp built
  obtain ⟨longer, foundLonger, rfl⟩ := constructGraph_eq_ok.mp largerConstructed
  obtain rfl := Hierarchy.program_of? foundLonger
  obtain ⟨shorter, rfl, constructed⟩ :=
    exists_constructGraph inRange.edgesInRange granularity entry
  have embeds : shorter.program.Embeds longer.program id := extended.embeds
  obtain ⟨ended, ⟨reachable, edges, facts⟩, linked⟩ :=
    Construction.construct_embedded embeds inRange finished
  refine ⟨_, buildGraph_eq_ok.mpr ⟨_, constructed, ended, rfl⟩, ⟨reachable, edges⟩, ?_, ?_⟩
  · intro target callees reported callee member
    have pair := TargetCache.exists_mem_linkedTargets.mp ⟨callees, reported, member⟩
    exact TargetCache.exists_mem_linkedTargets.mpr (linked _ pair)
  · intro run otherRun same otherSame
    rw [constructed] at same
    rw [largerConstructed] at otherSame
    cases same
    cases otherSame
    exact facts

/-- Shapes whose main method also asks a square for its area. -/
def Program.busyShapes : Program :=
  { Program.shapes with
    methods := Program.shapes.methods.modify 0 fun main =>
      { main with body := main.body ++ [.invoke ⟨.special, ⟨⟨2⟩, ⟨1⟩⟩⟩] } }

/-- The graph of the shapes is inside the one with a further call. -/
theorem buildGraph_extended_shapes :
    ∃ larger output, buildGraph .busyShapes (Variant.xta.granularity .shapes) ⟨0⟩ = .ok larger ∧
      buildGraph .shapes (Variant.xta.granularity .shapes) ⟨0⟩ = .ok output ∧
      output.graph.ContainedIn larger.graph := by
  have inRange : Program.shapes.InRange := by decide
  have extended : Program.shapes.ExtendedBy .busyShapes := by
    refine ⟨⟨rfl, rfl, rfl⟩, fun id => ?_⟩
    obtain ⟨_ | _ | _ | _ | _⟩ := id
    · exact ⟨[.invoke ⟨.special, ⟨⟨2⟩, ⟨1⟩⟩⟩], rfl⟩
    all_goals exact List.prefix_rfl
  obtain ⟨larger, built⟩ :
      ∃ larger, buildGraph .busyShapes (Variant.xta.granularity .shapes) ⟨0⟩ = .ok larger := ⟨_, rfl⟩
  obtain ⟨output, builtOutput, contained, _⟩ :=
    (buildGraph_extended inRange extended).2 _ _ larger built
  exact ⟨larger, output, built, builtOutput, contained⟩

end CallFlow
