/-
**Reports.**

A report is a finished call graph with names in the place of identifiers. It is written as an
indented JSON document or as one line of text for each edge.
-/

import CallFlow.Construction.Run
import CallFlow.Json.Document

namespace CallFlow

namespace Report

/-- An edge by names. -/
structure EdgeLine where
  caller : String
  position : Nat
  kind : CallKind
  callee : String
  deriving DecidableEq, Repr, Inhabited

/-- The methods linked for a virtual target, by names. -/
structure TargetLine where
  target : String
  callees : List String
  deriving DecidableEq, Repr, Inhabited

end Report

/-- A finished call graph by names. -/
structure Report where
  variant : Variant
  entry : String
  reachable : List String
  edges : List Report.EdgeLine
  dispatched : List Report.TargetLine
  statistics : Construction.Statistics
  deriving DecidableEq, Repr, Inhabited

namespace Report

/-- The report on a graph of a program. -/
def ofOutput (program : Program) (variant : Variant) (output : BuildOutput) : Report where
  variant := variant
  entry := program.methodName output.graph.entry
  reachable := output.graph.reachable.map program.methodName
  edges := output.graph.edges.toList.map fun edge =>
    ⟨program.methodName edge.caller, edge.site.index, edge.kind, program.methodName edge.callee⟩
  dispatched := output.dispatched.map fun (target, callees) =>
    ⟨program.targetName target, callees.map program.methodName⟩
  statistics := output.statistics

/-- The counts by the names that a report gives them, in order. -/
def namedCounts (statistics : Construction.Statistics) : List (String × Nat) :=
  [("methods_processed", statistics.methodsProcessed), ("events", statistics.events),
    ("facts", statistics.facts), ("pending_registered", statistics.parkedCalls),
    ("pending_replayed", statistics.replayedCalls), ("pending_left", statistics.callsLeftParked),
    ("dispatch_hits", statistics.cacheHits), ("dispatch_misses", statistics.cacheMisses),
    ("dispatched_callees", statistics.linkedTargets),
    ("unresolved_dynamic", statistics.unresolvedDynamic),
    ("skipped_targets", statistics.skippedTargets), ("kind_mismatches", statistics.kindMismatches)]

/-- An edge as a JSON document. -/
def EdgeLine.document (line : EdgeLine) : Json.Document :=
  .object [("caller", .text line.caller), ("call_site", .number line.position),
    ("kind", .text line.kind.name), ("callee", .text line.callee)]

/-- The methods linked for a target as a JSON document. -/
def TargetLine.document (line : TargetLine) : Json.Document :=
  .object [("target", .text line.target), ("callees", .list (line.callees.map .text))]

/-- A report as a JSON document. -/
def document (report : Report) : Json.Document :=
  .object [("variant", .text report.variant.name), ("entry", .text report.entry),
    ("reachable_methods", .list (report.reachable.map .text)),
    ("edges", .list (report.edges.map EdgeLine.document)),
    ("dispatched", .list (report.dispatched.map TargetLine.document)),
    ("stats", .object ((namedCounts report.statistics).map fun (name, count) =>
      (name, .number count)))]

/-- An edge as a line of text. -/
def EdgeLine.line (line : EdgeLine) : String :=
  line.caller ++ "#" ++ toString line.position ++ " -[" ++ line.kind.name ++ "]-> " ++ line.callee ++
    "\n"

/-- A report as text: a line for each edge. -/
def text (report : Report) : String := String.join (report.edges.map EdgeLine.line)

/-- The forms that a report is written in. -/
inductive Format where
  | json
  | text
  deriving DecidableEq, Repr, Inhabited

/-- A report in a form. -/
def render (report : Report) : Format → String
  | .json => report.document.pretty ++ "\n"
  | .text => report.text

end Report

end CallFlow
