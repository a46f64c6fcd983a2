import CallFlow.Main
import CallFlow.Program.Checked
import CallFlow.Program.Indexed
import CallFlow.Guarded.Build
import CallFlow.Proofs.Construction.Coarser
import CallFlow.Proofs.Construction.Parking
import CallFlow.Proofs.Construction.Termination
import CallFlow.Proofs.Construction.Unknown
import CallFlow.Proofs.Hierarchy.Supertypes
import CallFlow.Proofs.Hierarchy.Defaults
import CallFlow.Proofs.Hierarchy.TargetCache
import CallFlow.Proofs.Description.Passes
import CallFlow.Proofs.Program.TypeText
import CallFlow.Proofs.Description.Mirror
import CallFlow.Proofs.Description.Reference
import CallFlow.Proofs.Construction.Discovery
import CallFlow.Proofs.Program.SameHeads
import CallFlow.Proofs.Construction.Dispatched
import CallFlow.Proofs.Construction.Embedding
import CallFlow.Proofs.Construction.Accounts
import CallFlow.Proofs.Construction.Reordering
import CallFlow.Proofs.Construction.DeadCode
import CallFlow.Proofs.Construction.Entry
import CallFlow.Proofs.Construction.Statistics
import CallFlow.Proofs.Guarded.Construction
import CallFlow.Proofs.Description.InRange
import CallFlow.Proofs.Guarded.Build
import CallFlow.Proofs.Description.Lookup
import CallFlow.Proofs.Description.Checks
import CallFlow.Proofs.Description.Acceptance
import CallFlow.Proofs.Description.ClassOrder
import CallFlow.Proofs.Json.RecordSpelling
import CallFlow.Proofs.Description.Spelling
import CallFlow.Proofs.Construction.Untracked
import CallFlow.Proofs.Program.Indexes
import CallFlow.Proofs.Hierarchy.Subtypes
import CallFlow.Proofs.Hierarchy.Dispatch
import CallFlow.Graph.Indexed
import CallFlow.Proofs.Graph.Indexes
import CallFlow.Proofs.Program.QualifiedNames
import CallFlow.Proofs.Program.TypeRoundTrip
import CallFlow.Proofs.Hierarchy.EndlessWalks
import CallFlow.Proofs.Description.EndlessFields
import CallFlow.Flow.ParkedTable
import CallFlow.Proofs.Flow.ParkedTable
import CallFlow.Proofs.Construction.Propagation
import CallFlow.Proofs.Construction.Trace
