import Reposcout.Properties.Dup.ExactSoundness
import Reposcout.Properties.Dup.FuzzySoundness
import Reposcout.Properties.Findings.Completeness
import Reposcout.Properties.Graph.ReachAgreement
import Reposcout.Properties.Context.Plan
import Reposcout.Properties.Query.Plan
import Reposcout.Properties.Query.Source.Admission
import Reposcout.Properties.Git.Transparency
import Reposcout.Properties.Graph.PathAttributes
import Reposcout.Properties.Graph.Calls.RustPaths
import Reposcout.Properties.Scan.Aggregate
import Reposcout.Properties.Report.ReviewContext.Brief.Commands
import Reposcout.Properties.Report.ReviewContext.Brief.Evidence
import Reposcout.Properties.Report.ReviewContext.Brief.Entries
import Reposcout.Properties.Query.ReviewContext.Brief.EntryChains
import Reposcout.Properties.Query.ReviewContext.Brief.Parse
import Reposcout.Properties.Query.ReviewContext.Brief.Moves
import Reposcout.Properties.Graph.Calls.Truncation
import Reposcout.Properties.Graph.Calls.Exports
import Reposcout.Properties.Findings.Renames
import Reposcout.Properties.Review.Checkout
import Reposcout.Properties.Review.Completeness
import Reposcout.Properties.Review.Attribution
import Reposcout.Properties.Report.AgentSummary
import Reposcout.Properties.Graph.Godot
import Reposcout.Properties.Graph.TsConfigs
import Reposcout.Properties.Graph.Imports
import Reposcout.Properties.Graph.SymbolTopology
import Reposcout.Properties.Metrics.Planning
import Reposcout.Properties.Metrics.CfgPredicates
import Reposcout.Properties.Metrics.Lines
import Reposcout.Properties.Metrics.MarkerIdentities
import Reposcout.Properties.Scan.CacheTransparency
import Reposcout.Properties.ChangeSummary
import Reposcout.Properties.Metrics.Complexity.Cases
import Reposcout.Properties.Metrics.Complexity.Edits
import Reposcout.Properties.WorkScope
import Reposcout.Properties.Daemon
import Reposcout.Properties.Daemon.RequestPolicy
import Reposcout.Properties.TaskDiagnostics.Text
import Reposcout.Properties.Web.GraphData
import Reposcout.Properties.Web.TypeNeighborhood
import Reposcout.Properties.Web.ExplorerView
import Reposcout.Properties.TaskDiagnostics.Containment
import Reposcout.Properties.Dup.Suppression
import Reposcout.Properties.Dup.ExactCompleteness
import Reposcout.Properties.Dup.RenameInvariance
import Reposcout.Properties.Scan.Duplicates
import Reposcout.Properties.Graph.Cycles
import Reposcout.Properties.Graph.Projection
import Reposcout.Properties.Query.ChangedMapping
import Reposcout.Properties.Query.Find
import Reposcout.Properties.Query.Consumers
