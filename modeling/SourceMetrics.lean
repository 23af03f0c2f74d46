import SourceMetrics.Analysis
import SourceMetrics.Config.Layers
import SourceMetrics.Graph.Stack
import SourceMetrics.Proofs.ShortestWalk
import SourceMetrics.Real.Binary64
import SourceMetrics.Traversal.Table
import SourceMetrics.Proofs.MatrixReading
import SourceMetrics.Proofs.Visibility
import SourceMetrics.Proofs.Exact
import SourceMetrics.Proofs.BuilderSteps
import SourceMetrics.Proofs.RuleContributions
import SourceMetrics.Proofs.ScopeHistory
import SourceMetrics.Proofs.CoreNodes
import SourceMetrics.Proofs.FullDerivation
import SourceMetrics.Proofs.ProjectFigures
import SourceMetrics.Proofs.OrderIndependence
import SourceMetrics.Proofs.EscapingFaults
import SourceMetrics.Proofs.ConfigReading
import SourceMetrics.Proofs.NestedSettings
import SourceMetrics.Proofs.SourcePriority
import SourceMetrics.Proofs.CountedNodes
import SourceMetrics.Proofs.TreeAddresses
import SourceMetrics.Proofs.TreeWalk
import SourceMetrics.Proofs.CounterTotals
import SourceMetrics.Proofs.Conservation
import SourceMetrics.Proofs.WholeOrder
import SourceMetrics.Proofs.DoubleOrder
import SourceMetrics.Proofs.GraphSymmetry
import SourceMetrics.Proofs.Recomputation
import SourceMetrics.Proofs.AllOrNothing
import SourceMetrics.Proofs.WholeMeans
import SourceMetrics.Proofs.DoubleMeans
import SourceMetrics.Proofs.DoubleWorth
import SourceMetrics.Proofs.MutualVisibility
import SourceMetrics.Proofs.AdjacencyEntries
import SourceMetrics.Proofs.AddedDependencies
import SourceMetrics.Proofs.PathNames
import SourceMetrics.Proofs.RelativeSpecifier
import SourceMetrics.Proofs.Resolution
import SourceMetrics.Proofs.Relocation
import SourceMetrics.Proofs.LentExtension
import SourceMetrics.Proofs.RejectedTokens
import SourceMetrics.Proofs.ExactDerivation
import SourceMetrics.Proofs.ReportedDependencies
import SourceMetrics.Proofs.SafeDerivation
import SourceMetrics.Proofs.RecordedTokens
import SourceMetrics.Proofs.TokenEquality
import SourceMetrics.Proofs.ScopeStack
import SourceMetrics.Proofs.IndexBounds
import SourceMetrics.Proofs.RawReports
import SourceMetrics.Proofs.TraversedIndex
import SourceMetrics.Proofs.CoreBounds
import SourceMetrics.Proofs.SettingPriority
import SourceMetrics.Proofs.OptionOrder
import SourceMetrics.Proofs.NestedOverrides
import SourceMetrics.Proofs.ClosedDistances
import SourceMetrics.Proofs.LengthSums
import SourceMetrics.Proofs.DoubleSums
import SourceMetrics.Proofs.InPlaceRounds
import SourceMetrics.Proofs.CentralMedian
