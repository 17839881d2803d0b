import NetworkFlow.Circulation
import NetworkFlow.Cut
import NetworkFlow.Demand
import NetworkFlow.Description
import NetworkFlow.Drawing
import NetworkFlow.DrawnGraph
import NetworkFlow.Edge
import NetworkFlow.Event
import NetworkFlow.Fault
import NetworkFlow.Finder
import NetworkFlow.FlowPath
import NetworkFlow.Json.Basic
import NetworkFlow.Json.Reader
import NetworkFlow.Json.Shape
import NetworkFlow.Json.Writer
import NetworkFlow.LowerBound
import NetworkFlow.Main
import NetworkFlow.Matching
import NetworkFlow.MaxFlow
import NetworkFlow.Message
import NetworkFlow.Network
import NetworkFlow.Network.WellFormed
import NetworkFlow.Number.Basic
import NetworkFlow.Number.Binary64
import NetworkFlow.Number.Decimal
import NetworkFlow.Number.Numeral
import NetworkFlow.Number.Rounding
import NetworkFlow.Options
import NetworkFlow.Pool
import NetworkFlow.Position
import NetworkFlow.Problem
import NetworkFlow.Proofs.Arithmetic.Counting
import NetworkFlow.Proofs.Arithmetic.ExactQuantity
import NetworkFlow.Proofs.Arithmetic.Finite
import NetworkFlow.Proofs.Arithmetic.Least
import NetworkFlow.Proofs.Arithmetic.Number
import NetworkFlow.Proofs.Arithmetic.Rounding
import NetworkFlow.Proofs.Arithmetic.Tolerance
import NetworkFlow.Proofs.Circulation.Agreement
import NetworkFlow.Proofs.Circulation.Balanced
import NetworkFlow.Proofs.Circulation.Completeness
import NetworkFlow.Proofs.Circulation.DemandVector
import NetworkFlow.Proofs.Circulation.Equivalence
import NetworkFlow.Proofs.Circulation.Folding
import NetworkFlow.Proofs.Circulation.Prepared
import NetworkFlow.Proofs.Circulation.ReducedNetwork
import NetworkFlow.Proofs.Circulation.Reduction
import NetworkFlow.Proofs.Circulation.Refolding
import NetworkFlow.Proofs.Circulation.Shortfall
import NetworkFlow.Proofs.Circulation.Solve
import NetworkFlow.Proofs.Circulation.SolvedReduction
import NetworkFlow.Proofs.Circulation.Soundness
import NetworkFlow.Proofs.Circulation.Unfolding
import NetworkFlow.Proofs.Circulation.Violation
import NetworkFlow.Proofs.Circulation.WiredFlow
import NetworkFlow.Proofs.Circulation.Wiring
import NetworkFlow.Proofs.Drawing.Bundle
import NetworkFlow.Proofs.Drawing.CutArrows
import NetworkFlow.Proofs.Drawing.FilledCut
import NetworkFlow.Proofs.Drawing.Merging
import NetworkFlow.Proofs.Drawing.NodeNames
import NetworkFlow.Proofs.Drawing.Sketching
import NetworkFlow.Proofs.Drawing.Widths
import NetworkFlow.Proofs.Flow.Balance
import NetworkFlow.Proofs.Flow.CarryingPath
import NetworkFlow.Proofs.Flow.Conservation
import NetworkFlow.Proofs.Flow.Feasibility
import NetworkFlow.Proofs.Flow.LeastCut
import NetworkFlow.Proofs.Flow.MinCut
import NetworkFlow.Proofs.Flow.Unbounded
import NetworkFlow.Proofs.Flow.Validity
import NetworkFlow.Proofs.Matching.Cover
import NetworkFlow.Proofs.Matching.Maximum
import NetworkFlow.Proofs.Matching.Pairing
import NetworkFlow.Proofs.Matching.Wiring
import NetworkFlow.Proofs.MaxFlow.CanonicalCut
import NetworkFlow.Proofs.MaxFlow.DualityGap
import NetworkFlow.Proofs.MaxFlow.ExtractedPath
import NetworkFlow.Proofs.MaxFlow.Finished
import NetworkFlow.Proofs.MaxFlow.FlowsOnly
import NetworkFlow.Proofs.MaxFlow.Optimality
import NetworkFlow.Proofs.MaxFlow.Outline
import NetworkFlow.Proofs.MaxFlow.PathLengths
import NetworkFlow.Proofs.MaxFlow.Record
import NetworkFlow.Proofs.MaxFlow.Resume
import NetworkFlow.Proofs.MaxFlow.Run
import NetworkFlow.Proofs.MaxFlow.Stages
import NetworkFlow.Proofs.MaxFlow.Termination
import NetworkFlow.Proofs.MaxFlow.UnitCapacity
import NetworkFlow.Proofs.MaxFlow.WarmStart
import NetworkFlow.Proofs.Network.Assembled
import NetworkFlow.Proofs.Network.Bounds
import NetworkFlow.Proofs.Network.Growth
import NetworkFlow.Proofs.Network.Incidence
import NetworkFlow.Proofs.Network.Integral
import NetworkFlow.Proofs.Network.StandsFor
import NetworkFlow.Proofs.Pool.Bounds
import NetworkFlow.Proofs.Pool.Clone
import NetworkFlow.Proofs.Pool.Consistency
import NetworkFlow.Proofs.Pool.Copying
import NetworkFlow.Proofs.Pool.History
import NetworkFlow.Proofs.Pool.Insertion
import NetworkFlow.Proofs.Pool.Representation
import NetworkFlow.Proofs.Pool.Revision
import NetworkFlow.Proofs.Pool.Separation
import NetworkFlow.Proofs.Problem.Build
import NetworkFlow.Proofs.Problem.Load
import NetworkFlow.Proofs.Residual.Arc
import NetworkFlow.Proofs.Residual.Augmentation
import NetworkFlow.Proofs.Residual.Bound
import NetworkFlow.Proofs.Residual.Depth
import NetworkFlow.Proofs.Residual.PathWalks
import NetworkFlow.Proofs.Residual.Push
import NetworkFlow.Proofs.Residual.Reachability
import NetworkFlow.Proofs.Residual.ShortestPaths
import NetworkFlow.Proofs.Search.BreadthFirst
import NetworkFlow.Proofs.Search.FaultFree
import NetworkFlow.Proofs.Search.PartialTree
import NetworkFlow.Proofs.Search.TreePath
import NetworkFlow.Proofs.Search.Walk
import NetworkFlow.Proofs.Summary.CutNames
import NetworkFlow.Proofs.Summary.Naming
import NetworkFlow.Proofs.Summary.ReadBack
import NetworkFlow.Proofs.Workspace.Search
import NetworkFlow.Quantity
import NetworkFlow.Samples
import NetworkFlow.Search
import NetworkFlow.Solving
import NetworkFlow.Summary
import NetworkFlow.Table
import NetworkFlow.Text.Basic
import NetworkFlow.Text.Blank
import NetworkFlow.Text.Digit
import NetworkFlow.Text.Encoding
import NetworkFlow.Text.Printable
import NetworkFlow.Text.Quoted
import NetworkFlow.Validation
import NetworkFlow.Workspace
