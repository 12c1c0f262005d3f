import OpGraph.Decimal.Read
import OpGraph.Main
import OpGraph.Proofs.Network.Aborts
import OpGraph.Proofs.Network.Carryover
import OpGraph.Proofs.Network.Dataflow
import OpGraph.Proofs.Network.Interludes
import OpGraph.Proofs.Network.Registered
import OpGraph.Text.Identifier
import OpGraph.Proofs.Network.Settling
import OpGraph.Proofs.Workspace
import OpGraph.Proofs.Network.Accounting
import OpGraph.Proofs.Network.Outputs
import OpGraph.Proofs.Sandbox.Frame
import OpGraph.Proofs.WeightScales
import OpGraph.Proofs.Recorded
import OpGraph.Proofs.References
import OpGraph.Proofs.Kernel
import OpGraph.Proofs.Network.Runnable
import OpGraph.Proofs.Sandbox.Contraction
import OpGraph.Proofs.Fusion.NormalForm
import OpGraph.Proofs.Fusion.Mergeable
import OpGraph.Proofs.Network.Acceptance
import OpGraph.Proofs.Network.LayoutsFirst
import OpGraph.Proofs.Levels
import OpGraph.Proofs.Network.Exposure
import OpGraph.Proofs.Digraph.Calls
import OpGraph.Proofs.Calibration.Order
import OpGraph.Proofs.Graph.Calls
import OpGraph.Proofs.Building
import OpGraph.Proofs.Weights.Size
import OpGraph.Proofs.Kernel.Types
import OpGraph.Proofs.Sandbox.Seats
import OpGraph.Proofs.Network.Aliases
import OpGraph.Proofs.Digraph.Search
