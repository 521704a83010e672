import OperatorNet.Data.Json.Reader
import OperatorNet.Data.Patch
import OperatorNet.Decimal.Rounded
import OperatorNet.Network.Digest
import OperatorNet.Network.Edit
import OperatorNet.Network.Explain
import OperatorNet.Operator.Elementary
import OperatorNet.Proofs.Bindings.Equivariance
import OperatorNet.Proofs.Bindings.OneUnknown
import OperatorNet.Proofs.Bindings.Termination
import OperatorNet.Proofs.Catalog.Calls
import OperatorNet.Proofs.Catalog.Loading
import OperatorNet.Proofs.Catalog.Permutation
import OperatorNet.Proofs.Cost.LongestPaths
import OperatorNet.Proofs.Cost.Resources
import OperatorNet.Proofs.Dim.Canonical
import OperatorNet.Proofs.Network.Edits
import OperatorNet.Proofs.Network.Exchange
import OperatorNet.Proofs.Network.Freshness
import OperatorNet.Proofs.Network.Inputs
import OperatorNet.Proofs.Network.Joining
import OperatorNet.Proofs.Network.Matching
import OperatorNet.Proofs.Network.Meaning
import OperatorNet.Proofs.Network.Recheck
import OperatorNet.Proofs.Network.Soundness
import OperatorNet.Proofs.Network.TopologicalOrder
import OperatorNet.Proofs.Network.Validation
import OperatorNet.Proofs.Objective
import OperatorNet.Proofs.Search.Chains
import OperatorNet.Proofs.Search.Contract
import OperatorNet.Proofs.Search.CostGradient
import OperatorNet.Proofs.Search.Exclusion
import OperatorNet.Proofs.Search.Failure
import OperatorNet.Proofs.Search.Infeasible
import OperatorNet.Proofs.Search.LeastSwap
import OperatorNet.Proofs.Search.Lines
import OperatorNet.Proofs.Search.Relaxation.History
import OperatorNet.Proofs.Search.Relaxation.Widths
import OperatorNet.Search.Report
