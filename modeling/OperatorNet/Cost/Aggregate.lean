import OperatorNet.Cost.Metric
import OperatorNet.Network.Order

/-!
# Prices of networks

A metric is aggregated over the live nodes of a network in order. Costs are added up over the nodes,
or along the most expensive path; Lipschitz bounds are multiplied along paths, the largest one
counts where paths meet, and a node without a bound makes everything behind it unknown.
-/

namespace OperatorNet.Network

variable {α : Type} [Scalar α]

/-- The largest of the numbers of the given nodes, or `start` if there are none. -/
def largestOf (values : List (Int × α)) (start : α) (ids : List Int) : α :=
  match ids.filterMap fun s => fetch s values with
  | [] => start
  | x :: xs => Scalar.maximum x xs

/-- The cost of the most expensive path to every node. -/
def pathCosts (metric : String) (nodes : List (Node α)) : List (Int × α) :=
  nodes.foldl (fun done n =>
    let x := if n.isInput then 0 else largestOf done 0 n.sources + n.costOf metric
    done ++ [(n.id, x)]) []

/-- The Lipschitz bound of a node behind nodes with known or unknown bounds. -/
def boundOf (done : List (Int × Price α)) (n : Node α) : Except Fault (Price α) :=
  match n.operator with
  | none => .ok (.known 1)
  | some op => do
    let incoming := n.sources.filterMap fun s => fetch s done
    match ← op.lipschitz n.overrides, incoming.mapM Price.value? with
    | some own, some [] => return .known (own * 1)
    | some own, some (x :: xs) => return .known (own * Scalar.maximum x xs)
    | _, _ => return .unknown

/-- The Lipschitz bounds of nodes from left to right. -/
def pathBounds (done : List (Int × Price α)) :
    List (Node α) → Except Fault (List (Int × Price α))
  | [] => .ok done
  | n :: rest => do
    let x ← boundOf done n
    pathBounds (done ++ [(n.id, x)]) rest

/-- The price of a network in a metric. -/
def aggregate (g : Network α) (metric : String) (kinds : MetricKinds) :
    Except Fault (Price α) := do
  let kind ← metricKind metric kinds
  let nodes ← g.liveOrder
  let out := (← g.output).id
  match kind with
  | .additive =>
    return .known (Scalar.sum ((nodes.filter fun n => !n.isInput).map (·.costOf metric)))
  | .criticalPath => return .known ((fetch out (pathCosts metric nodes)).getD 0)
  | .lipschitz => return (fetch out (← pathBounds [] nodes)).getD .unknown

/-- The prices of a network in several metrics. -/
def aggregateAll (g : Network α) (metrics : List String) (kinds : MetricKinds) :
    Except Fault (Prices α) :=
  (Table.ofList (metrics.map fun m => (m, ()))).entries.mapM fun p => do
    return (p.1, ← g.aggregate p.1 kinds)

end OperatorNet.Network
