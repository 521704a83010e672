import OperatorNet.Search.Relaxation.Basic

/-!
# Penalties

What a mixture has to pay for an expected cost above the limit of the budget: the excess relative to
the limit, times a weight. Lipschitz bounds are only reported.
-/

namespace OperatorNet

/-- A penalty, its gradients in the logits, and the expected prices that it was made of. -/
structure Penalty (α : Type) where
  value : α
  logits : List (Int × List α)
  route : List α
  prices : Prices α

namespace Relaxation

variable {α : Type} [Scalar α]

/-- A penalty with gradients in the weights, as far as it has been added up. -/
structure Excess (α : Type) where
  value : α
  positions : List (Int × List α)
  route : List α
  prices : Prices α

/-- Adds gradients of positions to those that are there. -/
def addGradients (acc : List (Int × List α)) (new : List (Int × List α)) : List (Int × List α) :=
  new.foldl (fun acc q =>
    put q.1 (match fetch q.1 acc with
      | some old => List.zipWith (· + ·) old q.2
      | none => q.2) acc) acc

/-- Adds the excess over the limit of one metric. -/
def addExcess (r : Relaxation α) (m : Mixture α) (acc : Excess α) (metric : String) :
    Except Fault (Excess α) := do
  let kinds := r.settings.metricKinds
  if (← metricKind metric kinds) = .lipschitz then
    return { acc with
      prices := acc.prices ++ [(metric, ← r.graph.expectedPrice m metric kinds)] }
  let g ← r.graph.costGradient m metric kinds
  let acc := { acc with prices := acc.prices ++ [(metric, .known g.value)] }
  let limit ← r.budget.limit metric
  if g.value ≤ limit then return acc
  let weight ← r.settings.penalty
  let rate := weight / limit
  return { acc with
    value := acc.value + weight * (g.value - limit) / limit
    positions := addGradients acc.positions (g.positions.map fun q => (q.1, q.2.map (rate * ·)))
    route := List.zipWith (fun a b => a + rate * b) acc.route g.route }

/-- The penalty of a mixture. -/
def penalty (r : Relaxation α) (m : Mixture α) : Except Fault (Penalty α) := do
  let start : Excess α :=
    { value := 0, positions := [], route := r.graph.exits.map fun _ => 0, prices := [] }
  let e ← r.budget.metrics.foldlM (r.addExcess m) start
  r.graph.checkRoutes
  r.graph.routeLogits.checkRow e.route.length
  let heat ← r.heat
  return {
    value := e.value
    logits := e.positions.map fun q => (q.1, softmaxPullback heat (m.weights q.1) q.2)
    route := softmaxPullback heat m.route e.route
    prices := e.prices }

end Relaxation

end OperatorNet
