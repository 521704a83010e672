import Mathlib.Algebra.BigOperators.Ring.List
import Mathlib.Tactic.Ring
import OperatorNet.Proofs.Search.CostlyPaths

/-!
# Gradients of expected costs

In a metric that is added up, an exit is charged for each position on which it depends once
(`Supergraph.ancestors_eq_ok`), whether that position is another exit or not. So other weights at
one position change the cost of exactly the routes that charge it (`meanTotals_reweighed`), and the
expected cost by as much as the gradient says; in the weights of the routes the expected cost is
linear anyway (`Supergraph.costGradient_exact`).
-/

namespace OperatorNet

open Scalar

variable {α : Type} [Scalar α]

/-- The mixture with other weights at one position. -/
def Mixture.reweighed (m : Mixture α) (id : Int) (w : List α) : Mixture α :=
  { m with weights := Function.update m.weights id w }

/-- The mixture with other weights of the exits. -/
def Mixture.rerouted (m : Mixture α) (route : List α) : Mixture α :=
  { m with route }

variable {s : Supergraph α} {m m' : Mixture α} {p : Position α} {metric : String}
    {kinds : MetricKinds} {w : List α} {charged : List (List Int)} {ids : List Int} {n : Int}

/-! ### Mixtures that are served -/

omit [Scalar α] in
/-- A position that is given weights has them. -/
lemma Mixture.weights_reweighed (m : Mixture α) (id : Int) (w : List α) :
    (m.reweighed id w).weights id = w :=
  Function.update_self ..

omit [Scalar α] in
/-- The other positions keep their weights. -/
lemma Mixture.weights_reweighed_of_ne (m : Mixture α) {id n : Int} (w : List α) (other : n ≠ id) :
    (m.reweighed id w).weights n = m.weights n :=
  Function.update_of_ne other ..

/-- The routes of a mixture are checked by their number. -/
lemma routes_of_routes (done : s.routes m = .ok m.route) : s.routes m' = .ok m'.route := by
  simp only [Supergraph.routes, bind_eq_ok] at done ⊢
  obtain ⟨u, checked, done⟩ := done
  split at done
  · cases done
  next row => exact ⟨u, checked, if_neg row⟩

/-- A mixture serves a network with other routes too. -/
lemma Mixture.Serves.rerouted (serves : m.Serves s) (route : List α) :
    (m.rerouted route).Serves s where
  positions := serves.positions
  exits := routes_of_routes serves.exits

/-- A mixture serves a network with as many other weights too. -/
lemma Mixture.Serves.reweighed (serves : m.Serves s) (distinct : s.ids.Nodup)
    (mem : p ∈ s.positions) (length : w.length = p.mixing.length) :
    (m.reweighed p.id w).Serves s where
  positions q hq := by
    have weighs := serves.positions q hq
    rw [Mixture.Weighs] at weighs ⊢
    split at weighs
    next frozen => rwa [if_pos frozen]
    next mixes =>
      rw [if_neg mixes]
      by_cases same : q.id = p.id
      · obtain rfl : q = p := List.inj_on_of_nodup_map distinct hq mem same
        exact ⟨weighs.1, by rw [m.weights_reweighed, length]⟩
      · rwa [m.weights_reweighed_of_ne w same]
  exits := routes_of_routes serves.exits

/-! ### Costs -/

/-- Ids without a position have no mean cost. -/
lemma fetch_meanCosts_eq_none (absent : n ∉ s.ids) : fetch n (s.meanCosts m metric) = none := by
  refine fetch_eq_none ?_
  rw [Supergraph.meanCosts, List.map_map]
  exact absent

/-- The gradient at a position is the cost of each candidate, as often as the position is
charged. -/
lemma Supergraph.fetch_positions_meanGradient (distinct : s.ids.Nodup) (mem : p ∈ s.positions)
    (mixes : p.isFrozen = false) :
    fetch p.id (s.meanGradient m metric charged).positions =
      some
        ((Supergraph.candidateCosts metric p).map (Supergraph.usage charged m.route p.id * ·)) := by
  refine fetch_of_mem ?_ (List.mem_map.2 ⟨p, List.mem_filter.2 ⟨mem, by rw [mixes]; rfl⟩, rfl⟩)
  have keys : ((s.meanGradient m metric charged).positions.map Prod.fst).Sublist s.ids := by
    rw [Supergraph.meanGradient, List.map_map]
    exact List.filter_sublist.map _
  exact distinct.sublist keys

section Exact

variable [Commutative α] [Subtractive α]

attribute [local instance] commRing

/-- Other weights at a position change what it costs, and nothing else. -/
lemma fetch_meanCosts_reweighed (distinct : s.ids.Nodup) (mem : p ∈ s.positions)
    (mixes : p.isFrozen = false) (length : w.length = (m.weights p.id).length) (n : Int) :
    (fetch n (s.meanCosts (m.reweighed p.id w) metric)).getD 0 =
      (fetch n (s.meanCosts m metric)).getD 0 +
      if n = p.id then dot (List.zipWith (· - ·) w (m.weights p.id))
        (Supergraph.candidateCosts metric p)
      else 0 := by
  by_cases there : n ∈ s.ids
  case neg =>
    have other : n ≠ p.id := fun same => there (same ▸ List.mem_map_of_mem mem)
    rw [fetch_meanCosts_eq_none there, fetch_meanCosts_eq_none there, if_neg other, add_zero]
  obtain ⟨q, hq, rfl⟩ := List.mem_map.1 there
  have found : s.find? q.id = some q := (Supergraph.find?_eq_some_iff distinct).2 ⟨hq, rfl⟩
  rw [fetch_meanCosts distinct found, fetch_meanCosts distinct found, Option.getD_some,
    Option.getD_some]
  split
  next same =>
    obtain rfl : q = p := List.inj_on_of_nodup_map distinct hq mem same
    rw [meanCost_of_mixes mixes, meanCost_of_mixes mixes, m.weights_reweighed, ← dot_sub_dot length]
    ring
  next other =>
    rw [add_zero, Mixture.meanCost, Mixture.meanCost, Mixture.picks, Mixture.picks,
      m.weights_reweighed_of_ne w other]

/-- Other weights at a position change what the routes cost that charge it. -/
lemma meanTotals_reweighed (distinct : s.ids.Nodup) (each : ∀ ids ∈ charged, ids.Nodup)
    (mem : p ∈ s.positions) (mixes : p.isFrozen = false)
    (length : w.length = (m.weights p.id).length) :
    s.meanTotals (m.reweighed p.id w) metric charged = charged.map fun ids =>
      sum (ids.map fun n => (fetch n (s.meanCosts m metric)).getD 0) + if ids.contains p.id then
        dot (List.zipWith (· - ·) w (m.weights p.id)) (Supergraph.candidateCosts metric p)
          else 0 := by
  refine List.map_congr_left fun ids hids => ?_
  have once := sum_map_ite (each ids hids) p.id
    (dot (List.zipWith (· - ·) w (m.weights p.id)) (Supergraph.candidateCosts metric p))
  simp only [fetch_meanCosts_reweighed distinct mem mixes length, List.contains_iff_mem,
    ← once, sum_eq, List.sum_map_add]

/-! ### Sums over routes -/

omit [Subtractive α] in
/-- The product of the routes with values adds up what each route weighs. -/
lemma dot_map (route : List α) (charged : List (List Int)) (f : List Int → α) :
    dot route (charged.map f) = ((route.zip charged).map fun q => q.1 * f q.2).sum := by
  rw [dot, sum_eq, List.zipWith_map_right, List.zip, List.map_zipWith]

/-- A factor can be taken out of a product. -/
lemma dot_map_mul_left (c : α) (xs ys : List α) : dot (xs.map (c * ·)) ys = c * dot xs ys := by
  have products : List.zipWith (· * ·) (xs.map (c * ·)) ys =
      (List.zipWith (· * ·) xs ys).map (c * ·) := by
    simp only [List.zipWith_map_left, List.map_zipWith, mul_assoc]
  rw [dot, dot, products, sum_eq, sum_eq, List.sum_map_mul_left, List.map_id']

omit [Subtractive α] in
/-- A position is charged by the weights of the routes that use it. -/
lemma usage_eq (charged : List (List Int)) (route : List α) (id : Int) :
    Supergraph.usage charged route id =
    ((route.zip charged).map fun q => if q.2.contains id then q.1 else 0).sum := by
  have rest : ∀ q ∈ route.zip charged, q.2.contains id = false →
      (if q.2.contains id then q.1 else 0) = 0 :=
    fun q _ absent => if_neg (by rw [absent]; exact Bool.false_ne_true)
  rw [Supergraph.usage, ← sum_eq, ← sum_filter rest]
  refine congrArg sum (List.map_congr_left fun q mem => ?_)
  exact (if_pos (List.mem_filter.1 mem).2).symm

/-- What is added to the routes that charge a position counts with its usage. -/
lemma dot_map_add (route : List α) (f : List Int → α) (id : Int) (d : α) :
    dot route (charged.map fun ids => f ids + if ids.contains id then d else 0) =
      dot route (charged.map f) + Supergraph.usage charged route id * d := by
  have split : ∀ q : α × List Int, q.1 * (f q.2 + if q.2.contains id then d else 0) =
      q.1 * f q.2 + (if q.2.contains id then q.1 else 0) * d := by
    intro q
    split <;> ring
  rw [dot_map, dot_map, usage_eq, ← List.sum_map_mul_right, ← List.sum_map_add]
  simp only [split]

/-! ### Gradients -/

/-- Other weights at a position change the expected cost as its gradient there says. -/
lemma sub_value_meanGradient (distinct : s.ids.Nodup) (each : ∀ ids ∈ charged, ids.Nodup)
    (mem : p ∈ s.positions) (mixes : p.isFrozen = false)
    (length : w.length = (m.weights p.id).length) :
    (s.meanGradient (m.reweighed p.id w) metric charged).value -
      (s.meanGradient m metric charged).value =
      dot ((Supergraph.candidateCosts metric p).map (Supergraph.usage charged m.route p.id * ·))
        (List.zipWith (· - ·) w (m.weights p.id)) := by
  have more : (s.meanGradient (m.reweighed p.id w) metric charged).value =
      (s.meanGradient m metric charged).value + Supergraph.usage charged m.route p.id *
        dot (List.zipWith (· - ·) w (m.weights p.id)) (Supergraph.candidateCosts metric p) := by
    rw [Supergraph.meanGradient, Supergraph.meanGradient,
      meanTotals_reweighed distinct each mem mixes length]
    exact dot_map_add m.route _ p.id _
  rw [more, dot_map_mul_left, dot_comm (Supergraph.candidateCosts metric p)]
  ring

end Exact

/-- The gradient of an expected cost that is added up is exact: in exact arithmetic other weights at
a position where candidates mix, or other weights of the exits, change the cost by the sum of the
products of the gradient and of what is added to the weights. There is a gradient where the
supergraph can be decoded. -/
theorem Supergraph.costGradient_exact [Commutative α] [Subtractive α] (distinct : s.ids.Nodup)
    (additive : metricKind metric kinds = .ok .additive) :
    (s.Decodable → m.Fits s → ∃ g, s.costGradient m metric kinds = .ok g) ∧
    ∀ g, s.costGradient m metric kinds = .ok g →
      (∀ p ∈ s.positions, p.isFrozen = false →
        ∃ slope, fetch p.id g.positions = some slope ∧ slope.length = p.mixing.length ∧
          ∀ w, w.length = p.mixing.length →
            ∃ g', s.costGradient (m.reweighed p.id w) metric kinds = .ok g' ∧
              g'.value - g.value = dot slope (List.zipWith (· - ·) w (m.weights p.id))) ∧
      ∀ route, route.length = s.exits.length →
        ∃ g', s.costGradient (m.rerouted route) metric kinds = .ok g' ∧
          g'.value - g.value = dot g.route (List.zipWith (· - ·) route m.route) := by
  constructor
  case left =>
    intro decodable fits
    obtain ⟨charged, charges, lengths⟩ := decodable.exists_ancestors_exits
    exact ⟨_, (costGradient_eq_ok additive nofun).2
      ⟨fits.serves decodable, charged, charges, fits.route.trans lengths, rfl⟩⟩
  case right =>
    intro g done
    obtain ⟨serves, charged, charges, lengths, rfl⟩ := (costGradient_eq_ok additive nofun).1 done
    have exits : s.exits.length = charged.length := (mapM_eq_ok.1 charges).length_eq
    constructor
    · intro p mem mixes
      have weighs := serves.positions p mem
      rw [Mixture.Weighs, if_neg (by rw [mixes]; exact Bool.false_ne_true)] at weighs
      -- no position is charged twice on one route
      have each : ∀ ids ∈ charged, ids.Nodup := by
        intro ids hids
        obtain ⟨e, -, listed⟩ := exists_of_mem_forall₂ (mapM_eq_ok.1 charges) hids
        exact (ancestors_eq_ok distinct listed).1.imp fun less => Int.ne_of_lt less
      refine ⟨_, fetch_positions_meanGradient distinct mem mixes, ?_,
        fun w length => ⟨s.meanGradient (m.reweighed p.id w) metric charged, ?_, ?_⟩⟩
      · rw [List.length_map, candidateCosts, List.length_map]
      · exact (costGradient_eq_ok additive nofun).2
          ⟨serves.reweighed distinct mem length, charged, charges, lengths, rfl⟩
      · exact sub_value_meanGradient distinct each mem mixes (length.trans weighs.2.symm)
    · intro route length
      have same : route.length = m.route.length := (length.trans exits).trans lengths.symm
      refine ⟨s.meanGradient (m.rerouted route) metric charged,
        (costGradient_eq_ok additive nofun).2
        ⟨serves.rerouted route, charged, charges, length.trans exits, rfl⟩, ?_⟩
      exact (dot_sub_dot same).trans (dot_comm _ _)

open Supergraph.Sample Decoder.Sample in
/-- The second exit reads the first, so the candidates of the first are charged for both. -/
theorem Supergraph.costGradient_exact_chain :
    chain.ids.Nodup ∧ metricKind "cost" .none = .ok .additive ∧ chain.Decodable ∧
      (weighing (3 / 4) (1 / 2)).Fits chain ∧
      ∃ g, chain.costGradient (weighing (3 / 4) (1 / 2)) "cost" .none = .ok g ∧
        (g.value, g.positions, g.route) = (6, [(0, [2, 4])], [7 / 2, 17 / 2]) ∧
        (∀ w, w.length = 2 → ∃ g',
          chain.costGradient ((weighing (3 / 4) (1 / 2)).reweighed 0 w) "cost" .none = .ok g' ∧
            g'.value - g.value = dot [2, 4] (List.zipWith (· - ·) w [1 - 3 / 4, 3 / 4])) ∧
        ∀ route, route.length = 2 → ∃ g',
          chain.costGradient ((weighing (3 / 4) (1 / 2)).rerouted route) "cost" .none = .ok g' ∧
            g'.value - g.value =
              dot [7 / 2, 17 / 2] (List.zipWith (· - ·) route [1 - 1 / 2, 1 / 2]) := by
  have := subtractive_ofField elementary
  have decodable := (decodable_build build_chain).1
  have fits := fits_weighing (3 / 4) (1 / 2)
  have additive : metricKind "cost" .none = .ok .additive := rfl
  obtain ⟨total, linear⟩ :=
    costGradient_exact (m := weighing (3 / 4) (1 / 2)) decodable.nodup additive
  obtain ⟨g, done⟩ := total decodable fits
  have values : (chain.costGradient (weighing (3 / 4) (1 / 2)) "cost" .none).toOption.map
      (fun g => (g.value, g.positions, g.route)) = some (6, [(0, [2, 4])], [7 / 2, 17 / 2]) := by
    decide +kernel
  rw [done] at values
  have values := Option.some.inj values
  obtain ⟨-, positions, route⟩ : g.value = 6 ∧ g.positions = [(0, [2, 4])] ∧
      g.route = [7 / 2, 17 / 2] := by
    simpa only [Prod.mk.injEq] using values
  obtain ⟨node, routes⟩ := linear g done
  obtain ⟨slope, found, -, weights⟩ := node _ (List.mem_cons_self ..) rfl
  rw [positions] at found
  obtain rfl : [2, 4] = slope := Option.some.inj found
  exact ⟨decodable.nodup, additive, decodable, fits, g, done, values, weights, route ▸ routes⟩

end OperatorNet
