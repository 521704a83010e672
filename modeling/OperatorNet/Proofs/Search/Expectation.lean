import OperatorNet.Proofs.Scalar.Sums
import OperatorNet.Proofs.Search.Relaxation.Vertices
import OperatorNet.Search.ExpectedCost

/-!
# Draws of a mixture

A draw takes an exit, and at each position on which the exit depends one of the operators that the
mixture may take there: a candidate that mixes, with its weight, or the first fixed operator where
nothing mixes (`Supergraph.draws`). Where the weights of each position have the sum one, the
expected cost of a mixture in a metric that is added up is the mean of the costs of its draws
(`expectedPrice_additive`). What it is, and which mixtures have one, is said by
`costGradient_eq_ok`.
-/

namespace OperatorNet

variable {α : Type} [Scalar α]

/-- An operator that a mixture may take at a position. -/
structure Pick (α : Type) where
  position : Int
  operator : Operator α
  weight : α

/-- An exit, with a pick for each position on which it depends. -/
structure Draw (α : Type) where
  exit : Int
  route : α
  picks : List (Pick α)

/-- What a mixture may take at a position. -/
def Mixture.picks (m : Mixture α) (p : Position α) : List (Pick α) :=
  if p.isFrozen then (p.fixed.take 1).map fun op => ⟨p.id, op, 1⟩
  else (p.mixing.zip (m.weights p.id)).map fun q => ⟨p.id, q.1, q.2⟩

namespace Draw

/-- The selection of a draw. -/
def selection (x : Draw α) : Selection :=
  ⟨some (.id x.exit), x.picks.map fun a => (.id a.position, .text a.operator.name)⟩

/-- The product of the weights of a draw. -/
def weight (x : Draw α) : α :=
  x.route * (x.picks.map (·.weight)).prod

/-- The sum of the costs of the operators of a draw. -/
def cost (metric : String) (x : Draw α) : α :=
  Scalar.sum (x.picks.map (·.operator.costOf metric))

end Draw

namespace Supergraph

/-- All draws that take a certain exit. -/
def drawsAt (s : Supergraph α) (m : Mixture α) (e : Int) (r : α) : List (Draw α) :=
  match s.ancestors e with
  | .ok ids =>
    (ids.map fun id => ((s.find? id).map m.picks).getD []).sections.map fun picks => ⟨e, r, picks⟩
  | .error _ => []

/-- All draws of a mixture. -/
def draws (s : Supergraph α) (m : Mixture α) : List (Draw α) :=
  (s.exits.zip m.route).flatMap fun q => s.drawsAt m q.1 q.2

end Supergraph

/-- A mixture with a weight for each candidate that mixes and for each exit. -/
structure Mixture.Fits (m : Mixture α) (s : Supergraph α) : Prop where
  weights : ∀ p ∈ s.positions, p.isFrozen = false → (m.weights p.id).length = p.mixing.length
  route : m.route.length = s.exits.length

/-- The weights of the candidates of each position have the sum one. -/
def Mixture.Normal (m : Mixture α) (s : Supergraph α) : Prop :=
  ∀ p ∈ s.positions, p.isFrozen = false → Scalar.sum (m.weights p.id) = 1

/-- What the operators that may be taken at a position cost on average. -/
def Mixture.meanCost (m : Mixture α) (metric : String) (p : Position α) : α :=
  Scalar.sum ((m.picks p).map fun a => a.weight * a.operator.costOf metric)

variable {s : Supergraph α} {m : Mixture α} {p : Position α} {metric : String} {kinds : MetricKinds}
  {e id : Int} {ids : List Int}

namespace Supergraph

omit [Scalar α] in
/-- What an id of a rooted network depends on can be listed. -/
lemma Rooted.exists_ancestors (rooted : s.Rooted) (mem : e ∈ s.ids) :
    ∃ ids, s.ancestors e = .ok ids := by
  have known : ∀ r ∈ [Ref.id e], ∃ n, Known s.ids r n :=
    List.forall_mem_singleton.2 ⟨e, rfl, mem⟩
  have closed : ∀ n ∈ s.ids, ∀ r ∈ s.sources n, ∃ k, Known s.ids r k := by
    intro n hn r read
    obtain ⟨p, hp, rfl⟩ := List.mem_map.1 hn
    rw [sources, (find?_eq_some_iff rooted.nodup).2 ⟨hp, rfl⟩] at read
    obtain ⟨k, hk, rfl⟩ := List.mem_map.1 read
    obtain ⟨source, hs, rfl⟩ := List.mem_filterMap.1 hk
    obtain ⟨q, hq, rfl, -⟩ := rooted.closed.earlier p hp _ hs
    exact ⟨q.id, rfl, List.mem_map_of_mem hq⟩
  obtain ⟨rs, reached⟩ := exists_reachable closed known
  refine ⟨(sortedRefs rs).filterMap Ref.id?, ?_⟩
  rw [ancestors, ancestorsOf, reached]
  rfl

omit [Scalar α] in
/-- What is listed is found. -/
lemma Rooted.exists_find (rooted : s.Rooted) (placed : e ∈ s.ids) (listed : s.ancestors e = .ok ids)
    (mem : id ∈ ids) : ∃ p ∈ s.positions, s.find? id = some p := by
  have path := ((ancestors_eq_ok rooted.nodup listed).2 id).1 mem
  have there : id ∈ s.ids := by
    cases path with
    | refl => exact placed
    | tail _ reads =>
      obtain ⟨p, found, read⟩ := reads
      obtain ⟨q, hq, rfl, -⟩ := rooted.closed.earlier p (List.mem_of_find?_eq_some found) _ read
      exact List.mem_map_of_mem hq
  obtain ⟨p, hp, rfl⟩ := List.mem_map.1 there
  exact ⟨p, hp, (find?_eq_some_iff rooted.nodup).2 ⟨hp, rfl⟩⟩

end Supergraph

/-! ### What a mixture costs -/

/-- A row of logits passes its check. -/
lemma Logits.IsRow.checkRow {l : Logits α} {n : Nat} (row : l.IsRow n) : l.checkRow n = .ok () := by
  obtain ⟨xs, rfl, rfl⟩ := row
  exact if_pos rfl

omit [Scalar α] in
/-- A frozen position that is intact has a fixed operator. -/
lemma Position.Intact.exists_fixed (intact : p.Intact) (frozen : p.isFrozen = true) :
    ∃ op rest, p.fixed = op :: rest := by
  obtain ⟨op, rest, listed⟩ := List.exists_cons_of_ne_nil intact.stocked
  have none : ∀ a ∈ p.candidates, ¬ a.mixes = true :=
    List.filter_eq_nil_iff.1 (List.isEmpty_iff.1 frozen)
  refine ⟨op, rest.filter fun op => !op.mixes, ?_⟩
  have first := none op (listed ▸ List.mem_cons_self ..)
  rw [Position.fixed, listed, List.filter_cons_of_pos (by simpa using first)]

/-- A position has a cost: an operator is fixed where nothing mixes, and else each candidate that
mixes has a logit and a weight. -/
def Mixture.Weighs (m : Mixture α) (p : Position α) : Prop :=
  if p.isFrozen then p.fixed ≠ []
  else p.logits.checkRow p.mixing.length = .ok () ∧ (m.weights p.id).length = p.mixing.length

/-- A mixture weighs an intact position when it has a weight for each candidate. -/
lemma Mixture.weighs_of_intact (intact : p.Intact)
    (weighed : p.isFrozen = false → (m.weights p.id).length = p.mixing.length) : m.Weighs p := by
  rw [Weighs]
  cases frozen : p.isFrozen with
  | true =>
    obtain ⟨op, rest, fixed⟩ := intact.exists_fixed frozen
    rw [if_pos rfl, fixed]
    exact List.cons_ne_nil op rest
  | false => exact ⟨intact.aligned.checkRow, weighed frozen⟩

/-- A mixture has a weight for each exit and for all that mixes at the positions. -/
structure Mixture.Serves (m : Mixture α) (s : Supergraph α) : Prop where
  positions : ∀ p ∈ s.positions, m.Weighs p
  exits : s.routes m = .ok m.route

/-- The routes of a supergraph with exits have weights. -/
lemma routes_eq (rooted : s.Rooted) (m : Mixture α) : s.routes m = .ok m.route := by
  obtain ⟨xs, logits, length⟩ := rooted.routes
  have some : xs ≠ [] := by
    rintro rfl
    exact rooted.answered (List.length_eq_zero_iff.1 length.symm)
  have checked : s.checkRoutes = .ok () := by
    rw [Supergraph.checkRoutes, logits]
    exact if_neg fun none => some (List.isEmpty_iff.1 none)
  rw [Supergraph.routes, checked, logits]
  rfl

/-- The routes of a mixture are its own. -/
lemma eq_of_routes_eq_ok {route : List α} (done : s.routes m = .ok route) : route = m.route := by
  simp only [Supergraph.routes, bind_eq_ok] at done
  obtain ⟨_, -, done⟩ := done
  split at done
  · cases done
  · exact (Except.ok.inj done).symm

/-- A mixture that fits a decodable network serves it. -/
lemma Mixture.Fits.serves (fits : m.Fits s) (decodable : s.Decodable) : m.Serves s where
  positions p hp := weighs_of_intact (decodable.intact p hp) (fits.weights p hp)
  exits := routes_eq decodable.toRooted m

namespace Supergraph

/-- The mean costs of all positions by their ids. -/
def meanCosts (s : Supergraph α) (m : Mixture α) (metric : String) : List (Int × α) :=
  s.positions.map fun p => (p.id, m.meanCost metric p)

/-- What the routes cost that are charged for some positions each. -/
def meanTotals (s : Supergraph α) (m : Mixture α) (metric : String) (charged : List (List Int)) :
    List α :=
  charged.map fun ids => Scalar.sum (ids.map fun n => (fetch n (s.meanCosts m metric)).getD 0)

/-- The expected cost of the routes with its gradients. -/
def meanGradient (s : Supergraph α) (m : Mixture α) (metric : String) (charged : List (List Int)) :
    CostGradient α where
  value := Scalar.dot m.route (s.meanTotals m metric charged)
  positions := (s.positions.filter fun p => !p.isFrozen).map fun p =>
    (p.id, (candidateCosts metric p).map (usage charged m.route p.id * ·))
  route := s.meanTotals m metric charged

end Supergraph

/-- A weighted sum is a product of as many weights as values. -/
lemma weightedSum_eq_ok {weights xs : List α} {c : α} :
    weightedSum weights xs = .ok c ↔ weights.length = xs.length ∧ c = Scalar.dot weights xs := by
  rw [weightedSum]
  split
  next same =>
    exact ⟨fun eq => ⟨same, (Except.ok.inj eq).symm⟩, fun h => congrArg Except.ok h.2.symm⟩
  next other =>
    constructor
    · rintro ⟨⟩
    · exact fun h => absurd h.1 other

/-- Where candidates mix, a position costs on average the sum of the weighted costs of these. -/
lemma meanCost_of_mixes (mixes : p.isFrozen = false) :
    m.meanCost metric p = Scalar.dot (m.weights p.id) (Supergraph.candidateCosts metric p) := by
  rw [Mixture.meanCost, Mixture.picks, mixes, if_neg Bool.false_ne_true, Supergraph.candidateCosts,
    Scalar.dot, List.zipWith_map_right, List.zip, List.map_map, List.map_zipWith, List.zipWith_comm]
  rfl

section Means

open Scalar
attribute [local instance] commSemiring

variable [Commutative α]

/-- A position costs what the operators that may be taken there cost on average. -/
lemma positionCost_eq_ok {c : α} :
    Supergraph.positionCost m metric p = .ok c ↔ m.Weighs p ∧ c = m.meanCost metric p := by
  rw [Supergraph.positionCost, Mixture.Weighs]
  cases frozen : p.isFrozen with
  | true =>
    rw [if_pos rfl, if_pos rfl, Mixture.meanCost, Mixture.picks, frozen, if_pos rfl,
      Position.firstFixed]
    cases p.fixed with
    | nil =>
      constructor
      · rintro ⟨⟩
      · exact fun h => absurd rfl h.1
    | cons op rest =>
      have single : sum [1 * op.costOf metric] = op.costOf metric := by
        rw [sum_eq, List.sum_singleton, one_mul]
      constructor
      · exact fun eq => ⟨List.cons_ne_nil op rest, (Except.ok.inj eq).symm.trans single.symm⟩
      · exact fun h => congrArg Except.ok (h.2.trans single).symm
  | false =>
    simp only [Bool.false_eq_true, if_false, bind_eq_ok, weightedSum_eq_ok,
      meanCost_of_mixes frozen, Supergraph.candidateCosts, List.length_map]
    constructor
    · rintro ⟨_, checked, weighed, same⟩
      exact ⟨⟨checked, weighed⟩, same⟩
    · rintro ⟨⟨checked, weighed⟩, same⟩
      exact ⟨(), checked, weighed, same⟩

/-- The costs of the positions are their mean costs, if each one is weighed. -/
lemma positionCosts_eq_ok {costs : List (Int × α)} : s.positionCosts m metric = .ok costs ↔
    (∀ p ∈ s.positions, m.Weighs p) ∧ costs = s.meanCosts m metric := by
  refine mapM_eq_ok_iff fun p _ y => ?_
  simp only [bind_eq_ok, pure_eq_ok, positionCost_eq_ok]
  constructor
  · rintro ⟨_, ⟨weighs, rfl⟩, rfl⟩
    exact ⟨weighs, rfl⟩
  · rintro ⟨weighs, rfl⟩
    exact ⟨_, ⟨weighs, rfl⟩, rfl⟩

/-- The expected cost is the sum of the costs of the routes, each the sum of the mean costs of the
positions that are charged. -/
lemma costGradient_eq_ok {kind : MetricKind} {g : CostGradient α}
    (isKind : metricKind metric kinds = .ok kind) (sums : kind ≠ .lipschitz) :
    s.costGradient m metric kinds = .ok g ↔
      m.Serves s ∧ ∃ charged, s.charged kind (s.meanCosts m metric) = .ok charged ∧
        m.route.length = charged.length ∧ g = s.meanGradient m metric charged := by
  simp only [Supergraph.costGradient, isKind, bind_eq_ok, Except.ok.injEq, exists_eq_left',
    if_neg sums, positionCosts_eq_ok, weightedSum_eq_ok, pure_eq_ok, List.length_map]
  constructor
  · rintro ⟨_, ⟨weighs, rfl⟩, route, routed, charged, charges, _, ⟨lengths, rfl⟩, rfl⟩
    obtain rfl := eq_of_routes_eq_ok routed
    exact ⟨⟨weighs, routed⟩, charged, charges, lengths, rfl⟩
  · rintro ⟨serves, charged, charges, lengths, rfl⟩
    exact ⟨_, ⟨serves.positions, rfl⟩, _, serves.exits, charged, charges, _, ⟨lengths, rfl⟩, rfl⟩

/-! ### Means over draws -/

variable {x : Draw α} {r : α}

/-- The weights of what may be taken at a position have the sum one. -/
lemma Mixture.sum_picks (intact : p.Intact)
    (weighed : p.isFrozen = false → (m.weights p.id).length = p.mixing.length)
    (normal : p.isFrozen = false → sum (m.weights p.id) = 1) :
    ((m.picks p).map (·.weight)).sum = 1 := by
  rw [Mixture.picks]
  cases frozen : p.isFrozen with
  | true =>
    obtain ⟨op, rest, fixed⟩ := intact.exists_fixed frozen
    rw [if_pos rfl, fixed]
    exact List.sum_singleton
  | false =>
    have weights : (p.mixing.zip (m.weights p.id)).map Prod.snd = m.weights p.id :=
      List.map_snd_zip (weighed frozen).le
    rw [if_neg Bool.false_ne_true, List.map_map]
    exact (congrArg List.sum weights).trans ((sum_eq _).symm.trans (normal frozen))

omit [Commutative α] in
/-- A position has its mean cost. -/
lemma fetch_meanCosts (distinct : s.ids.Nodup) (found : s.find? id = some p) :
    fetch id (s.meanCosts m metric) = some (m.meanCost metric p) := by
  obtain ⟨mem, rfl⟩ := (Supergraph.find?_eq_some_iff distinct).1 found
  refine fetch_of_mem ?_ (List.mem_map_of_mem mem)
  rw [Supergraph.meanCosts, List.map_map]
  exact distinct

/-- The draws of an exit cost on average what the positions cost on which it depends. -/
lemma sum_drawsAt (decodable : s.Decodable) (fits : m.Fits s) (normal : m.Normal s)
    (placed : e ∈ s.ids) (listed : s.ancestors e = .ok ids) (r : α) :
    ((s.drawsAt m e r).map fun x => x.weight * x.cost metric).sum =
      r * sum (ids.map fun n => (fetch n (s.meanCosts m metric)).getD 0) := by
  have one : ∀ l ∈ ids.map fun id => ((s.find? id).map m.picks).getD [],
      (l.map (·.weight)).sum = 1 := by
    intro l hl
    obtain ⟨id, mem, rfl⟩ := List.mem_map.1 hl
    obtain ⟨p, hp, found⟩ := decodable.exists_find placed listed mem
    rw [found]
    exact Mixture.sum_picks (decodable.intact p hp) (fits.weights p hp) (normal p hp)
  have means : (ids.map fun id => ((s.find? id).map m.picks).getD []).map
      (fun l => (l.map fun a => a.weight * a.operator.costOf metric).sum) =
        ids.map fun n => (fetch n (s.meanCosts m metric)).getD 0 := by
    rw [List.map_map]
    refine List.map_congr_left fun id mem => ?_
    obtain ⟨p, hp, found⟩ := decodable.exists_find placed listed mem
    rw [fetch_meanCosts decodable.nodup found]
    simp only [Function.comp_apply, found, Option.map_some, Option.getD_some,
      Mixture.meanCost, sum_eq]
  rw [Supergraph.drawsAt, listed, sum_eq, ← means, ← sum_sections_mul one, ← List.sum_map_mul_left]
  simp only [List.map_map, Function.comp_def, Draw.weight, Draw.cost, sum_eq, mul_assoc]

/-- What the routes cost on average is the mean over all draws. -/
lemma sum_draws (decodable : s.Decodable) (fits : m.Fits s) (normal : m.Normal s)
    {charged : List (List Int)} (charges : s.exits.mapM s.ancestors = .ok charged) :
    sum ((s.draws m).map fun x => x.weight * x.cost metric) =
      dot m.route (s.meanTotals m metric charged) := by
  have placed := decodable.placed
  rw [mapM_eq_ok] at charges
  rw [sum_eq, Supergraph.draws, List.map_flatMap, sum_flatMap, dot, sum_eq, Supergraph.meanTotals]
  -- exit by exit, each with its weight
  generalize s.exits = exits at charges placed
  generalize m.route = route
  induction charges generalizing route with
  | nil => rw [List.zip_nil_left, List.map_nil, List.map_nil, List.zipWith_nil_right]
  | cons listed _ ih =>
    rw [List.forall_mem_cons] at placed
    cases route with
    | nil => rfl
    | cons r route =>
      rw [List.zip_cons_cons, List.map_cons, List.sum_cons, List.map_cons, List.zipWith_cons_cons,
        List.sum_cons, sum_drawsAt decodable fits normal placed.1 listed, ih placed.2 route]

omit [Scalar α] [Commutative α] in
/-- The exits of a supergraph that can be decoded depend on some positions each. -/
lemma Supergraph.Decodable.exists_ancestors_exits (decodable : s.Decodable) :
    ∃ charged : List (List Int),
    s.exits.mapM s.ancestors = .ok charged ∧ s.exits.length = charged.length := by
  obtain ⟨charged, charges⟩ : ∃ charged, s.exits.mapM s.ancestors = .ok charged :=
    exists_mapM_eq_ok fun e mem => decodable.exists_ancestors (decodable.placed e mem)
  exact ⟨charged, charges, (mapM_eq_ok.1 charges).length_eq⟩

/-- A metric that is added up is expected to cost what draws cost on average. -/
lemma expectedPrice_additive (decodable : s.Decodable) (fits : m.Fits s) (normal : m.Normal s)
    (additive : metricKind metric kinds = .ok .additive) : s.expectedPrice m metric kinds =
      .ok (.known (sum ((s.draws m).map fun x => x.weight * x.cost metric))) := by
  obtain ⟨charged, charges, lengths⟩ := decodable.exists_ancestors_exits
  have value : s.costGradient m metric kinds = .ok (s.meanGradient m metric charged) :=
    (costGradient_eq_ok additive nofun).2
      ⟨fits.serves decodable, charged, charges, fits.route.trans lengths, rfl⟩
  rw [Supergraph.expectedPrice, additive, sum_draws decodable fits normal charges]
  simp only [value, bind, Except.bind, pure, Except.pure]
  rfl

end Means

end OperatorNet
