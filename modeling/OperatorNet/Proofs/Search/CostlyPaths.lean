import OperatorNet.Proofs.Search.Draws

/-!
# The most expensive path to an exit

What is found for each position ends a path whose cost is the sum of the costs of its positions
(`adds_costlyPaths`), and it is the largest of what was found for the sources with the own cost
added (`fetch_costlyPaths`). The costs of paths in a network obey the same equation. So where a
mixture has all its weight on one draw (`Mixture.Decided`) and no cost is negative, it is expected
to cost what the network of this draw costs (`Supergraph.expectedPrice_draws`).
-/

namespace OperatorNet

variable {α : Type} [Scalar α] {s : Supergraph α} {m : Mixture α} {metric : String}
    {kinds : MetricKinds}
  {p : Position α} {costs : List (Int × α)} {done : List (Int × Supergraph.CostlyPath α)}

open Scalar

/-! ### All weight on one -/

/-- The product with a vertex is the value there. -/
lemma Scalar.dot_of_vertex [Commutative α] (before after : List α) (y : α) :
    dot (List.replicate before.length 0 ++ 1 :: List.replicate after.length 0)
      (before ++ y :: after) = y := by
  let _ := commSemiring (α := α)
  have none : ∀ xs : List α, (List.zipWith (· * ·) (List.replicate xs.length 0) xs).sum = 0 := by
    intro xs
    induction xs with
    | nil => rfl
    | cons x rest ih =>
      rw [List.length_cons, List.replicate_succ, List.zipWith_cons_cons, List.sum_cons, zero_mul,
        zero_add, ih]
  rw [dot, sum_eq, List.zipWith_append (List.length_replicate ..), List.zipWith_cons_cons,
    List.sum_append, List.sum_cons, none, none, one_mul, add_zero, zero_add]

/-- A position that takes one operator costs what this costs. -/
lemma Mixture.Takes.meanCost [Commutative α] {op : Operator α} (takes : m.Takes p op)
    (metric : String) :
    m.meanCost metric p = op.costOf metric := by
  let _ := commSemiring (α := α)
  rw [Mixture.Takes] at takes
  rw [Mixture.meanCost, Mixture.picks]
  split at takes
  next frozen =>
    rw [Position.firstFixed] at takes
    split at takes
    next first rest fixed =>
      obtain rfl := Except.ok.inj takes
      rw [if_pos frozen, fixed, sum_eq]
      exact List.sum_singleton.trans (one_mul _)
    next => exact absurd takes fail_ne_ok
  next mixes =>
    obtain ⟨before, after, listed, weights⟩ := takes
    have lengths : ∀ ops : List (Operator α), ops.length = (ops.map (·.costOf metric)).length :=
      fun _ => List.length_map _ |>.symm
    have one : dot (m.weights p.id) (p.mixing.map (·.costOf metric)) = op.costOf metric := by
      rw [listed, weights, List.map_append, List.map_cons, lengths before, lengths after]
      exact dot_of_vertex _ _ _
    rw [if_neg mixes, List.map_map, ← one, dot, List.zipWith_map_right, List.zip, List.map_zipWith,
      List.zipWith_comm]
    rfl

/-- A mixture has all its weight on one draw. -/
structure Mixture.Decided (m : Mixture α) (s : Supergraph α) (x : Draw α) : Prop where
  route : ∃ before after, s.exits = before ++ x.exit :: after ∧
    m.route = List.replicate before.length 0 ++ 1 :: List.replicate after.length 0
  picks : ∀ a ∈ x.picks, ∀ p ∈ s.positions, p.id = a.position → m.Takes p a.operator

/-! ### Paths to positions -/

namespace Supergraph

/-- The path to a position, given those to other positions. -/
def pathTo (costs : List (Int × α)) (done : List (Int × CostlyPath α)) (p : Position α) :
    CostlyPath α :=
  let best := (p.sources.filterMap fun q => fetch q done).foldl CostlyPath.longer ⟨0, []⟩
  ⟨best.cost + (fetch p.id costs).getD 0, p.id :: best.path⟩

/-- A path costs what its positions cost together. -/
def CostlyPath.Adds (costs : List (Int × α)) (c : CostlyPath α) : Prop :=
  sum (c.path.map fun n => (fetch n costs).getD 0) = c.cost

/-- The longer of two paths has the larger cost. -/
lemma CostlyPath.cost_longer (a b : CostlyPath α) : (a.longer b).cost = larger a.cost b.cost := by
  rw [CostlyPath.longer, larger]
  split <;> rfl

/-- The longest of some paths has the largest cost. -/
lemma CostlyPath.cost_foldl (paths : List (CostlyPath α)) (best : CostlyPath α) :
    (paths.foldl CostlyPath.longer best).cost = (paths.map (·.cost)).foldl larger best.cost := by
  induction paths generalizing best with
  | nil => rfl
  | cons c rest ih => rw [List.foldl_cons, ih, cost_longer, List.map_cons, List.foldl_cons]

/-- What holds for each path holds for the longest. -/
lemma CostlyPath.foldl_longer {P : CostlyPath α → Prop} {paths : List (CostlyPath α)}
    {best : CostlyPath α} (start : P best) (each : ∀ c ∈ paths, P c) :
    P (paths.foldl CostlyPath.longer best) := by
  induction paths generalizing best with
  | nil => exact start
  | cons c rest ih =>
    rw [List.forall_mem_cons] at each
    apply ih _ each.2
    rw [CostlyPath.longer]
    split
    · exact each.1
    · exact start

/-- A path that goes on from one of those to other positions costs what its positions cost
together. -/
lemma adds_pathTo [Commutative α] (adds : ∀ q ∈ done, q.2.Adds costs) (p : Position α) :
    (pathTo costs done p).Adds costs := by
  have best : ((p.sources.filterMap fun q => fetch q done).foldl CostlyPath.longer ⟨0, []⟩).Adds
      costs := by
    apply CostlyPath.foldl_longer
    · rfl
    · intro c hc
      obtain ⟨q, -, found⟩ := List.mem_filterMap.1 hc
      exact adds _ (mem_of_fetch found)
  rw [CostlyPath.Adds, sum_eq] at best
  rw [CostlyPath.Adds, sum_eq, pathTo, List.map_cons, List.sum_cons, best]
  exact Commutative.add_comm _ _

/-- The path to a position looks at its sources only. -/
lemma pathTo_append {more : List (Int × CostlyPath α)}
    (known : ∀ q ∈ p.sources, q ∉ more.map Prod.fst) :
    pathTo costs (done ++ more) p = pathTo costs done p := by
  have same : ∀ q ∈ p.sources, fetch q (done ++ more) = fetch q done := by
    intro q hq
    by_cases early : q ∈ done.map Prod.fst
    · exact fetch_append_of_mem early
    · rw [fetch_append_of_notMem early, fetch_eq_none (known q hq), fetch_eq_none early]
  rw [pathTo, pathTo, List.filterMap_congr same]

/-- The paths to positions, one position after the other. -/
def pathsTo (costs : List (Int × α)) (positions : List (Position α)) : List (Int × CostlyPath α) :=
  positions.foldl (fun done p => done ++ [(p.id, pathTo costs done p)]) []

/-- The paths are found one position after the other. -/
lemma pathsTo_concat (positions : List (Position α)) (p : Position α) :
    pathsTo costs (positions ++ [p]) =
    pathsTo costs positions ++ [(p.id, pathTo costs (pathsTo costs positions) p)] := by
  rw [pathsTo, List.foldl_append]
  rfl

/-- There is a path to each position. -/
lemma map_fst_pathsTo (positions : List (Position α)) :
    (pathsTo costs positions).map Prod.fst = positions.map (·.id) := by
  induction positions using List.reverseRecOn with
  | nil => rfl
  | append_singleton positions p ih =>
    rw [pathsTo_concat, List.map_append, List.map_append, ih]
    rfl

/-- The cost of each path adds up the costs along it. -/
lemma adds_pathsTo [Commutative α] (positions : List (Position α)) :
    ∀ q ∈ pathsTo costs positions, q.2.Adds costs := by
  induction positions using List.reverseRecOn with
  | nil => exact fun _ mem => absurd mem List.not_mem_nil
  | append_singleton positions p ih =>
    rw [pathsTo_concat]
    exact List.forall_mem_append.2 ⟨ih, List.forall_mem_singleton.2 (adds_pathTo ih p)⟩

/-- Ascending positions that read earlier ones have the paths that those to all positions give. -/
lemma fetch_pathsTo {positions : List (Position α)}
    (ascending : (positions.map (·.id)).Pairwise (· < ·))
    (earlier : ∀ p ∈ positions, ∀ q ∈ p.sources, q < p.id) : ∀ p ∈ positions,
      fetch p.id (pathsTo costs positions) = some (pathTo costs (pathsTo costs positions) p) := by
  induction positions using List.reverseRecOn with
  | nil => exact fun _ mem => absurd mem List.not_mem_nil
  | append_singleton positions p ih =>
    rw [List.map_append, List.pairwise_append] at ascending
    obtain ⟨before, -, below⟩ := ascending
    rw [List.forall_mem_append, List.forall_mem_singleton] at earlier
    have less : ∀ q ∈ positions, q.id < p.id := fun q hq =>
      below q.id (List.mem_map_of_mem hq) p.id (List.mem_singleton.2 rfl)
    rw [pathsTo_concat, List.forall_mem_append, List.forall_mem_singleton]
    constructor
    · -- no position so far reads the last one
      intro q hq
      rw [fetch_append_of_mem (map_fst_pathsTo positions ▸ List.mem_map_of_mem hq),
        ih before earlier.1 q hq, pathTo_append]
      intro r hr last
      exact Int.lt_asymm (earlier.1 q hq r hr) (List.mem_singleton.1 last ▸ less q hq)
    · have new : p.id ∉ (pathsTo costs positions).map Prod.fst := by
        rw [map_fst_pathsTo]
        intro old
        obtain ⟨q, hq, same⟩ := List.mem_map.1 old
        exact Int.ne_of_lt (less q hq) same
      rw [fetch_append_of_notMem new, fetch, if_pos rfl, pathTo_append]
      intro r hr last
      exact Int.lt_irrefl _ (List.mem_singleton.1 last ▸ earlier.2 r hr)

omit [Scalar α] in
/-- The sources of a position have smaller ids. -/
lemma Closed.sources_lt (closed : s.Closed) : ∀ p ∈ s.positions, ∀ q ∈ p.sources, q < p.id := by
  intro p hp q hq
  obtain ⟨source, read, rfl⟩ := List.mem_filterMap.1 hq
  obtain ⟨_, -, -, before⟩ := closed.earlier p hp q read
  exact before

/-- A metric of most expensive paths is expected to cost what the path to an exit costs, if all
weight is on this exit. -/
lemma expectedPrice_criticalPath [Commutative α] {e : Int} {before after : List Int}
    {c : CostlyPath α} (decodable : s.Decodable) (fits : m.Fits s)
    (critical : metricKind metric kinds = .ok .criticalPath)
    (exits : s.exits = before ++ e :: after)
    (route : m.route = List.replicate before.length 0 ++ 1 :: List.replicate after.length 0)
    (path : fetch e (s.costlyPaths (s.meanCosts m metric)) = some c) :
    s.expectedPrice m metric kinds = .ok (.known c.cost) := by
  obtain ⟨charged, charges⟩ : ∃ charged,
      s.charged .criticalPath (s.meanCosts m metric) = .ok charged := by
    refine exists_mapM_eq_ok fun e he => ?_
    obtain ⟨p, hp, rfl⟩ := List.mem_map.1 (decodable.placed e he)
    have found : fetch p.id (s.costlyPaths (s.meanCosts m metric)) = _ :=
      fetch_pathsTo decodable.ascending decodable.closed.sources_lt p hp
    rw [found]
    exact ⟨_, rfl⟩
  have related := mapM_eq_ok.1 charges
  have value : s.costGradient m metric kinds = .ok (s.meanGradient m metric charged) :=
    (costGradient_eq_ok critical (by decide)).2
      ⟨fits.serves decodable, charged, charges, fits.route.trans related.length_eq, rfl⟩
  rw [exits] at related
  obtain ⟨front, ids, back, rfl, earlier, here, later⟩ := forall₂_append_cons related
  rw [path] at here
  obtain rfl := Except.ok.inj here
  have adds : c.Adds (s.meanCosts m metric) := adds_pathsTo s.positions _ (mem_of_fetch path)
  have lengths : ∀ paths : List (List Int), paths.length =
      (paths.map fun ids =>
        sum (ids.map fun n => (fetch n (s.meanCosts m metric)).getD 0)).length :=
    fun _ => List.length_map _ |>.symm
  have total : (s.meanGradient m metric (front ++ c.path :: back)).value = c.cost := by
    rw [meanGradient, meanTotals, route, List.map_append, List.map_cons, earlier.length_eq,
      later.length_eq, lengths front, lengths back, dot_of_vertex]
    exact adds
  rw [expectedPrice, critical]
  simp only [value, total, bind, Except.bind, pure, Except.pure]

end Supergraph

/-! ### The same paths in a network -/

variable [Exact α] {y : α} {x : Draw α} {table : List (Int × α)}
    {paths : List (Int × Supergraph.CostlyPath α)}

/-- Zero is not larger than what is not negative. -/
lemma Scalar.larger_zero_left [Commutative α] (nonneg : 0 ≤ y) : larger 0 y = y := by
  rw [larger]
  split
  next => rfl
  next notLess => exact Commutative.le_antisymm nonneg (Exact.le_iff_not_lt.2 notLess)

/-- What is not negative is the larger one beside zero. -/
lemma Scalar.larger_zero_right (nonneg : 0 ≤ y) : larger y 0 = y :=
  if_neg (Exact.le_iff_not_lt.1 nonneg)

/-- The largest value of some nodes is found by going through them. -/
lemma Network.largestOf_eq_foldl [Commutative α] (nonneg : ∀ q ∈ table, 0 ≤ q.2) (ids : List Int) :
    largestOf table 0 ids = (ids.filterMap fun i => fetch i table).foldl larger 0 := by
  rw [largestOf]
  split
  next none => rw [none]; rfl
  next y ys all =>
    have first : y ∈ ids.filterMap fun i => fetch i table := all ▸ List.mem_cons_self ..
    obtain ⟨i, -, found⟩ := List.mem_filterMap.1 first
    rw [all, List.foldl_cons, larger_zero_left (nonneg _ (mem_of_fetch found)), maximum]

/-- A node costs what was found for its source; the input costs nothing. -/
def Pays (paths : List (Int × Supergraph.CostlyPath α)) (table : List (Int × α)) :
    Option Int → Int → Prop
  | none, i => fetch i table = some 0
  | some j, i => ∃ c, fetch j paths = some c ∧ fetch i table = some c.cost

/-- Nodes that cost what was found for the sources are as expensive, the most expensive one of
them. -/
lemma foldl_larger_of_pays {sources : List (Option Int)} {reads : List Ref}
    (pays : List.Forall₂ (fun source q => ∃ i, q = Ref.id i ∧ Pays paths table source i)
      sources reads) (nonneg : ∀ q ∈ table, 0 ≤ q.2) (start : 0 ≤ y) :
    ((reads.filterMap Ref.id?).filterMap fun i => fetch i table).foldl larger y =
      (((sources.filterMap fun q => q).filterMap fun q => fetch q paths).map (·.cost)).foldl
        larger y := by
  induction pays generalizing y with
  | nil => rfl
  | @cons source _ _ _ head _ ih =>
    obtain ⟨i, rfl, own⟩ := head
    cases source with
    | none =>
      have input : fetch i table = some 0 := own
      simp only [List.filterMap_cons, Ref.id?_id, input, List.foldl_cons,
        larger_zero_right start, ih start]
    | some j =>
      obtain ⟨c, found, there⟩ := own
      have more : 0 ≤ larger y c.cost := by
        rw [larger]
        split
        · exact nonneg _ (mem_of_fetch there)
        · exact start
      simp only [List.filterMap_cons, Ref.id?_id, there, found, List.map_cons,
        List.foldl_cons, ih more]

omit [Exact α] in
/-- What a position of a draw reads from is the input or a position of the draw. -/
lemma Draw.Along.exists_pick {a : Pick α} (along : x.Along s m) (distinct : s.ids.Nodup)
    (ha : a ∈ x.picks) (mem : p ∈ s.positions) (position : p.id = a.position) {j : Int}
    (read : some j ∈ p.inputs) :
    ∃ b ∈ x.picks, b.position = j := by
  obtain ⟨-, reached⟩ := Supergraph.ancestors_eq_ok distinct along.ancestors
  have path := (reached a.position).1 (List.mem_map_of_mem ha)
  have found := (Supergraph.find?_eq_some_iff distinct).2 ⟨mem, position⟩
  exact List.mem_map.1 ((reached j).2 (path.tail ⟨p, found, read⟩))

namespace Decoder.Realizes

variable {refs : Refs} {g : Network α} {first out n : Node α} {rest nodes : List (Node α)}
    {a : Pick α} (realizes : Realizes s x refs g first out rest)

include realizes

omit [Exact α] in
/-- The use of a pick reads from the input, which costs nothing, and from uses of other picks. -/
lemma pays_of_uses (along : x.Along s m) (distinct : s.ids.Nodup)
    (live : ∀ n, n ∈ nodes ↔ n ∈ g.nodes ∧ g.Lives n.id) (sourced : Network.Sourced nodes)
    (hn : n ∈ nodes) (ha : a ∈ x.picks) (mem : p ∈ s.positions) (position : p.id = a.position)
    (reads : List.Forall₂ (fun source q => ∃ i, fetch source refs = some i ∧ q = .id i)
      p.inputs n.inputs) (input : first ∈ nodes → fetch first.id table = some 0)
    (earlier : ∀ k ∈ nodes, k.id ∈ n.sources → ∀ b ∈ x.picks, Uses s refs b k →
      ∃ c, fetch b.position paths = some c ∧ fetch k.id table = some c.cost) :
    List.Forall₂ (fun source q => ∃ i, q = Ref.id i ∧ Pays paths table source i) p.inputs
      n.inputs := by
  refine List.forall₂_iff_zip.2 ⟨reads.length_eq, fun {source q} pair => ?_⟩
  obtain ⟨hs, hq⟩ := List.of_mem_zip pair
  obtain ⟨i, place, rfl⟩ := (List.forall₂_iff_zip.1 reads).2 pair
  have read : i ∈ n.sources := List.mem_filterMap.2 ⟨.id i, hq, Ref.id?_id i⟩
  -- nodes with one id are the same node
  obtain ⟨k, hk, rfl⟩ := List.mem_map.1 (sourced.mem_of_read hn read)
  have only : ∀ k' ∈ g.nodes, k'.id = k.id → k' = k := fun k' hk' id =>
    List.inj_on_of_nodup_map realizes.wired.nodup hk' ((live k).1 hk).1 id
  refine ⟨k.id, rfl, ?_⟩
  cases source with
  | none =>
    rw [realizes.start, Option.some_inj] at place
    obtain rfl := only first (realizes.nodes ▸ List.mem_cons_self ..) place
    exact input hk
  | some j =>
    obtain ⟨b, hb, rfl⟩ := along.exists_pick distinct ha mem position hs
    obtain ⟨k', hk', use⟩ := exists_of_mem_forall₂ realizes.uses.flip hb
    have same := use.place
    rw [place, Option.some_inj] at same
    obtain rfl := only k' (realizes.nodes ▸ List.mem_cons_of_mem _ hk') same.symm
    exact earlier k' hk read b hb use

variable [Arithmetic α] [Commutative α]

/-- What the path to a node costs is what was found for the position that the node stands for. -/
lemma fetch_pathCosts (decodable : s.Decodable) (along : x.Along s m) (decided : m.Decided s x)
    (nonneg : ∀ a ∈ x.picks, 0 ≤ a.operator.costOf metric) (sourced : Network.Sourced nodes)
    (live : ∀ n, n ∈ nodes ↔ n ∈ g.nodes ∧ g.Lives n.id) :
    ∀ n ∈ nodes, ∀ a ∈ x.picks, Uses s refs a n →
      ∃ c, fetch a.position (s.costlyPaths (s.meanCosts m metric)) = some c ∧
        fetch n.id (Network.pathCosts metric nodes) = some c.cost := by
  have each :=
    (Network.tabulates_pathCosts metric nodes).exists_fetch (Network.local_pathCost metric) sourced
  have ofUse : ∀ n ∈ nodes, n = first ∨ ∃ a ∈ x.picks, n.operator = some a.operator := by
    intro n hn
    have mem := ((live n).1 hn).1
    rw [realizes.nodes, List.mem_cons] at mem
    refine mem.imp id fun use => ?_
    obtain ⟨a, ha, own⟩ := exists_of_mem_forall₂ realizes.uses use
    exact ⟨a, ha, own.operator⟩
  have noLess : ∀ q ∈ Network.pathCosts metric nodes, 0 ≤ q.2 := by
    refine (Network.tabulates_pathCosts metric nodes).forall_mem ?_
    rintro table n y hn before rfl
    rw [Network.pathCost]
    split
    next => exact Scalar.le_refl 0
    next other =>
      rcases ofUse n hn with rfl | ⟨a, ha, uses⟩
      · exact absurd (by rw [Node.isInput, realizes.input]; rfl) other
      · rw [Network.costOf_of_uses uses]
        exact Scalar.add_nonneg (Network.largestOf_nonneg before _) (nonneg a ha)
  have input : first ∈ nodes → fetch first.id (Network.pathCosts metric nodes) = some 0 := by
    intro hn
    obtain ⟨y, found, made⟩ := each first hn
    rw [found, made, Network.pathCost, Node.isInput, realizes.input]
    rfl
  -- by induction along the nodes: a use pays its own cost and that of the costliest source
  refine sourced.induction fun n hn earlier a ha use => ?_
  obtain ⟨p, mem, position, reads⟩ := use.reads
  have pays :=
    realizes.pays_of_uses along decodable.nodup live sourced hn ha mem position reads input earlier
  have path : fetch p.id (s.costlyPaths (s.meanCosts m metric)) = _ :=
    Supergraph.fetch_pathsTo decodable.ascending decodable.closed.sources_lt p mem
  obtain ⟨y, found, made⟩ := each n hn
  refine ⟨_, position ▸ path, ?_⟩
  have own : fetch p.id (s.meanCosts m metric) = some (a.operator.costOf metric) := by
    rw [fetch_meanCosts decodable.nodup
      ((Supergraph.find?_eq_some_iff decodable.nodup).2 ⟨mem, rfl⟩),
      (decided.picks a ha p mem position).meanCost]
  rw [found, made, Network.pathCost, Node.isInput, use.operator, if_neg (by simp),
    Network.costOf_of_uses use.operator, Network.largestOf_eq_foldl noLess, Node.sources,
    foldl_larger_of_pays pays noLess (Scalar.le_refl 0), Supergraph.pathTo,
      Supergraph.CostlyPath.cost_foldl, own]
  rfl

/-- Where a mixture has all its weight on a draw, it is expected to cost what the network of the
draw costs. -/
lemma aggregate_criticalPath (decodable : s.Decodable) (fits : m.Fits s) (along : x.Along s m)
    (decided : m.Decided s x) (nonneg : ∀ a ∈ x.picks, 0 ≤ a.operator.costOf metric)
    (critical : metricKind metric kinds = .ok .criticalPath) : ∃ price,
      s.expectedPrice m metric kinds = .ok (.known price) ∧
        g.aggregate metric kinds = .ok (.known price) := by
  obtain ⟨nodes, ordered, output, sourced, live⟩ := realizes.exists_order
  obtain ⟨-, reached⟩ := Supergraph.ancestors_eq_ok decodable.nodup along.ancestors
  obtain ⟨a, ha, exit⟩ := List.mem_map.1 ((reached x.exit).2 .refl)
  obtain ⟨n, hn, use⟩ := exists_of_mem_forall₂ realizes.uses.flip ha
  -- the use for the exit is the output
  have same := use.place
  rw [exit, realizes.exit, Option.some_inj] at same
  have there : n ∈ nodes :=
    (live n).2 ⟨realizes.nodes ▸ List.mem_cons_of_mem _ hn, realizes.live n hn⟩
  obtain ⟨c, path, cost⟩ :=
    realizes.fetch_pathCosts decodable along decided nonneg sourced live n there a ha use
  obtain ⟨before, after, exits, route⟩ := decided.route
  refine ⟨c.cost, ?_, ?_⟩
  · exact Supergraph.expectedPrice_criticalPath decodable fits critical exits route (exit ▸ path)
  · rw [Network.aggregate_eq critical ordered output, same, cost]
    rfl

end Decoder.Realizes

/-- In exact arithmetic a mixture whose weights have the sum one at each position is expected to
cost, in a metric that is added up, the mean of what its draws cost, and each draw costs what its
network costs where no adapter is put in. In a metric of most expensive paths without negative
costs, a mixture that has all its weight on one draw is expected to cost what the network of this
draw costs. -/
theorem Supergraph.expectedPrice_draws [Arithmetic α] [Commutative α] (decodable : s.Decodable)
    (equipped : s.Equipped) (fits : m.Fits s) (normal : m.Normal s) (d : Decoder α) :
    (metricKind metric kinds = .ok .additive →
      s.expectedPrice m metric kinds =
        .ok (.known (sum ((s.draws m).map fun x => x.weight * x.cost metric))) ∧
      ∀ x ∈ s.draws m, ∀ g, d.materialize s x.selection = .ok g → g.adapterNodes = [] →
        g.aggregate metric kinds = .ok (.known (x.cost metric))) ∧
    (metricKind metric kinds = .ok .criticalPath →
      (∀ p ∈ s.positions, ∀ op ∈ p.candidates, 0 ≤ op.costOf metric) →
      ∀ x ∈ s.draws m, m.Decided s x → ∀ g, d.materialize s x.selection = .ok g →
        g.adapterNodes = [] →
        ∃ price, s.expectedPrice m metric kinds = .ok (.known price) ∧
          g.aggregate metric kinds = .ok (.known price)) := by
  constructor
  case left =>
    intro additive
    refine ⟨expectedPrice_additive decodable fits normal additive, fun x mem g made nothing => ?_⟩
    have along := along_of_mem_draws decodable mem
    obtain ⟨refs, first, out, rest, realizes⟩ :=
      Decoder.exists_realizes decodable equipped along made nothing
    exact realizes.aggregate_additive additive
  case right =>
    intro critical nonneg x mem decided g made nothing
    have along := along_of_mem_draws decodable mem
    obtain ⟨refs, first, out, rest, realizes⟩ :=
      Decoder.exists_realizes decodable equipped along made nothing
    refine realizes.aggregate_criticalPath decodable fits along decided (fun a ha => ?_) critical
    obtain ⟨p, own⟩ := along.picks a ha
    exact nonneg p own.mem _ own.candidate

/-! ### Two candidates before a fixed one -/

namespace Supergraph.Sample

open Decoder.Sample Relaxation.Sample

scoped instance : Arithmetic ℚ :=
  arithmetic_ofField elementary

scoped instance : Commutative ℚ :=
  commutative_ofField elementary

/-- An operator with costs. -/
def priced (op : Operator ℚ) (cost latency : ℚ) : Operator ℚ :=
  { op with cost := .ofList [("cost", cost), ("latency", latency)] }

/-- An operator that keeps its input. -/
def keeps : Operator ℚ :=
  priced keep 2 1

/-- An operator that scales its input. -/
def scales : Operator ℚ :=
  priced scale 4 3

/-- An operator that subtracts from its input. -/
def subtracts : Operator ℚ :=
  priced subtract 5 2

/-- The supergraph with a position for what mixes, and one for what is fixed and reads it. -/
def chain : Supergraph ℚ :=
  { supergraph 2 [{ first with candidates := [keeps, scales] },
    { second with candidates := [subtracts] }] with
    catalog :=
      (Catalog.ofKinds ["path", "feature"] "cost").extend [keeps, scales, subtracts] (by decide) }

/-- The chain is built in two stages. -/
lemma build_chain : build chain.catalog chain.inputType chain.outputType (.whole 2) (.whole 3)
    (fun _ => .ok false) = .ok chain := by
  with_unfolding_all rfl

/-- The chain is equipped. -/
lemma equipped_chain : chain.Equipped := by
  constructor
  case distinct => decide
  case registered => simp [chain, supergraph]
  case rows => exact fun p hp => ((decodable_build build_chain).1.intact p hp).aligned

/-- The weights of both candidates and of both exits. -/
def weighing (w r : ℚ) : Mixture ℚ :=
  ⟨fun _ => [1 - w, w], [1 - r, r]⟩

/-- The mixture fits the chain. -/
lemma fits_weighing (w r : ℚ) : (weighing w r).Fits chain := by
  constructor
  case weights =>
    intro p hp mixes
    rcases List.mem_cons.1 hp with rfl | last
    · rfl
    · cases List.mem_singleton.1 last
      cases mixes
  case route => rfl

/-- The mixture is normal. -/
lemma normal_weighing (w r : ℚ) : (weighing w r).Normal chain := by
  intro p _ _
  change 0 + (1 - w) + w = 1
  ring

/-- The draw of the second candidate and of what reads it. -/
def through (w r : ℚ) : Draw ℚ :=
  ⟨1, r, [⟨0, scales, w⟩, ⟨1, subtracts, 1⟩]⟩

/-- Going through the chain is one of the draws. -/
lemma mem_draws_through (w r : ℚ) : through w r ∈ chain.draws (weighing w r) := by
  have last : (chain.draws (weighing w r))[3]? = some (through w r) := by
    with_unfolding_all rfl
  exact List.mem_of_getElem? last

/-- With the whole weight the draw is decided. -/
lemma decided_through : (weighing 1 1).Decided chain (through 1 1) := by
  have scaled : (weighing 1 1).Takes { first with candidates := [keeps, scales] } scales := by
    rw [Mixture.Takes, if_neg (by decide)]
    exact ⟨[keeps], [], rfl, by decide +kernel⟩
  have subtracted : (weighing 1 1).Takes { second with candidates := [subtracts] } subtracts := by
    rw [Mixture.Takes, if_pos (by decide)]
    rfl
  constructor
  case route => exact ⟨[0], [], rfl, by decide +kernel⟩
  case picks =>
    rw [through, List.forall_mem_cons, List.forall_mem_singleton]
    constructor
    · intro p hp position
      rcases List.mem_cons.1 hp with rfl | last
      · exact scaled
      · cases List.mem_singleton.1 last
        cases position
    · intro p hp position
      rcases List.mem_cons.1 hp with rfl | last
      · cases position
      · cases List.mem_singleton.1 last
        exact subtracted

/-- One is positive. -/
lemma one_positive : (0 : ℚ) < 1 := by
  decide

/-- The network of that draw. -/
def network : Network ℚ :=
  ((limited 1 one_positive).materialize chain (through 1 1).selection).toOption.getD default

end Supergraph.Sample

open Supergraph.Sample Decoder.Sample in
/-- On average four draws cost six. With all weight on one of them its latency is expected. -/
theorem Supergraph.expectedPrice_draws_chain :
    build chain.catalog chain.inputType chain.outputType (.whole 2) (.whole 3)
      (fun _ => .ok false) = .ok chain ∧
      chain.Decodable ∧ chain.Equipped ∧
        (∀ w r, (weighing w r).Fits chain ∧ (weighing w r).Normal chain) ∧
      chain.expectedPrice (weighing (3 / 4) (1 / 2)) "cost" .none = .ok (.known 6) ∧
      (limited 1 one_positive).materialize chain (through 1 1).selection = .ok network ∧
      network.adapterNodes = [] ∧ network.aggregate "cost" .none = .ok (.known 9) ∧
      ∃ latency, chain.expectedPrice (weighing 1 1) "latency" .none = .ok (.known latency) ∧
        network.aggregate "latency" .none = .ok (.known latency) := by
  have decodable := (decodable_build build_chain).1
  have made : (limited 1 one_positive).materialize chain (through 1 1).selection = .ok network :=
    eq_ok_getD (by decide +kernel)
  have nothing : network.adapterNodes = [] := by
    decide +kernel
  have nonneg : ∀ p ∈ chain.positions, ∀ op ∈ p.candidates, 0 ≤ op.costOf "latency" := by
    decide +kernel
  -- the additive metric, where the mean over all selections is evaluated beside the expected price
  have added : chain.expectedPrice (weighing (3 / 4) (1 / 2)) "cost" .none = _ ∧ _ :=
    (expectedPrice_draws decodable equipped_chain (fits_weighing _ _) (normal_weighing _ _)
      (limited 1 one_positive)).1 rfl
  have mean : sum ((chain.draws (weighing (3 / 4) (1 / 2))).map fun x => x.weight * x.cost "cost") =
      6 := by
    decide +kernel
  have nine : (through (3 / 4) (1 / 2)).cost "cost" = 9 := by
    decide +kernel
  have single := added.2 _ (mem_draws_through _ _) network made nothing
  -- the critical path, at the weights of the single selection
  obtain ⟨price, expected, found⟩ : ∃ price,
      chain.expectedPrice (weighing 1 1) "latency" .none = .ok (.known price) ∧
        network.aggregate "latency" .none = .ok (.known price) :=
    (expectedPrice_draws decodable equipped_chain (fits_weighing 1 1) (normal_weighing _ _)
      (limited 1 one_positive)).2 rfl nonneg _ (mem_draws_through 1 1) decided_through network
        made nothing
  exact ⟨build_chain, decodable, equipped_chain, fun w r =>
    ⟨fits_weighing w r, normal_weighing w r⟩,
    mean ▸ added.1, made, nothing, nine ▸ single, price, expected, found⟩

end OperatorNet
