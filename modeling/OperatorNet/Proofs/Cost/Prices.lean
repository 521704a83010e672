import OperatorNet.Cost.Aggregate
import OperatorNet.Proofs.Network.Paths
import OperatorNet.Proofs.Scalar.Arithmetic
import OperatorNet.Proofs.Tables

/-!
# Prices in exact arithmetic

Costs and bounds are found node by node, each from those of its sources (`Tabulates`), so the value
of every node is made of the final values of its sources (`Tabulates.exists_fetch`). Where nothing
declared is negative, a sum of costs and the cost of the most expensive path are at least the cost
of every live use (`le_additive`, `le_criticalPath`), and a Lipschitz bound that is known is at
least the product of the bounds along every path to an input (`stretch_le`).
-/

namespace OperatorNet

namespace Network

variable {α β : Type} {step : List (Int × β) → Node α → β → Prop} {nodes : List (Node α)}
  {table : List (Int × β)} {n : Node α}

/-- Values that were found node by node, each by a step from the values before it. -/
inductive Tabulates (step : List (Int × β) → Node α → β → Prop) :
    List (Node α) → List (Int × β) → Prop
  | nil : Tabulates step [] []
  | snoc {nodes table n x} : Tabulates step nodes table → step table n x →
      Tabulates step (nodes ++ [n]) (table ++ [(n.id, x)])

/-- Steps that look at nothing but the values of sources. -/
def Local (step : List (Int × β) → Node α → β → Prop) : Prop :=
  ∀ n table table' x, (∀ s ∈ n.sources, fetch s table = fetch s table') → step table n x →
    step table' n x

/-- A table of the nodes lists each under its id. -/
lemma Tabulates.map_fst (found : Tabulates step nodes table) :
    table.map Prod.fst = nodes.map (·.id) := by
  induction found with
  | nil => rfl
  | snoc _ _ ih => rw [List.map_append, List.map_append, ih]; rfl

/-- A table of the nodes has for each node what the step gives there. -/
lemma Tabulates.exists_fetch (found : Tabulates step nodes table) (looks : Local step)
    (sourced : Sourced nodes) : ∀ n ∈ nodes, ∃ x, fetch n.id table = some x ∧ step table n x := by
  induction found with
  | nil => exact fun _ mem => absurd mem List.not_mem_nil
  | @snoc nodes table n x found made ih =>
    -- later values do not change what the nodes so far look at
    have keep : ∀ m y, (∀ s ∈ m.sources, s ∈ nodes.map (·.id)) → step table m y →
        step (table ++ [(n.id, x)]) m y := by
      intro m y earlier made
      refine looks m table _ y (fun s read => ?_) made
      exact (fetch_append_of_mem (found.map_fst ▸ earlier s read)).symm
    have new : n.id ∉ table.map Prod.fst := by
      have distinct := sourced.distinct
      rw [List.map_append] at distinct
      rw [found.map_fst]
      exact fun old => List.disjoint_of_nodup_append distinct old (List.mem_singleton.2 rfl)
    refine List.forall_mem_append.2 ⟨fun m hm => ?_, List.forall_mem_singleton.2 ⟨x, ?_, ?_⟩⟩
    · obtain ⟨y, there, own⟩ := ih sourced.of_append m hm
      refine ⟨y, ?_, keep m y (fun s read => sourced.of_append.mem_of_read hm read) own⟩
      rw [fetch_append_of_mem (found.map_fst ▸ List.mem_map_of_mem hm), there]
    · rw [fetch_append_of_notMem new, fetch, if_pos rfl]
    · exact keep n x (sourced.earlier nodes n [] rfl) made

/-- What every step keeps holds of all values. -/
lemma Tabulates.forall_mem {P : β → Prop} (found : Tabulates step nodes table)
    (keeps : ∀ table n x, n ∈ nodes → (∀ p ∈ table, P p.2) → step table n x → P x) :
    ∀ p ∈ table, P p.2 := by
  induction found with
  | nil => exact fun _ mem => absurd mem List.not_mem_nil
  | snoc found made ih =>
    have before := ih fun table n x mem => keeps table n x (List.mem_append_left _ mem)
    refine List.forall_mem_append.2 ⟨before, List.forall_mem_singleton.2 ?_⟩
    exact keeps _ _ _ (List.mem_append_right _ (List.mem_singleton.2 rfl)) before made

variable [Scalar α] {metric : String}

/-- The cost of the most expensive path to a node, given those to its sources. -/
def pathCost (metric : String) (done : List (Int × α)) (n : Node α) : α :=
  if n.isInput then 0 else largestOf done 0 n.sources + n.costOf metric

/-- The path costs are tabulated node by node. -/
lemma tabulates_pathCosts (metric : String) (nodes : List (Node α)) :
    Tabulates (fun done n x => x = pathCost metric done n) nodes (pathCosts metric nodes) := by
  induction nodes using List.reverseRecOn with
  | nil => exact .nil
  | append_singleton nodes n ih =>
    have more : pathCosts metric (nodes ++ [n]) = pathCosts metric nodes ++
        [(n.id, pathCost metric (pathCosts metric nodes) n)] := by
      rw [pathCosts, List.foldl_append]
      rfl
    rw [more]
    exact ih.snoc rfl

/-- The path cost of a node looks at the nodes that it reads only. -/
lemma local_pathCost (metric : String) :
    Local fun done (n : Node α) x => x = pathCost metric done n := by
  rintro n table table' x same rfl
  rw [pathCost, pathCost, largestOf, largestOf, List.filterMap_congr same]

/-- Lipschitz bounds are found node by node, if the operators give theirs. -/
lemma exists_pathBounds {seen rest : List (Node α)} {done : List (Int × Price α)}
    (gives : ∀ n ∈ rest, ∀ op, n.operator = some op → ∃ own, op.lipschitz n.overrides = .ok own)
    (found : Tabulates (fun done n x => boundOf done n = .ok x) seen done) :
    ∃ table, pathBounds done rest = .ok table ∧
      Tabulates (fun done n x => boundOf done n = .ok x) (seen ++ rest) table := by
  induction rest generalizing seen done with
  | nil => exact ⟨done, rfl, (List.append_nil seen).symm ▸ found⟩
  | cons n rest ih =>
    rw [List.forall_mem_cons] at gives
    have bound : ∃ x, boundOf done n = .ok x := by
      unfold boundOf
      cases op : n.operator with
      | none => exact ⟨_, rfl⟩
      | some op' =>
        obtain ⟨own, given⟩ := gives.1 op' op
        simp only [given]
        rcases own with _ | own
        · exact ⟨_, rfl⟩
        · rcases (n.sources.filterMap fun s => fetch s done).mapM Price.value? with _ | _ | _ <;>
            exact ⟨_, rfl⟩
    obtain ⟨x, bound⟩ := bound
    obtain ⟨table, done', found'⟩ := ih gives.2 (found.snoc bound)
    refine ⟨table, ?_, by rwa [List.append_assoc] at found'⟩
    rw [pathBounds, bound]
    exact done'

/-- The bound of a node looks at the nodes that it reads only. -/
lemma local_boundOf : Local fun done (n : Node α) x => boundOf done n = .ok x := by
  intro n table table' x same bound
  rw [boundOf, List.filterMap_congr same] at bound
  rw [boundOf, bound]

end Network

/-! ### Networks over a catalog -/

open Scalar

/-- Operators whose executors give no bounds of their own. -/
def Catalog.DeclaredBounds [Scalar α] (c : Catalog α) : Prop :=
  ∀ op ∈ c.registered, ∀ params, op.lipschitz params = .ok op.stability

/-- The declared bound of a node; inputs stretch nothing. -/
def Node.declaredBound [One α] (n : Node α) : α :=
  (n.operator.bind (·.stability)).getD 1

namespace Network

variable [Scalar α]

/-- The product of the declared bounds along a path. -/
def stretch (path : List (Node α)) : α :=
  path.foldr (fun n x => n.declaredBound * x) 1

variable {c : Catalog α} {g : Network α} {out m n : Node α} {op : Operator α} {path : List (Node α)}
  {nodes : List (Node α)} [Exact α]

/-- Nodes made from a catalog have no negative costs. -/
lemma Over.costOf_nonneg (belongs : g.Over c) (reachable : c.Reachable) (mem : n ∈ g.nodes)
    (metric : String) : 0 ≤ n.costOf metric := by
  rw [Node.costOf]
  cases uses : n.operator with
  | none => exact Scalar.le_refl 0
  | some op =>
    obtain ⟨_, _, checked⟩ := reachable.allChecked op (belongs.registered n mem op uses)
    rw [Option.map_some, Option.getD_some, Operator.costOf]
    cases declared : op.cost.get? metric with
    | none => exact Scalar.le_refl 0
    | some x =>
      have notNegative :=
        (Catalog.checkSignature_eq_ok checked).2.2.1 _ (Table.mem_of_get? declared)
      exact Exact.le_iff_not_lt.2 notNegative

variable [Arithmetic α]

omit [Exact α] [Arithmetic α] in
/-- A node costs what its operator costs. -/
lemma costOf_of_uses (uses : n.operator = some op) (metric : String) :
    n.costOf metric = op.costOf metric := by
  rw [Node.costOf, uses]
  rfl

/-- The sum of the costs of live nodes is at least that of each of them. -/
lemma Over.le_additive (belongs : g.Over c) (reachable : c.Reachable)
    (there : ∀ n ∈ nodes, n ∈ g.nodes) (mem : n ∈ nodes) (uses : n.operator = some op)
    (metric : String) : op.costOf metric ≤
      Scalar.sum ((nodes.filter fun n => !n.isInput).map (·.costOf metric)) := by
  rw [← costOf_of_uses uses metric]
  refine le_sum (fun x hx => ?_) (List.mem_map_of_mem (List.mem_filter.2 ⟨mem, ?_⟩))
  · obtain ⟨m, hm, rfl⟩ := List.mem_map.1 hx
    exact belongs.costOf_nonneg reachable (there m (List.mem_filter.1 hm).1) metric
  · rw [Node.isInput, uses]
    rfl

/-- The largest value of some nodes is not below any of theirs. -/
lemma le_largestOf {table : List (Int × α)} {start y : α} {ids : List Int} {s : Int} (mem : s ∈ ids)
    (found : fetch s table = some y) : y ≤ largestOf table start ids := by
  have listed : y ∈ ids.filterMap fun s => fetch s table := List.mem_filterMap.2 ⟨s, mem, found⟩
  rw [largestOf]
  split
  next none => rw [none] at listed; cases listed
  next x xs all => exact le_maximum (all ▸ listed)

omit [Exact α] [Arithmetic α] in
/-- The largest of values that are not negative is not negative. -/
lemma largestOf_nonneg [Cumulative α] {table : List (Int × α)} (nonneg : ∀ p ∈ table, 0 ≤ p.2)
    (ids : List Int) : 0 ≤ largestOf table 0 ids := by
  rw [largestOf]
  split
  next => exact Cumulative.zero_le_zero
  next x xs all =>
    have listed : maximum x xs ∈ ids.filterMap fun s => fetch s table := all ▸ maximum_mem x xs
    obtain ⟨s, -, found⟩ := List.mem_filterMap.1 listed
    exact nonneg _ (mem_of_fetch found)

omit [Exact α] [Arithmetic α] in
/-- Where no node has a negative cost, no path does. -/
lemma pathCosts_nonneg [Cumulative α] {metric : String}
    (nonneg : ∀ n ∈ nodes, 0 ≤ n.costOf metric) :
    ∀ p ∈ pathCosts metric nodes, 0 ≤ p.2 := by
  refine (tabulates_pathCosts metric nodes).forall_mem ?_
  rintro table n x mem before rfl
  unfold pathCost
  split
  next => exact Cumulative.zero_le_zero
  next => exact Cumulative.add_nonneg (largestOf_nonneg before _) (nonneg n mem)

/-- The cost of the most expensive path to the output is at least that of every live node. -/
lemma Over.le_criticalPath (belongs : g.Over c) (reachable : c.Reachable) (sourced : Sourced nodes)
    (live : ∀ n, n ∈ nodes ↔ n ∈ g.nodes ∧ g.Lives n.id) (output : g.output = .ok out)
    (mem : n ∈ nodes) (uses : n.operator = some op) (metric : String) :
    ∃ x, fetch out.id (pathCosts metric nodes) = some x ∧ op.costOf metric ≤ x := by
  have each := (tabulates_pathCosts metric nodes).exists_fetch (local_pathCost metric) sourced
  have nonneg : ∀ p ∈ pathCosts metric nodes, 0 ≤ p.2 := pathCosts_nonneg fun m hm =>
    belongs.costOf_nonneg reachable ((live m).1 hm).1 metric
  have atUse : ∀ m ∈ nodes, ∀ op, m.operator = some op → ∃ x,
      fetch m.id (pathCosts metric nodes) = some x ∧
        x = largestOf (pathCosts metric nodes) 0 m.sources + m.costOf metric := by
    intro m hm op uses
    obtain ⟨x, found, made⟩ := each m hm
    rw [pathCost, Node.isInput, uses, if_neg (by simp)] at made
    exact ⟨x, found, made⟩
  -- what the output depends on costs no more than the output
  have along : ∀ i, Relation.ReflTransGen (Leads g.inputs) out.id i → ∀ y,
      fetch i (pathCosts metric nodes) = some y →
        ∃ x, fetch out.id (pathCosts metric nodes) = some x ∧ y ≤ x := by
    intro i path
    induction path with
    | refl => exact fun y found => ⟨y, found, Scalar.le_refl y⟩
    | tail path leads ih =>
      intro y found
      obtain ⟨m, hm, rfl⟩ := List.mem_map.1 (mem_ids_of_leads leads)
      obtain ⟨⟨op, uses⟩, read⟩ := belongs.reads hm leads
      obtain ⟨z, there, rfl⟩ := atUse m ((live m).2 ⟨hm, out, output, path⟩) op uses
      obtain ⟨x, last, below⟩ := ih _ there
      have cost := belongs.costOf_nonneg reachable hm metric
      have step : y ≤ largestOf (pathCosts metric nodes) 0 m.sources + m.costOf metric :=
        Arithmetic.le_trans (le_largestOf read found) (Arithmetic.le_add_of_nonneg_right cost)
      exact ⟨x, last, Arithmetic.le_trans step below⟩
  obtain ⟨x, found, rfl⟩ := atUse n mem op uses
  obtain ⟨out', output', path⟩ := ((live n).1 mem).2
  obtain rfl := Except.ok.inj (output.symm.trans output')
  obtain ⟨x, last, below⟩ := along n.id path _ found
  have own : n.costOf metric ≤ largestOf (pathCosts metric nodes) 0 n.sources + n.costOf metric :=
    Arithmetic.le_add_of_nonneg_left (largestOf_nonneg nonneg _)
  exact ⟨x, last, costOf_of_uses uses metric ▸ Arithmetic.le_trans own below⟩

/-! ### Lipschitz bounds -/

omit [Exact α] [Arithmetic α] in
/-- A node stretches by its bound what the path after it stretches. -/
lemma stretch_cons (n : Node α) (path : List (Node α)) :
    stretch (n :: path) = n.declaredBound * stretch path :=
  rfl

omit [Exact α] in
/-- A node in the middle of a path stretches by its bound what the others stretch. -/
lemma stretch_middle (before after : List (Node α)) (n : Node α) :
    stretch (before ++ n :: after) = n.declaredBound * stretch (before ++ after) := by
  induction before with
  | nil => rfl
  | cons m before ih =>
    rw [List.cons_append, List.cons_append, stretch_cons, stretch_cons, ih,
      Arithmetic.mul_left_comm]

omit [Scalar α] [Exact α] [Arithmetic α] in
/-- Prices that all have values are known. -/
lemma eq_known_of_mapM {prices : List (Price α)} {values : List α}
    (all : prices.mapM Price.value? = some values) : prices = values.map Price.known := by
  induction prices generalizing values with
  | nil =>
    cases all
    rfl
  | cons price rest ih =>
    rw [List.mapM_cons] at all
    obtain ⟨x, value, more⟩ := Option.bind_eq_some_iff.1 all
    obtain ⟨xs, later, same⟩ := Option.bind_eq_some_iff.1 more
    cases same
    cases price with
    | unknown => cases value
    | known y =>
      cases value
      rw [List.map_cons, ih later]

/-- A known bound is the product of the own one and something that is at least the bound of each
source, which is known. -/
lemma boundOf_eq_known {table : List (Int × Price α)} {x : α}
    (declared : ∀ params, op.lipschitz params = .ok op.stability) (uses : n.operator = some op)
    (bound : boundOf table n = .ok (.known x)) {i : Int} (read : i ∈ n.sources) {price : Price α}
    (found : fetch i table = some price) :
    ∃ own y z, op.stability = some own ∧ price = .known y ∧ y ≤ z ∧ x = own * z := by
  have listed : price ∈ n.sources.filterMap fun s => fetch s table :=
    List.mem_filterMap.2 ⟨i, read, found⟩
  simp only [boundOf, uses, declared, bind, Except.bind, pure, Except.pure] at bound
  cases stable : op.stability with
  | none => rw [stable] at bound; cases bound
  | some own =>
    rw [stable] at bound
    cases all : (n.sources.filterMap fun s => fetch s table).mapM Price.value? with
    | none => rw [all] at bound; cases bound
    | some values =>
      rw [all] at bound
      rw [eq_known_of_mapM all] at listed
      obtain ⟨y, hy, rfl⟩ := List.mem_map.1 listed
      cases values with
      | nil => cases hy
      | cons z zs =>
        cases bound
        exact ⟨own, y, _, rfl, rfl, le_maximum hy, rfl⟩

omit [Exact α] [Arithmetic α] in
/-- Every live node of a network over a catalog with declared bounds has a bound. -/
lemma Over.exists_bounds (belongs : g.Over c) (declared : c.DeclaredBounds)
    (there : ∀ n ∈ nodes, n ∈ g.nodes) : ∃ table, pathBounds [] nodes = .ok table ∧
      Tabulates (fun done n x => boundOf done n = .ok x) nodes table := by
  refine exists_pathBounds (fun n hn op uses => ⟨_, declared op ?_ _⟩) .nil
  exact belongs.registered n (there n hn) op uses

/-- A known bound is at least the product of the declared ones along every path. -/
lemma Over.stretch_le (belongs : g.Over c) (reachable : c.Reachable) (declared : c.DeclaredBounds)
    {table : List (Int × Price α)} (sourced : Sourced nodes)
    (live : ∀ n, n ∈ nodes ↔ n ∈ g.nodes ∧ g.Lives n.id)
    (bounds : Tabulates (fun done n x => boundOf done n = .ok x) nodes table) (way : g.Path n path)
    (lives : g.Lives n.id) {x : α} (found : fetch n.id table = some (.known x)) :
    stretch path ≤ x := by
  have each := bounds.exists_fetch local_boundOf sourced
  induction way generalizing x with
  | @input n hn none =>
    obtain ⟨price, there, made⟩ := each n ((live n).2 ⟨hn, lives⟩)
    obtain rfl := Option.some.inj (found.symm.trans there)
    simp only [boundOf, none] at made
    cases made
    have one : stretch [n] = 1 := by
      rw [stretch_cons, Node.declaredBound, none]
      exact Arithmetic.mul_one 1
    rw [one]
    exact Scalar.le_refl 1
  | @read n op m path hn uses read way ih =>
    obtain ⟨price, there, made⟩ := each n ((live n).2 ⟨hn, lives⟩)
    obtain rfl := Option.some.inj (found.symm.trans there)
    obtain ⟨out, output, leads⟩ := lives
    have onward : g.Lives m.id := by
      refine ⟨out, output, leads.tail (mem_sources_iff.1 ?_)⟩
      rwa [sources_id belongs.distinct hn]
    obtain ⟨price, source, -⟩ := each m ((live m).2 ⟨way.mem, onward⟩)
    have mem := belongs.registered n hn op uses
    obtain ⟨own, y, z, stable, rfl, below, rfl⟩ :=
      boundOf_eq_known (declared op mem) uses made read source
    obtain ⟨_, _, checked⟩ := reachable.allChecked op mem
    have nonneg : 0 ≤ own :=
      Exact.le_iff_not_lt.2 ((Catalog.checkSignature_eq_ok checked).2.2.2 own stable)
    have bound : n.declaredBound = own := by
      rw [Node.declaredBound, uses, Option.bind_some, stable]
      rfl
    rw [stretch_cons, bound]
    exact Arithmetic.mul_le_mul_of_nonneg_left (Arithmetic.le_trans (ih onward source) below) nonneg

/-! ### Prices of networks -/

omit [Exact α] [Arithmetic α] in
/-- The price of a network for a metric, by the kind of the metric. -/
lemma aggregate_eq {kinds : MetricKinds} {metric : String} {kind : MetricKind}
    (isKind : metricKind metric kinds = .ok kind) (ordered : g.liveOrder = .ok nodes)
    (output : g.output = .ok out) : g.aggregate metric kinds =
      match kind with
      | .additive =>
        .ok (.known (Scalar.sum ((nodes.filter fun n => !n.isInput).map (·.costOf metric))))
      | .criticalPath => .ok (.known ((fetch out.id (pathCosts metric nodes)).getD 0))
      | .lipschitz => (pathBounds [] nodes).map fun table =>
        (fetch out.id table).getD .unknown := by
  simp only [aggregate, isKind, ordered, output, bind, Except.bind, pure, Except.pure]
  cases kind with
  | additive => rfl
  | criticalPath => rfl
  | lipschitz => cases pathBounds [] nodes <;> rfl

omit [Exact α] [Arithmetic α] in
/-- Several prices are listed by their metrics. -/
lemma exists_aggregateAll {kinds : MetricKinds} {metrics : List String}
    (each : ∀ m ∈ metrics, ∃ price, g.aggregate m kinds = .ok price) :
    ∃ prices, g.aggregateAll metrics kinds = .ok prices ∧
      ∀ m ∈ metrics, ∃ price, g.aggregate m kinds = .ok price ∧ fetch m prices = some price := by
  have : Nonempty (Price α) := ⟨.unknown⟩
  choose! price own using each
  have keys : ∀ m, m ∈ (Table.ofList (metrics.map fun m => (m, ()))).keys ↔ m ∈ metrics := by
    intro m
    rw [Table.mem_keys_ofList, List.map_map]
    exact (congrArg (m ∈ ·) (List.map_id metrics)).to_iff
  rw [aggregateAll]
  generalize Table.ofList (metrics.map fun m => (m, ())) = table at keys
  have result : ∀ p ∈ table.entries, ∀ y, (do return (p.1, ← g.aggregate p.1 kinds)) = Except.ok y ↔
      True ∧ y = (p.1, price p.1) := by
    intro p hp y
    rw [own p.1 ((keys p.1).1 (List.mem_map_of_mem hp)), true_and]
    exact ⟨fun same => (Except.ok.inj same).symm, fun same => congrArg Except.ok same.symm⟩
  refine ⟨_, (mapM_eq_ok_iff result).2 ⟨fun _ _ => trivial, rfl⟩,
    fun m hm => ⟨price m, own m hm, ?_⟩⟩
  obtain ⟨p, mem, rfl⟩ := List.mem_map.1 ((keys m).2 hm)
  refine fetch_of_mem ?_ (List.mem_map_of_mem mem)
  rw [List.map_map]
  exact table.nodup

end Network

end OperatorNet
