import OperatorNet.Proofs.Cost.Overage
import OperatorNet.Proofs.Cost.Prices
import OperatorNet.Proofs.Search.Repair
import OperatorNet.Search.Enumeration

/-!
# Operators that exceed a limit

An operator is left out of a search when what it declares for some metric exceeds the limit of that
metric (`Budget.exists_exceeds`). In exact arithmetic a network in which it is live then violates
the budget, whether the metric is added up or summed along paths. Lipschitz bounds may get smaller
along a path: the network can only be within the budget when on every path through the operator the
declared bounds of the others have a product below one (`violates_of_exceededBy`).
-/

namespace OperatorNet

open Scalar

variable {α : Type}

/-- What an operator declares for a metric of a kind. -/
def Operator.declared? [Zero α] (op : Operator α) (metric : String) : MetricKind → Option α
  | .lipschitz => op.stability
  | _ => some (op.costOf metric)

variable [Scalar α]

/-- What an operator declares for a metric of a kind is more than the limit of the metric. -/
def Budget.Exceeds (b : Budget α) (kinds : MetricKinds) (op : Operator α) (metric : String)
    (kind : MetricKind) : Prop :=
  metricKind metric kinds = .ok kind ∧ ∃ limit x, b.limits.get? metric = some limit ∧
    op.declared? metric kind = some x ∧ limit < x

/-- When a check passes for some element there is one that it passes for. -/
lemma exists_of_anyM {ε β : Type} {f : β → Except ε Bool} {xs : List β}
    (passed : xs.anyM f = .ok true) :
    ∃ x ∈ xs, f x = .ok true := by
  induction xs with
  | nil => cases passed
  | cons x rest ih =>
    rw [List.anyM, bind_eq_ok] at passed
    obtain ⟨b, first, later⟩ := passed
    cases b with
    | true => exact ⟨x, List.mem_cons_self .., first⟩
    | false =>
      obtain ⟨y, hy, passes⟩ := ih later
      exact ⟨y, List.mem_cons_of_mem _ hy, passes⟩

variable {b : Budget α} {kinds : MetricKinds} {op : Operator α} {c : Catalog α} {g : Network α}
  {metric : String} {kind : MetricKind} {nodes : List (Node α)} {n out : Node α}

/-- An operator that exceeds a budget does so for some metric. -/
lemma Budget.exists_exceeds (declared : ∀ params, op.lipschitz params = .ok op.stability)
    (exceeded : b.exceededBy kinds op = .ok true) :
    ∃ metric kind, b.Exceeds kinds op metric kind := by
  obtain ⟨metric, -, passed⟩ := exists_of_anyM exceeded
  simp only [bind_eq_ok] at passed
  obtain ⟨limit, limited, kind, isKind, passed⟩ := passed
  have there : b.limits.get? metric = some limit := by
    unfold Budget.limit at limited
    split at limited
    next x found => rw [found, Except.ok.inj limited]
    next => exact absurd limited fail_ne_ok
  refine ⟨metric, kind, isKind, limit, ?_⟩
  cases kind with
  | lipschitz =>
    simp only [declared, bind_eq_ok, pure_eq_ok] at passed
    obtain ⟨_, ⟨⟩, passed⟩ := passed
    cases stable : op.stability with
    | none => rw [stable] at passed; cases passed
    | some x =>
      rw [stable, Option.map_some, Option.getD_some, decide_eq_true_eq] at passed
      exact ⟨x, there, stable, passed⟩
  | additive => exact ⟨_, there, rfl, of_decide_eq_true (pure_eq_ok.1 passed)⟩
  | criticalPath => exact ⟨_, there, rfl, of_decide_eq_true (pure_eq_ok.1 passed)⟩

namespace Network

/-- A network over a catalog has a price in every metric that has a kind. -/
lemma Over.exists_price (belongs : g.Over c) (declared : c.DeclaredBounds)
    (there : ∀ n ∈ nodes, n ∈ g.nodes) (ordered : g.liveOrder = .ok nodes)
    (output : g.output = .ok out) (isKind : metricKind metric kinds = .ok kind) :
    ∃ price, g.aggregate metric kinds = .ok price := by
  rw [aggregate_eq isKind ordered output]
  cases kind with
  | additive => exact ⟨_, rfl⟩
  | criticalPath => exact ⟨_, rfl⟩
  | lipschitz =>
    obtain ⟨table, done, -⟩ := belongs.exists_bounds declared there
    rw [done]
    exact ⟨_, rfl⟩

variable [Exact α] [Arithmetic α]

/-- Where the own bound of an operator is more than the whole one, the declared bounds of the others
have a product below one on every path through the operator. -/
lemma Over.stretch_lt_one (belongs : g.Over c) (reachable : c.Reachable)
    (declared : c.DeclaredBounds) (sourced : Sourced nodes)
    (live : ∀ n, n ∈ nodes ↔ n ∈ g.nodes ∧ g.Lives n.id) (output : g.output = .ok out)
    {table : List (Int × Price α)}
    (bounds : Tabulates (fun done n x => boundOf done n = .ok x) nodes table) (hn : n ∈ g.nodes)
    (uses : n.operator = some op) {own x : α} (declares : op.stability = some own)
    (known : fetch out.id table = some (.known x)) (below : ¬ own ≤ x)
    {before after : List (Node α)} (way : g.Path out (before ++ n :: after)) :
    stretch (before ++ after) < 1 := by
  have whole :=
    belongs.stretch_le reachable declared sourced live bounds way ⟨out, output, .refl⟩ known
  have bound : n.declaredBound = own := by
    rw [Node.declaredBound, uses, Option.bind_some, declares]
    rfl
  rw [stretch_middle, bound] at whole
  -- were the product of the others at least one, the whole one would be at least the own bound
  refine Scalar.lt_iff_not_le.2 fun one => below ?_
  obtain ⟨_, _, checked⟩ := reachable.allChecked op (belongs.registered n hn op uses)
  have nonneg : 0 ≤ own :=
    Exact.le_iff_not_lt.2 ((Catalog.checkSignature_eq_ok checked).2.2.2 own declares)
  have grows : own * 1 ≤ own * stretch (before ++ after) :=
    Arithmetic.mul_le_mul_of_nonneg_left one nonneg
  rw [Arithmetic.mul_one] at grows
  exact Arithmetic.le_trans grows whole

/-- Where an operator that exceeds a limit is live, a price within the limit is a Lipschitz bound,
and on every path through the operator the bounds of the others have a product below one. -/
lemma Over.contracts_of_exceeds (belongs : g.Over c) (reachable : c.Reachable)
    (declared : c.DeclaredBounds) (sourced : Sourced nodes)
    (live : ∀ n, n ∈ nodes ↔ n ∈ g.nodes ∧ g.Lives n.id) (ordered : g.liveOrder = .ok nodes)
    (output : g.output = .ok out) (mem : n ∈ nodes) (uses : n.operator = some op)
    (exceeds : b.Exceeds kinds op metric kind) {x : α}
    (priced : g.aggregate metric kinds = .ok (.known x))
    (within : ∀ limit, b.limits.get? metric = some limit → ¬ limit < x) :
    kind = .lipschitz ∧
      ∀ before after, g.Path out (before ++ n :: after) → stretch (before ++ after) < 1 := by
  obtain ⟨isKind, limit, own, limited, declares, above⟩ := exceeds
  have there : ∀ n ∈ nodes, n ∈ g.nodes := fun n hn => ((live n).1 hn).1
  have below : ¬ own ≤ x := fun le => within limit limited (Scalar.lt_of_lt_of_le above le)
  rw [aggregate_eq isKind ordered output] at priced
  -- only a product of bounds can fall below one of its factors; sums and chains cannot
  cases kind with
  | additive =>
    cases declares
    cases priced
    exact absurd (belongs.le_additive reachable there mem uses metric) below
  | criticalPath =>
    cases declares
    obtain ⟨y, found, le⟩ := belongs.le_criticalPath reachable sourced live output mem uses metric
    rw [found] at priced
    cases priced
    exact absurd le below
  | lipschitz =>
    obtain ⟨table, done, bounds⟩ := belongs.exists_bounds declared there
    rw [done] at priced
    have known : fetch out.id table = some (.known x) := by
      have value : (fetch out.id table).getD .unknown = .known x := Except.ok.inj priced
      cases found : fetch out.id table with
      | none => rw [found] at value; cases value
      | some price => rw [found] at value; exact congrArg some value
    exact ⟨rfl, fun before after way =>
      belongs.stretch_lt_one reachable declared sourced live output bounds
      (there n mem) uses declares known below way⟩

end Network

/-- A network in which an operator is live that is left out for a budget violates the budget, unless
the limits that the operator exceeds are of Lipschitz bounds, and on every path through it the
declared bounds of the others have a product below one. -/
theorem violates_of_exceededBy [Exact α] [Arithmetic α] (reachable : c.Reachable)
    (declared : c.DeclaredBounds) (b : Budget α)
    (kinded : ∀ metric ∈ b.metrics, ∃ kind, metricKind metric kinds = .ok kind)
    (registered : op ∈ c.registered) (exceeded : b.exceededBy kinds op = .ok true)
    (belongs : g.Over c) (valid : g.validate = .ok []) {rs : List Ref} (live : g.live = .ok rs)
    (mem : n ∈ g.nodes) (lives : ∃ r ∈ rs, r.id? = some n.id) (uses : n.operator = some op) :
    ∃ out prices, g.output = .ok out ∧ g.aggregateAll b.metrics kinds = .ok prices ∧
      (∃ before after, g.Path out (before ++ n :: after)) ∧
      (b.satisfiedBy prices = true →
        (∀ metric kind, b.Exceeds kinds op metric kind → kind = .lipschitz) ∧
        ∀ before after, g.Path out (before ++ n :: after) →
          Network.stretch (before ++ after) < 1) := by
  obtain ⟨-, acyclic, supplied, -⟩ := Network.Consistent.of_validate belongs.distinct valid
  obtain ⟨nodes, ordered, sourced, isLive⟩ := Network.exists_liveOrder acyclic belongs.distinct live
  obtain ⟨ids, known, -, isId, -⟩ := Network.live_eq_ok belongs.distinct live
  have here : n ∈ nodes := by
    obtain ⟨r, hr, id⟩ := lives
    have listed : some n.id ∈ ids.map some := known ▸ id ▸ List.mem_map_of_mem hr
    obtain ⟨i, hi, same⟩ := List.mem_map.1 listed
    cases same
    exact (isLive n).2 ⟨mem, (isId n.id).1 hi⟩
  obtain ⟨out, output, -⟩ := ((isLive n).1 here).2
  obtain ⟨prices, priced, each⟩ := Network.exists_aggregateAll fun metric hm => by
    obtain ⟨kind, isKind⟩ := kinded metric hm
    exact belongs.exists_price declared (fun n hn => ((isLive n).1 hn).1) ordered output isKind
  refine ⟨out, prices, output, priced,
    belongs.exists_path_through reachable supplied sourced isLive output here, fun satisfied => ?_⟩
  rw [Budget.satisfiedBy_iff] at satisfied
  -- an exceeded limit that is met all the same is one on a product of bounds, which others bring
  -- down
  have contracts : ∀ metric kind, b.Exceeds kinds op metric kind → kind = .lipschitz ∧
      ∀ before after, g.Path out (before ++ n :: after) →
        Network.stretch (before ++ after) < 1 := by
    intro metric kind exceeds
    have ⟨_, limit, _, limited, _⟩ := exceeds
    have listed : metric ∈ b.metrics :=
      TagSet.mem_ofList.2 (List.mem_map_of_mem (Table.mem_of_get? limited))
    obtain ⟨price, priced, found⟩ := each metric listed
    obtain ⟨x, value, within⟩ := satisfied _ (Table.mem_of_get? limited)
    rw [found, Option.getD_some] at value
    subst value
    refine belongs.contracts_of_exceeds reachable declared sourced isLive ordered output here
      uses exceeds priced fun limit' limited' => ?_
    exact Option.some.inj (limited.symm.trans limited') ▸ within
  obtain ⟨metric, kind, exceeds⟩ := Budget.exists_exceeds (declared op registered) exceeded
  exact ⟨fun metric kind exceeds => (contracts metric kind exceeds).1,
    (contracts metric kind exceeds).2⟩

/-! ### A bound that is taken back -/

namespace Network.Sample

open Decoder.Sample (elementary)
open scoped Decoder.Sample

scoped instance : Arithmetic ℚ :=
  arithmetic_ofField elementary

/-- An operator with a declared bound. -/
def bounded (name : String) (inType outType : PortType) (bound : ℚ) : Operator ℚ :=
  { name, inTypes := [inType], outType, differentiable := true, invariance := .empty
    stability := some bound, cost := .empty, params := .empty, adapter := false, executor := none }

/-- An operator that stretches. -/
def sharpen : Operator ℚ :=
  bounded "sharp" (typeOf "path" [.symbol "X"]) (typeOf "spectrum" [.symbol "X"]) 4

/-- An operator that shrinks what was stretched. -/
def smooth : Operator ℚ :=
  bounded "smooth" (typeOf "spectrum" [.symbol "X"]) (typeOf "feature" [.symbol "X"]) (1 / 4)

/-- The catalog with both operators. -/
def shaping : Catalog ℚ :=
  (Catalog.ofKinds ["path", "spectrum", "feature"] "cost").extend [sharpen, smooth] (by decide)

/-- Both operators can be registered. -/
lemma reachable_shaping : shaping.Reachable := by
  refine .extend (.ofKinds _ _) rfl (List.forall_mem_cons.2 ⟨?_, List.forall_mem_singleton.2 ?_⟩) _
  all_goals with_unfolding_all rfl

/-- The shaping catalog has declared bounds. -/
lemma declaredBounds_shaping : shaping.DeclaredBounds := by
  intro op mem params
  rcases List.mem_cons.1 mem with rfl | later
  · rfl
  · rw [List.mem_singleton.1 later]
    rfl

/-- A limit for the Lipschitz bound. -/
def atMostTwo : Budget ℚ :=
  { limits := .ofList [("lipschitz", 2)]
    positive := by
      change ∀ p ∈ [("lipschitz", (2 : ℚ))], 0 < p.2
      simp }

/-- What is stretched is shrunk again. -/
def shaped : Network ℚ :=
  build shaping "g" [.input "x" (typeOf "path" [.ofNat 3]), .node (.given sharpen) [0] .empty,
    .node (.given smooth) [1] .empty, .output 2]

/-- The shaped network sharpens and then smooths. -/
lemma nodes_shaped : shaped.nodes.map (fun n => (n.id, n.operator, n.inputs)) =
    [(0, none, []), (1, some sharpen, [.id 0]), (2, some smooth, [.id 1])] := by
  with_unfolding_all rfl

/-- The shaped network is made from the shaping catalog. -/
lemma over_shaped : shaped.Over shaping := by
  have listed : ∀ n ∈ shaped.nodes, (n.id, n.operator, n.inputs) ∈
      [(0, none, []), (1, some sharpen, [.id 0]), (2, some smooth, [.id 1])] := fun n hn =>
    nodes_shaped ▸ List.mem_map_of_mem hn
  refine ⟨by decide +kernel, fun n hn op uses => ?_, fun n hn input => ?_⟩
  · have same := listed n hn
    simp only [List.mem_cons, Prod.mk.injEq, List.not_mem_nil, or_false, uses] at same
    rcases same with ⟨-, ⟨⟩, -⟩ | ⟨-, same, -⟩ | ⟨-, same, -⟩
    · cases same
      exact List.mem_cons_self ..
    · cases same
      exact List.mem_cons_of_mem _ (List.mem_cons_self ..)
  · have same := listed n hn
    simp only [List.mem_cons, Prod.mk.injEq, List.not_mem_nil, or_false, input] at same
    rcases same with ⟨-, -, none⟩ | ⟨-, ⟨⟩, -⟩ | ⟨-, ⟨⟩, -⟩
    exact none

/-- The shaped network has a node that sharpens. -/
lemma exists_sharpen : ∃ n ∈ shaped.nodes, n.id = 1 ∧ n.operator = some sharpen := by
  have mem : (1, some sharpen, [.id 0]) ∈ shaped.nodes.map fun n =>
      (n.id, n.operator, n.inputs) := by
    rw [nodes_shaped]
    simp
  obtain ⟨n, hn, same⟩ := List.mem_map.1 mem
  obtain ⟨id, uses⟩ := Prod.mk.inj same
  exact ⟨n, hn, id, (Prod.mk.inj uses).1⟩

/-- Sharpening alone exceeds the budget. -/
lemma exceeded_sharpen : atMostTwo.exceededBy .none sharpen = .ok true := by
  with_unfolding_all rfl

/-- The shaped network is valid. -/
lemma valid_shaped : shaped.validate = .ok [] := by
  with_unfolding_all rfl

/-- All nodes of the shaped network are live. -/
lemma live_shaped : shaped.live = .ok [.id 2, .id 1, .id 0] := by
  with_unfolding_all rfl

/-- The shaped network stays within the budget. -/
lemma priced_shaped :
    shaped.aggregateAll atMostTwo.metrics .none = .ok [("lipschitz", .known 1)] := by
  with_unfolding_all rfl

end Network.Sample

open Network.Sample in
open scoped Decoder.Sample in
/-- An operator that stretches too much on its own, in a network that takes it back. -/
theorem violates_shaped :
    shaping.Reachable ∧ shaping.DeclaredBounds ∧
      (∀ metric ∈ atMostTwo.metrics, ∃ kind, metricKind metric .none = .ok kind) ∧
      sharpen ∈ shaping.registered ∧ atMostTwo.exceededBy .none sharpen = .ok true ∧
      shaped.Over shaping ∧ shaped.validate = .ok [] ∧ shaped.live = .ok [.id 2, .id 1, .id 0] ∧
      ∃ n ∈ shaped.nodes, (∃ r ∈ [Ref.id 2, .id 1, .id 0], r.id? = some n.id) ∧
        n.operator = some sharpen ∧
        ∃ out prices, shaped.output = .ok out ∧
          shaped.aggregateAll atMostTwo.metrics .none = .ok prices ∧
          (∃ before after, shaped.Path out (before ++ n :: after)) ∧
          (atMostTwo.satisfiedBy prices = true →
            (∀ metric kind, atMostTwo.Exceeds .none sharpen metric kind → kind = .lipschitz) ∧
            ∀ before after, shaped.Path out (before ++ n :: after) →
              Network.stretch (before ++ after) < 1) := by
  have kinded : ∀ metric ∈ atMostTwo.metrics, ∃ kind, metricKind metric .none = .ok kind :=
    fun metric _ => ⟨defaultMetricKind metric, rfl⟩
  have registered : sharpen ∈ shaping.registered := List.mem_cons_self ..
  obtain ⟨n, hn, id, uses⟩ := exists_sharpen
  have lives : ∃ r ∈ [Ref.id 2, .id 1, .id 0], r.id? = some n.id :=
    ⟨.id 1, by simp, by rw [id]; rfl⟩
  exact ⟨reachable_shaping, declaredBounds_shaping, kinded, registered, exceeded_sharpen,
    over_shaped, valid_shaped, live_shaped, n, hn, lives, uses,
    violates_of_exceededBy reachable_shaping declaredBounds_shaping atMostTwo kinded registered
      exceeded_sharpen over_shaped valid_shaped live_shaped hn lives uses⟩

open Network.Sample in
open scoped Decoder.Sample in
/-- A network may be within a budget though an operator is live in it that is left out for the
budget. -/
theorem exceeded_but_satisfied :
    ¬ ∀ c : Catalog ℚ, c.Reachable → c.DeclaredBounds → ∀ (b : Budget ℚ) kinds,
      (∀ metric ∈ b.metrics, ∃ kind, metricKind metric kinds = .ok kind) →
      ∀ op ∈ c.registered, b.exceededBy kinds op = .ok true → ∀ g : Network ℚ, g.Over c →
      g.validate = .ok [] → ∀ rs, g.live = .ok rs → ∀ n ∈ g.nodes, (∃ r ∈ rs, r.id? = some n.id) →
      n.operator = some op →
        ∃ prices, g.aggregateAll b.metrics kinds = .ok prices ∧ b.satisfiedBy prices = false := by
  intro always
  obtain ⟨n, hn, id, uses⟩ := exists_sharpen
  obtain ⟨prices, priced, violated⟩ :=
    always shaping reachable_shaping declaredBounds_shaping atMostTwo
    .none (fun metric _ => ⟨defaultMetricKind metric, rfl⟩) sharpen (List.mem_cons_self ..)
    exceeded_sharpen shaped over_shaped valid_shaped _ live_shaped n hn
      ⟨.id 1, by simp, by rw [id]; rfl⟩ uses
  obtain rfl := Except.ok.inj (priced_shaped.symm.trans priced)
  have satisfied : atMostTwo.satisfiedBy [("lipschitz", .known 1)] = true := by decide +kernel
  rw [satisfied] at violated
  cases violated

end OperatorNet
