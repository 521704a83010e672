import OperatorNet.Proofs.Catalog.Loading
import OperatorNet.Proofs.Cost.Overage
import OperatorNet.Proofs.Cost.Prices
import OperatorNet.Proofs.Network.Declared
import OperatorNet.Proofs.Scalar.Order

/-!
# Declared resources

A mapping that is loaded has a finite stability bound, and none of its numbers is below zero; but
its costs are only compared with zero, so one that is undefined gets in (`Operator.Loaded.cost`).
Limits are above zero. Sums of costs that are not negative are no negative numbers, even where they
are rounded or infinite (`aggregate_nonneg`), so a budget is met exactly when every price is known
and at most its limit, unless an operator has an undefined cost: that makes a price which is within
every limit (`resources_undefined`).
-/

namespace OperatorNet

open Catalog Scalar
open Check (Fields)

/-- An operator that was registered when mappings were loaded. -/
def Operator.Loaded (op : Operator Float) : Prop :=
  ∃ (c : Catalog Float) (docs : List Fields) (executors : Executors) (freeze : Bool),
    op ∈ (c.load (documents docs) executors freeze).catalog.registered ∧ op ∉ c.registered

/-! ### Operators -/

section

variable {c : Catalog Float} {executors : Executors} {docs : List Fields} {f : Fields}
    {d : Declaration} {op : Operator Float}

/-- The stability that is read from an accepted declaration is finite. -/
lemma isFinite_of_accepted (accepted : Declaration.ofData (.mapping f) = .accepted d) {s : Float}
    (declared : d.stability = some s) : s.isFinite = true := by
  rw [Declaration.ofData, Check.record, Check.andThen_eq_accepted] at accepted
  obtain ⟨d', -, finite⟩ := accepted
  unfold Declaration.checkFinite at finite
  split at finite
  next x has =>
    split at finite
    next isFinite =>
      cases finite
      cases has.symm.trans declared
      exact isFinite
    next => cases finite
  next has =>
    cases finite
    cases has.symm.trans declared

/-- A built operator has the stability that is declared. -/
lemma Catalog.stability_build {executor : Option (Executor Float)}
    (built : c.build d executor = .ok op) :
    op.stability = d.stability := by
  simp only [build, bind_eq_ok, pure_eq_ok] at built
  obtain ⟨inTypes, -, outType, -, rfl⟩ := built
  rfl

/-- What is there after loading was there before, or it was admitted. -/
lemma Catalog.exists_admits_of_mem_loadFrom {report : LoadReport}
    (mem : op ∈ ((Cataloguing.loadFrom executors report (documents docs)).run c).2.registered) :
    op ∈ c.registered ∨ ∃ c' f d, f ∈ docs ∧ Admits c' executors f d op := by
  induction docs generalizing c report with
  | nil => exact .inl mem
  | cons f rest ih =>
    have later : (∃ c' f d, f ∈ rest ∧ Admits c' executors f d op) →
        ∃ c' f' d, f' ∈ f :: rest ∧ Admits c' executors f' d op :=
      fun ⟨c', f', d, mem, admits⟩ => ⟨c', f', d, List.mem_cons_of_mem _ mem, admits⟩
    rw [run_loadFrom_cons] at mem
    split at mem
    next registered c₁ entered =>
      obtain ⟨d, op', distinct, admits, -, rfl⟩ := ends_enter.of_ok entered
      rcases ih mem with there | found
      · rcases List.mem_append.1 there with old | new
        · exact .inl old
        · obtain rfl := List.mem_singleton.1 new
          exact .inr ⟨c, f, d, List.mem_cons_self .., admits⟩
      · exact .inr (later found)
    next fault c₁ failed =>
      obtain rfl := ends_enter.of_error failed
      split at mem
      next => exact (ih mem).imp_right later
      next => exact .inl mem

namespace Operator.Loaded

/-- A loaded operator was admitted from a document. -/
lemma exists_admits (loaded : op.Loaded) : ∃ c executors f d, Admits c executors f d op := by
  obtain ⟨c, docs, executors, freeze, mem, new⟩ := loaded
  have same : (c.load (documents docs) executors freeze).catalog.registered =
      ((Cataloguing.loadFrom executors .empty (documents docs)).run c).2.registered := by
    rw [load, Cataloguing.attempt, Cataloguing.load, run_bind]
    rcases (Cataloguing.loadFrom executors .empty (documents docs)).run c with ⟨_ | _, c'⟩
    · rfl
    · cases freeze <;> rfl
  rw [same] at mem
  obtain old | ⟨c', f, d, -, admits⟩ := exists_admits_of_mem_loadFrom mem
  · exact absurd old new
  · exact ⟨c', executors, f, d, admits⟩

/-- A stability bound is a finite number that is not negative. -/
lemma stability (loaded : op.Loaded) {s : Float} (bounded : op.stability = some s) :
    s.isFinite = true ∧ 0 ≤ s := by
  obtain ⟨c, executors, f, d, admits⟩ := loaded.exists_admits
  have finite : s.isFinite = true :=
    isFinite_of_accepted admits.declared ((stability_build admits.built).symm.trans bounded)
  exact ⟨finite, le_of_not_lt (Unbounded.le_self finite) Cumulative.zero_le_zero
    ((checkSignature_eq_ok admits.checked).2.2.2 s bounded)⟩

/-- A cost is not negative, or it is undefined. -/
lemma cost (loaded : op.Loaded) {p : String × Float} (mem : p ∈ op.cost.entries) :
    0 ≤ p.2 ∨ p.2.isNaN = true := by
  obtain ⟨c, executors, f, d, admits⟩ := loaded.exists_admits
  cases undefined : p.2.isNaN with
  | true => exact .inr rfl
  | false => exact .inl (le_of_not_lt (le_self_iff.2 undefined) Cumulative.zero_le_zero
      ((checkSignature_eq_ok admits.checked).2.2.1 p mem))

/-- A loaded operator has no negative cost where its cost is defined. -/
lemma costOf_nonneg (loaded : op.Loaded) {metric : String}
    (known : (op.costOf metric).isNaN = false) :
    0 ≤ op.costOf metric := by
  unfold costOf at known ⊢
  cases declared : op.cost.get? metric with
  | none => exact Cumulative.zero_le_zero
  | some x =>
    rw [declared] at known
    refine (loaded.cost (Table.mem_of_get? declared)).resolve_right fun undefined => ?_
    exact Bool.false_ne_true (known.symm.trans undefined)

end Operator.Loaded

end

/-! ### Budgets -/

namespace Budget

variable {b : Budget Float} {prices : Prices Float} {limit x : Float}

/-- The fields of a mapping are its pairs. -/
lemma pairsOf_mapping (fields : Fields) :
    pairsOf (.mapping fields) = .ok (fields.map fun p => (.text p.1, p.2)) := by
  cases fields <;> rfl

/-- Numbers are limits exactly when all of them are above zero. -/
lemma ofData_eq_ok_iff {limits : Table String Float} :
    (∃ b, b.limits = limits ∧
      ofData (.mapping (limits.entries.map fun p => (p.1, .real p.2))) = .ok b) ↔
        ∀ p ∈ limits.entries, 0 < p.2 := by
  constructor
  · rintro ⟨b, rfl, -⟩
    exact b.positive
  · intro positive
    have made : ofTable? limits = some ⟨limits, positive⟩ := dif_pos positive
    have read : ofLimits limits.entries = .accepted ⟨limits, positive⟩ := by
      rw [ofLimits, Table.ofList_entries, made]
    refine ⟨⟨limits, positive⟩, rfl, ?_⟩
    rw [ofData, pairsOf_mapping]
    refine Check.toExcept_eq_ok.2
      (Check.under_eq_accepted.2 (Check.andThen_eq_accepted.2 ⟨_, ?_, read⟩))
    rw [List.map_map, List.map_map]
    exact Check.all_eq_accepted.2 rfl

/-- A positive limit is not below a cost that is at most the limit or undefined. -/
lemma not_lt_iff (positive : 0 < limit) : ¬ limit < x ↔ x ≤ limit ∨ x.isNaN = true := by
  have defined : limit ≤ limit :=
    le_self_iff.2 (isNaN_of_le (Sortable.lt_iff_le_not_ge.1 positive).1).2
  constructor
  · intro within
    cases undefined : x.isNaN with
    | true => exact .inr rfl
    | false => exact .inl (le_of_not_lt defined (le_self_iff.2 undefined) within)
  · rintro (le | undefined) less
    · exact (Sortable.lt_iff_le_not_ge.1 less).2 le
    · have known := (isNaN_of_le (Sortable.lt_iff_le_not_ge.1 less).1).2
      exact Bool.false_ne_true (known.symm.trans undefined)

/-- A budget is met when every price is known and at most its limit, or undefined. -/
lemma satisfiedBy_iff_le : b.satisfiedBy prices = true ↔ ∀ p ∈ b.limits.entries, ∃ x,
    fetch p.1 prices = some (.known x) ∧ (x ≤ p.2 ∨ x.isNaN = true) := by
  rw [satisfiedBy_iff]
  refine forall₂_congr fun p mem => exists_congr fun x => ?_
  rw [not_lt_iff (b.positive p mem)]
  refine and_congr_left' ?_
  cases fetch p.1 prices with
  | none => exact ⟨nofun, nofun⟩
  | some price => exact Option.some_inj.symm

end Budget

/-! ### Prices -/

namespace Network

variable {α : Type} [Scalar α] {g : Network α} {metric : String} {kinds : MetricKinds}
    {price : Price α}

/-- A metric that is added up over nodes or along paths. -/
def Summed (kinds : MetricKinds) (metric : String) : Prop :=
  metricKind metric kinds = .ok .additive ∨ metricKind metric kinds = .ok .criticalPath

omit [Scalar α] in
/-- The live nodes in order are nodes of the network. -/
lemma mem_of_liveOrder {nodes : List (Node α)} (ordered : g.liveOrder = .ok nodes) {n : Node α}
    (mem : n ∈ nodes) : n ∈ g.nodes := by
  simp only [liveOrder, bind_eq_ok] at ordered
  obtain ⟨rs, -, refs, -, found⟩ := ordered
  obtain ⟨r, -, there⟩ := exists_of_mem_forall₂ (mapM_eq_ok.1 found) mem
  simp only [nodeAt, Ref.find, bind_eq_ok] at there
  obtain ⟨-, -, there⟩ := there
  split at there
  next m look =>
    cases there
    obtain ⟨i, -, look⟩ := Option.bind_eq_some_iff.1 look
    exact List.mem_of_find?_eq_some look
  next => exact absurd there fail_ne_ok

/-- Where no node has a negative cost, what is summed is a number that is not negative. -/
lemma aggregate_nonneg [Cumulative α] (nonneg : ∀ n ∈ g.nodes, 0 ≤ n.costOf metric)
    (summed : Summed kinds metric) (priced : g.aggregate metric kinds = .ok price) :
    ∃ x, price = .known x ∧ 0 ≤ x := by
  simp only [aggregate, bind_eq_ok] at priced
  obtain ⟨kind, isKind, nodes, ordered, out, output, priced⟩ := priced
  have each : ∀ n ∈ nodes, 0 ≤ n.costOf metric := fun n mem =>
    nonneg n (mem_of_liveOrder ordered mem)
  rcases summed with additive | criticalPath
  · cases additive.symm.trans isKind
    cases priced
    refine ⟨_, rfl, sum_nonneg (List.forall_mem_map.2 fun n mem => ?_)⟩
    exact each n (List.mem_filter.1 mem).1
  · cases criticalPath.symm.trans isKind
    cases priced
    refine ⟨_, rfl, ?_⟩
    cases found : fetch out.id (pathCosts metric nodes) with
    | none => exact Cumulative.zero_le_zero
    | some x => exact pathCosts_nonneg each _ (mem_of_fetch found)

/-- A price that is listed for a metric is the price for it. -/
lemma aggregate_of_fetch {metrics : List String} {prices : Prices α}
    (priced : g.aggregateAll metrics kinds = .ok prices)
    (found : fetch metric prices = some price) :
    g.aggregate metric kinds = .ok price := by
  obtain ⟨p, -, made⟩ := exists_of_mem_forall₂ (mapM_eq_ok.1 priced) (mem_of_fetch found)
  simp only [bind_eq_ok, pure_eq_ok] at made
  obtain ⟨price', own, same⟩ := made
  cases same
  exact own

end Network

open Network in
/-- A budget is met by what costs of loaded operators sum up to, none of them undefined, when every
price is at most its limit. -/
lemma Budget.satisfiedBy_iff_of_loaded {g : Network Float} {b : Budget Float}
    {metrics : List String} {kinds : MetricKinds} {prices : Prices Float}
    (loaded : ∀ n ∈ g.nodes, ∀ op, n.operator = some op → op.Loaded)
    (summed : ∀ p ∈ b.limits.entries, Summed kinds p.1)
    (known : ∀ n ∈ g.nodes, ∀ op, n.operator = some op →
      ∀ p ∈ b.limits.entries, (op.costOf p.1).isNaN = false)
    (priced : g.aggregateAll metrics kinds = .ok prices) :
    b.satisfiedBy prices = true ↔
      ∀ p ∈ b.limits.entries, ∃ x, fetch p.1 prices = some (.known x) ∧ x ≤ p.2 := by
  rw [satisfiedBy_iff_le]
  refine forall₂_congr fun p mem => exists_congr fun x => and_congr_right fun found => ?_
  refine or_iff_left fun undefined => ?_
  have nonneg : ∀ n ∈ g.nodes, 0 ≤ n.costOf p.1 := by
    intro n hn
    cases uses : n.operator with
    | none =>
      rw [Node.costOf, uses]
      exact Cumulative.zero_le_zero
    | some op =>
      rw [costOf_of_uses uses]
      exact (loaded n hn op uses).costOf_nonneg (known n hn op uses p mem)
  obtain ⟨y, same, le⟩ := aggregate_nonneg nonneg (summed p mem) (aggregate_of_fetch priced found)
  cases same
  exact Bool.false_ne_true ((isNaN_of_le le).2.symm.trans undefined)

/-- Loaded operators have finite stability bounds and costs that are not negative or undefined,
limits are positive, and a budget is met when every price is known and at most its limit or
undefined. No price is undefined that sums up costs of loaded operators of which none is. -/
theorem resources_spec (op : Operator Float) (d : Data Float) (limits : Table String Float)
    (b : Budget Float) (g : Network Float) :
    (op.Loaded → (∀ s, op.stability = some s → s.isFinite = true ∧ 0 ≤ s) ∧
      ∀ p ∈ op.cost.entries, 0 ≤ p.2 ∨ p.2.isNaN = true) ∧
    (∀ accepted, Budget.ofData d = .ok accepted → ∀ p ∈ accepted.limits.entries,
      (0 : Float) < p.2) ∧
    ((∃ accepted, accepted.limits = limits ∧
      Budget.ofData (.mapping (limits.entries.map fun p => (p.1, .real p.2))) = .ok accepted) ↔
        ∀ p ∈ limits.entries, 0 < p.2) ∧
    (∀ prices, b.satisfiedBy prices = true ↔ ∀ p ∈ b.limits.entries, ∃ x,
      fetch p.1 prices = some (.known x) ∧ (x ≤ p.2 ∨ x.isNaN = true)) ∧
    ∀ metrics kinds prices,
      (∀ n ∈ g.nodes, ∀ op, n.operator = some op → op.Loaded ∧
        ∀ p ∈ b.limits.entries, (op.costOf p.1).isNaN = false) →
      (∀ p ∈ b.limits.entries, Network.Summed kinds p.1) →
        g.aggregateAll metrics kinds = .ok prices →
      (b.satisfiedBy prices = true ↔
        ∀ p ∈ b.limits.entries, ∃ x, fetch p.1 prices = some (.known x) ∧ x ≤ p.2) :=
  ⟨fun loaded => ⟨fun _ => loaded.stability, fun _ => loaded.cost⟩,
    fun accepted _ => accepted.positive,
    Budget.ofData_eq_ok_iff, fun _ => Budget.satisfiedBy_iff_le,
    fun _ _ _ each summed priced =>
      Budget.satisfiedBy_iff_of_loaded (fun n hn op uses => (each n hn op uses).1) summed
        (fun n hn op uses => (each n hn op uses).2) priced⟩

/-! ### One operator and its cost -/

namespace Network.Sample

/-- An entry with a cost. -/
def costly (cost : Float) : Fields :=
  [("name", .text "step"), ("in", .text "path"), ("out", .text "path"), ("stability", .real 1),
    ("cost", .mapping [("cost", .real cost)])]

/-- A catalog into which the entry is loaded. -/
def stocked (cost : Float) : Catalog Float :=
  (Catalog.Sample.plain.load (documents [costly cost]) [] true).catalog

/-- A network with one use of the operator. -/
def used (cost : Float) : Network Float :=
  build (stocked cost) "g" [.input "x" (typeOf "path" []), .node (.named "step") [0] .empty,
    .output 1]

/-- A limit for the cost. -/
def atMostOne : Budget Float :=
  ⟨.ofList [("cost", 1)], by decide +kernel⟩

/-- All operators of the stocked catalog were loaded. -/
lemma loaded_stocked {cost : Float} : ∀ op ∈ (stocked cost).registered, op.Loaded := fun _ mem =>
  ⟨Catalog.Sample.plain, [costly cost], [], true, mem, List.not_mem_nil⟩

/-- What is used is loaded. -/
lemma registered_used {cost : Float} (normal : (stocked cost).Normal) {n : Node Float}
    (mem : n ∈ (used cost).nodes) {op : Operator Float} (uses : n.operator = some op) :
    op ∈ (stocked cost).registered := by
  refine (declared_build normal "g" fun step given => ?_).operators n mem op uses
  simp only [List.mem_cons, List.not_mem_nil, or_false] at given
  rcases given with rfl | rfl | rfl
  case inl =>
    change (typeOf "path" []).Normal
    decide
  all_goals exact trivial

end Network.Sample

open Network.Sample

/-- An operator with a cost of one half is within a limit of one. -/
theorem resources_half :
    (∃ op : Operator Float, op.Loaded ∧ (∀ s, op.stability = some s → s.isFinite = true ∧ 0 ≤ s) ∧
      ∀ p ∈ op.cost.entries, 0 ≤ p.2 ∨ p.2.isNaN = true) ∧
    (∃ b, Budget.ofData (.mapping [("cost", .real 1)]) = .ok b ∧ ∀ p ∈ b.limits.entries, 0 < p.2) ∧
    (∀ n ∈ (used 0.5).nodes, ∀ op, n.operator = some op → op.Loaded ∧
      ∀ p ∈ atMostOne.limits.entries, (op.costOf p.1).isNaN = false) ∧
    (∀ p ∈ atMostOne.limits.entries, Network.Summed .none p.1) ∧
    ∃ prices, (used 0.5).aggregateAll atMostOne.metrics .none = .ok prices ∧
      atMostOne.satisfiedBy prices = true ∧
      ∀ p ∈ atMostOne.limits.entries, ∃ x, fetch p.1 prices = some (.known x) ∧ x ≤ p.2 := by
  obtain ⟨op, mem⟩ : ∃ op, op ∈ (stocked 0.5).registered :=
    List.exists_mem_of_ne_nil _ (by decide +kernel)
  have loaded := loaded_stocked op mem
  obtain ⟨ofLoaded, accepted, accepts, -, met⟩ :=
    resources_spec op (.mapping [("cost", .real 1)]) atMostOne.limits atMostOne (used 0.5)
  obtain ⟨b, -, given⟩ := accepts.2 atMostOne.positive
  have normal : (stocked 0.5).Normal := by
    unfold Catalog.Normal
    decide +kernel
  have known : ∀ op ∈ (stocked 0.5).registered, ∀ p ∈ atMostOne.limits.entries,
      (op.costOf p.1).isNaN = false := by
    decide +kernel
  have each : ∀ n ∈ (used 0.5).nodes, ∀ op, n.operator = some op → op.Loaded ∧
      ∀ p ∈ atMostOne.limits.entries, (op.costOf p.1).isNaN = false := by
    intro n hn op uses
    have there := registered_used normal hn uses
    exact ⟨loaded_stocked op there, known op there⟩
  have summed : ∀ p ∈ atMostOne.limits.entries, Network.Summed .none p.1 := by
    intro p hp
    obtain rfl := List.mem_singleton.1 hp
    exact .inl rfl
  have found : ((used 0.5).aggregateAll atMostOne.metrics .none).toOption.map
      atMostOne.satisfiedBy = some true := by
    decide +kernel
  obtain ⟨prices, priced, satisfied⟩ := Option.map_eq_some_iff.1 found
  rw [toOption_eq_some] at priced
  exact ⟨⟨op, loaded, ofLoaded loaded⟩, ⟨b, given, accepted b given⟩, each, summed, prices, priced,
    satisfied, (met _ _ prices each summed priced).1 satisfied⟩

/-- An undefined cost and an infinite limit get in, and what the cost sums up to is within every
limit. -/
theorem resources_undefined :
    (∃ op : Operator Float, op.Loaded ∧ ∃ p ∈ op.cost.entries, p.2.isNaN = true) ∧
    (∃ b, Budget.ofData (.mapping [("cost", .real (1 / 0))]) = .ok b ∧
      ∃ p ∈ b.limits.entries, p.2.isFinite = false) ∧
    (∀ n ∈ (used (0 / 0)).nodes, ∀ op, n.operator = some op → op.Loaded) ∧
    Network.Summed .none "cost" ∧
    ∃ prices, (used (0 / 0)).aggregateAll atMostOne.metrics .none = .ok prices ∧
      atMostOne.satisfiedBy prices = true ∧
      ¬ ∀ p ∈ atMostOne.limits.entries, ∃ x, fetch p.1 prices = some (.known x) ∧ x ≤ p.2 := by
  -- a cost without a value passes the check of the signature, as no comparison refuses it
  have undefined : ∃ op ∈ (stocked (0 / 0)).registered, ∃ p ∈ op.cost.entries,
      p.2.isNaN = true := by
    decide +kernel
  obtain ⟨op, mem, cost⟩ := undefined
  have positive : ∀ p ∈ (Table.ofList [("cost", (1 / 0 : Float))]).entries, 0 < p.2 := by
    decide +kernel
  obtain ⟨b, unlimited, given⟩ := Budget.ofData_eq_ok_iff.2 positive
  have normal : (stocked (0 / 0)).Normal := by
    unfold Catalog.Normal
    decide +kernel
  -- the aggregate has no value either; the budget is satisfied and the limit is not
  have found : ((used (0 / 0)).aggregateAll atMostOne.metrics .none).toOption.map (fun prices =>
      (atMostOne.satisfiedBy prices,
        ((fetch "cost" prices).bind Price.value?).map fun x => decide (x ≤ 1))) =
      some (true, some false) := by
    decide +kernel
  obtain ⟨prices, priced, within⟩ := Option.map_eq_some_iff.1 found
  obtain ⟨satisfied, above⟩ := Prod.mk.inj within
  rw [toOption_eq_some] at priced
  refine ⟨⟨op, loaded_stocked op mem, cost⟩, ⟨b, given, ?_⟩, fun n hn op uses =>
    loaded_stocked op (registered_used normal hn uses), .inl rfl, prices, priced, satisfied,
      fun every => ?_⟩
  · rw [unlimited]
    decide +kernel
  · obtain ⟨x, there, le⟩ := every ("cost", 1) (List.mem_singleton.2 rfl)
    rw [there] at above
    exact absurd le (of_decide_eq_false (Option.some.inj above))

end OperatorNet
