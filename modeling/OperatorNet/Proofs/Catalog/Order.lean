import Mathlib.Data.List.Induction
import OperatorNet.Proofs.Catalog.Reachable
import OperatorNet.Proofs.Scalar.Order
import OperatorNet.Proofs.Sorting
import OperatorNet.Proofs.Tables

/-!
# The order of a catalog

Among operators whose costs are defined (`Operator.Ranked`) the catalog order ranks by cost, and by
name where costs are equal. So there is one way to put operators of different names in order, in
whatever order they are at hand (`inOrder_eq_of_perm`), and it does not matter what is picked out
before or afterwards (`filter_inOrder`).

The index lists, under given kinds, the names of the registered operators of these kinds and no
others (`namesAt_index`), and each name is that of an operator (`map_find?_namesAt`). So asking by
kinds picks out the operators of these kinds and puts them in order (`byKinds_eq`). Where costs are
defined, this is what is left of all operators in order, even if the names were walked in another
order (`inOrder_find?_of_perm`).
-/

namespace OperatorNet

open Scalar (Sortable)

variable {α : Type} [Scalar α]

/-- An operator whose cost in a metric is defined: it compares with itself. -/
def Operator.Ranked (metric : String) (op : Operator α) : Prop :=
  op.costOf metric ≤ op.costOf metric

namespace Catalog

variable {c : Catalog α} {a b : Operator α} {ops ops' : List (Operator α)}

/-- Of two operators with defined costs the one that does not come first costs as much, and has no
earlier name if it costs no more. -/
lemma comesBefore_eq_false [Sortable α] (ha : a.Ranked c.sortMetric) (hb : b.Ranked c.sortMetric) :
    c.comesBefore a b = false ↔ b.costOf c.sortMetric ≤ a.costOf c.sortMetric ∧
      (a.costOf c.sortMetric ≤ b.costOf c.sortMetric → b.name ≤ a.name) := by
  unfold comesBefore
  dsimp only
  by_cases same : a.costOf c.sortMetric ≤ b.costOf c.sortMetric ∧
    b.costOf c.sortMetric ≤ a.costOf c.sortMetric
  · have tied : Scalar.same (a.costOf c.sortMetric) (b.costOf c.sortMetric) = true :=
      decide_eq_true same
    rw [if_pos tied, decide_eq_false_iff_not, String.not_lt]
    exact ⟨fun name => ⟨same.2, fun _ => name⟩, fun later => later.2 same.1⟩
  · have apart : ¬ Scalar.same (a.costOf c.sortMetric) (b.costOf c.sortMetric) = true :=
      fun tied => same (of_decide_eq_true tied)
    rw [if_neg apart, decide_eq_false_iff_not, Sortable.lt_iff_le_not_ge, not_and_not_right]
    constructor
    · intro dearer
      refine ⟨(Sortable.le_total ha hb).elim dearer id, fun le => absurd ⟨le, dearer le⟩ same⟩
    · exact fun later _ => later.1

/-- Of two operators one at most comes before the other, whether their costs are defined or not. -/
lemma comesBefore_asymm [Sortable α] (a b : Operator α) (first : c.comesBefore a b = true) :
    c.comesBefore b a = false := by
  unfold comesBefore at first ⊢
  dsimp only at first ⊢
  by_cases same : Scalar.same (a.costOf c.sortMetric) (b.costOf c.sortMetric) = true
  · have same' : Scalar.same (b.costOf c.sortMetric) (a.costOf c.sortMetric) = true :=
      decide_eq_true (of_decide_eq_true same).symm
    rw [if_pos same, decide_eq_true_eq] at first
    rw [if_pos same', decide_eq_false_iff_not]
    exact String.lt_asymm first
  · have same' : ¬ Scalar.same (b.costOf c.sortMetric) (a.costOf c.sortMetric) = true :=
      fun h => same (decide_eq_true (of_decide_eq_true h).symm)
    rw [if_neg same, decide_eq_true_eq, Sortable.lt_iff_le_not_ge] at first
    rw [if_neg same', decide_eq_false_iff_not, Sortable.lt_iff_le_not_ge]
    exact fun second => first.2 second.1

/-- However costs are, no operator stands right behind one that it comes before. -/
lemma stepwise_inOrder [Sortable α] (ops : List (Operator α)) :
    Stepwise c.comesBefore (c.inOrder ops) :=
  stepwise_sortBy comesBefore_asymm ops

/-- Operators with defined costs can be ranked. -/
lemma ranks_ranked [Sortable α] (c : Catalog α) :
    Ranks fun a b : { op : Operator α // op.Ranked c.sortMetric } => c.comesBefore a b where
  asymm a b first := by
    rw [comesBefore_eq_false b.2 a.2]
    have notLater := (comesBefore_eq_false a.2 b.2).not.1 (ne_false_of_eq_true first)
    rw [not_and_or, Classical.not_imp] at notLater
    obtain cheaper | ⟨le, name⟩ := notLater
    · exact ⟨(Sortable.le_total a.2 b.2).resolve_right cheaper, fun ge => absurd ge cheaper⟩
    · exact ⟨le, fun _ => (String.le_total _ _).resolve_left name⟩
  trans a b c' first second := by
    rw [comesBefore_eq_false b.2 a.2] at first
    rw [comesBefore_eq_false c'.2 b.2] at second
    rw [comesBefore_eq_false c'.2 a.2]
    refine ⟨Sortable.le_trans first.1 second.1, fun ge => ?_⟩
    have back := Sortable.le_trans ge first.1
    exact String.le_trans (first.2 (Sortable.le_trans second.1 ge)) (second.2 back)

/-- The catalog order puts operators in order, if they are ranked. -/
lemma inOrder_inOrder [Sortable α] (ranked : ∀ op ∈ ops, op.Ranked c.sortMetric) :
    InOrder c.comesBefore (c.inOrder ops) :=
  inOrder_sortBy_of_forall c.ranks_ranked ranked

/-- Operators that can be told apart by name have one order. -/
lemma eq_of_inOrder [Sortable α] (ranked : ∀ op ∈ ops, op.Ranked c.sortMetric)
    (apart : ∀ ⦃a⦄, a ∈ ops → ∀ ⦃b⦄, b ∈ ops → a.name = b.name → a = b)
    (ordered : InOrder c.comesBefore ops) (ordered' : InOrder c.comesBefore ops')
    (perm : ops.Perm ops') : ops = ops' := by
  apply ordered.eq_of_perm ordered' perm
  intro a ha b hb first second
  rw [comesBefore_eq_false (ranked a ha) (ranked b hb)] at first
  rw [comesBefore_eq_false (ranked b hb) (ranked a ha)] at second
  exact apart ha hb (String.le_antisymm (second.2 first.1) (first.2 second.1))

/-- Operators that can be told apart by name are put in one order from any other. -/
lemma inOrder_eq_of_perm [Sortable α] (ranked : ∀ op ∈ ops, op.Ranked c.sortMetric)
    (apart : ∀ ⦃a⦄, a ∈ ops → ∀ ⦃b⦄, b ∈ ops → a.name = b.name → a = b) (perm : ops.Perm ops') :
    c.inOrder ops = c.inOrder ops' := by
  have sorted := perm_sortBy c.comesBefore ops
  have sorted' := perm_sortBy c.comesBefore ops'
  apply eq_of_inOrder
  · exact fun op mem => ranked op (sorted.mem_iff.1 mem)
  · exact fun a ha b hb => apart (sorted.mem_iff.1 ha) (sorted.mem_iff.1 hb)
  · exact inOrder_inOrder ranked
  · exact inOrder_inOrder fun op mem => ranked op (perm.mem_iff.2 mem)
  · exact sorted.trans (perm.trans sorted'.symm)

/-- Picking operators out keeps them in order. -/
lemma filter_inOrder [Sortable α] (ranked : ∀ op ∈ ops, op.Ranked c.sortMetric)
    (distinct : (ops.map (·.name)).Nodup) (p : Operator α → Bool) :
    (c.inOrder ops).filter p = c.inOrder (ops.filter p) := by
  have sorted := perm_sortBy c.comesBefore ops
  apply eq_of_inOrder
  · exact fun op mem => ranked op (sorted.mem_iff.1 (List.mem_of_mem_filter mem))
  · exact List.inj_on_of_nodup_map
      (((sorted.map _).nodup_iff.2 distinct).sublist (List.filter_sublist.map _))
  · exact (inOrder_inOrder ranked).sublist List.filter_sublist
  · exact inOrder_inOrder fun op mem => ranked op (List.mem_of_mem_filter mem)
  · exact (sorted.filter p).trans (perm_sortBy c.comesBefore _).symm

end Catalog

end OperatorNet

namespace OperatorNet

/-! ### What the index finds -/

variable {α : Type} {op : Operator α} {key : KindKey}

/-- A name is entered under its own kinds only. -/
lemma KindIndex.namesAt_enter {index : KindIndex} : (index.enter op).namesAt key =
    if op.kindKey = key ∧ op.name ∉ index.namesAt key then index.namesAt key ++ [op.name]
    else index.namesAt key := by
  by_cases same : op.kindKey = key
  · subst same
    rw [namesAt, enter, Table.get?_insert_self, Option.getD_some]
    by_cases old : op.name ∈ index.namesAt op.kindKey <;> simp [old]
  · rw [if_neg fun h => same h.1, namesAt, enter, Table.get?_insert_of_ne _ (Ne.symm same)]
    rfl

/-- Operators of different names are entered in their order, except those that are there already. -/
lemma KindIndex.namesAt_foldl_enter {index : KindIndex} {ops : List (Operator α)}
    (distinct : (ops.map (·.name)).Nodup) : (ops.foldl enter index).namesAt key =
      index.namesAt key ++
        ((ops.filter (·.kindKey = key)).map (·.name)).filter (· ∉ index.namesAt key) := by
  induction ops generalizing index with
  | nil => exact (List.append_nil _).symm
  | cons op rest ih =>
    obtain ⟨new, distinct⟩ := List.nodup_cons.1 distinct
    rw [List.foldl_cons, ih distinct, namesAt_enter]
    by_cases same : op.kindKey = key
    · by_cases old : op.name ∈ index.namesAt key
      · rw [if_neg fun h => h.2 old, List.filter_cons_of_pos (by simpa using same), List.map_cons,
          List.filter_cons_of_neg (by simpa using old)]
      · rw [if_pos ⟨same, old⟩, List.filter_cons_of_pos (by simpa using same), List.map_cons,
          List.filter_cons_of_pos (by simpa using old), List.append_assoc, List.singleton_append]
        refine congrArg (fun names => index.namesAt key ++ op.name :: names) ?_
        -- the name that was entered is none of the later ones
        refine List.filter_congr fun name mem => ?_
        have other : name ≠ op.name := by
          rintro rfl
          exact new (List.map_subset _ List.filter_sublist.subset mem)
        simp [other]
    · rw [if_neg fun h => same h.1, List.filter_cons_of_neg (by simpa using same)]

/-- The same names are entered in whatever order the operators come. -/
lemma KindIndex.perm_namesAt_foldl_enter {index : KindIndex} {ops ops' : List (Operator α)}
    (distinct : (ops.map (·.name)).Nodup) (perm : ops.Perm ops') :
    ((ops.foldl enter index).namesAt key).Perm ((ops'.foldl enter index).namesAt key) := by
  rw [namesAt_foldl_enter distinct, namesAt_foldl_enter ((perm.map _).nodup_iff.1 distinct)]
  exact (((perm.filter _).map _).filter _).append_left _

namespace Catalog

variable {c : Catalog α}

/-- The index lists, under all kinds, the names of the registered operators of these kinds in order
of registration, and nothing else. -/
def Indexed (c : Catalog α) : Prop :=
  ∀ key, c.index.namesAt key = (c.registered.filter (·.kindKey = key)).map (·.name)

/-- Nothing is registered in a new catalog, and nothing is listed. -/
lemma indexed_ofKinds (kinds : List String) (sortMetric : String) :
    (ofKinds kinds sortMetric : Catalog α).Indexed :=
  fun _ => rfl

/-- Operators that are registered are listed behind the others. -/
lemma Indexed.extend (indexed : c.Indexed) {ops : List (Operator α)}
    (distinct : ((c.registered ++ ops).map (·.name)).Nodup) : (c.extend ops distinct).Indexed := by
  intro key
  rw [List.map_append, List.nodup_append] at distinct
  obtain ⟨-, distinct, apart⟩ := distinct
  -- none of the names is listed already
  have new : ∀ name ∈ (ops.filter (·.kindKey = key)).map (·.name),
      decide (name ∉ (c.registered.filter (·.kindKey = key)).map (·.name)) = true := by
    refine fun name mem => decide_eq_true fun old => ?_
    exact apart name (List.map_subset _ List.filter_sublist.subset old) name
      (List.map_subset _ List.filter_sublist.subset mem) rfl
  change (ops.foldl KindIndex.enter c.index).namesAt key = _
  rw [KindIndex.namesAt_foldl_enter distinct, indexed key, List.filter_eq_self.2 new,
    ← List.map_append, ← List.filter_append]
  rfl

/-- Every listed name is that of a registered operator. -/
lemma Indexed.map_find?_namesAt (indexed : c.Indexed) (key : KindKey) :
    (c.index.namesAt key).map c.find? = (c.registered.filter (·.kindKey = key)).map some := by
  rw [indexed, List.map_map]
  exact List.map_congr_left fun op mem => find?_name (List.mem_of_mem_filter mem)

/-- The listed names lead to the operators of these kinds. -/
lemma Indexed.filterMap_find?_namesAt (indexed : c.Indexed) (key : KindKey) :
    (c.index.namesAt key).filterMap c.find? = c.registered.filter (·.kindKey = key) := by
  have found := congrArg (List.filterMap id) (indexed.map_find?_namesAt key)
  rw [List.filterMap_map, List.filterMap_map] at found
  exact found.trans List.filterMap_some

/-- The listed names lead to the operators of these kinds in whatever order they are walked. -/
lemma Indexed.perm_find?_of_perm (indexed : c.Indexed) {names : List String}
    (perm : names.Perm (c.index.namesAt key)) :
    (names.filterMap c.find?).Perm (c.registered.filter (·.kindKey = key)) :=
  indexed.filterMap_find?_namesAt key ▸ perm.filterMap c.find?

variable [Scalar α]

/-- Asking by kinds gives the operators of these kinds in order. -/
theorem Indexed.byKinds_eq (indexed : c.Indexed) (inputs : List String) (output : String) :
    c.byKinds inputs output =
      c.inOrder
        (c.registered.filter (·.kindKey = (inputs.map normalizeTag, normalizeTag output))) := by
  rw [byKinds, indexed.filterMap_find?_namesAt]

/-- If their costs are defined, these operators come in the catalog order. -/
theorem Indexed.inOrder_find?_of_perm [Scalar.Sortable α] (indexed : c.Indexed)
    (ranked : ∀ op ∈ c.registered, op.Ranked c.sortMetric) {names : List String}
    (perm : names.Perm (c.index.namesAt key)) :
    c.inOrder (names.filterMap c.find?) = c.operators.filter (·.kindKey = key) := by
  have distinct := c.distinct.sublist (List.filter_sublist (p := (·.kindKey = key)) |>.map _)
  rw [operators, filter_inOrder ranked c.distinct]
  refine (inOrder_eq_of_perm (fun op mem => ?_) (List.inj_on_of_nodup_map distinct)
    (indexed.perm_find?_of_perm perm).symm).symm
  exact ranked op (List.mem_of_mem_filter mem)

end Catalog

end OperatorNet

/-! ### Operators that differ in name and cost -/

namespace OperatorNet.Catalog

namespace Sample

/-- An operator with a cost. -/
def charged (name : String) (cost : Float) : Operator Float :=
  { name, inTypes := [⟨"path", [], "l2", .empty⟩], outType := ⟨"feature", [], "l2", .empty⟩,
    differentiable := false, invariance := .empty, stability := none,
      cost := .ofList [("cost", cost)], params := .empty, adapter := false, executor := none }

/-- The catalog without operators. -/
def vacant : Catalog Float :=
  .ofKinds ["path", "feature"] "cost"

end Sample

end OperatorNet.Catalog
