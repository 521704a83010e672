import OperatorNet.Cost.Budget
import OperatorNet.Proofs.Scalar.Arithmetic

/-!
# Overages in exact arithmetic

A budget is met when every price is known and within its limit (`Budget.satisfiedBy_iff`); then
there is no overage, and else the overage is more than nothing (`lower_overage`). What is infinite
is lower than nothing, and `Amount.Lower` is a strict order.
-/

namespace OperatorNet

open Scalar

variable {α : Type} [Scalar α]

namespace Amount

/-- One amount is lower than another: it is not infinite, and the other one is or is larger. -/
def Lower (a b : Amount α) : Prop :=
  a.isInfinite = false ∧ (b.isInfinite = true ∨ less a b = true)

variable {a b c : Amount α}

/-- Finite amounts are compared by their values. -/
lemma less_finite {x y : α} : less (finite x) (finite y) = true ↔ x < y := by
  rw [less, decide_eq_true_eq]

variable [Exact α]

/-- An amount is infinite when its value is. -/
lemma isInfinite_finite {x : α} : (finite x).isInfinite = !isFinite x := by
  have same : Scalar.same x x = true := by
    simp only [Scalar.same, decide_eq_true_eq, Exact.le_iff_not_lt]
    exact ⟨Exact.lt_irrefl x, Exact.lt_irrefl x⟩
  rw [isInfinite, same, Bool.and_true]

/-- An amount that is not infinite has a finite value. -/
lemma exists_of_isInfinite_eq_false (finite : a.isInfinite = false) :
    ∃ x, a = .finite x ∧ isFinite x = true := by
  cases a with
  | finite x =>
    rw [isInfinite_finite, Bool.not_eq_false'] at finite
    exact ⟨x, rfl, finite⟩
  | infinite => cases finite

/-- No amount is lower than itself. -/
lemma Lower.irrefl : ¬ Lower a a := by
  rintro ⟨notInfinite, infinite | less⟩
  · rw [notInfinite] at infinite
    cases infinite
  · obtain ⟨x, rfl, -⟩ := exists_of_isInfinite_eq_false notInfinite
    exact Exact.lt_irrefl x (less_finite.1 less)

/-- What is lower than something lower is lower. -/
lemma Lower.trans (first : Lower a b) (second : Lower b c) : Lower a c := by
  obtain ⟨x, rfl, finite⟩ := exists_of_isInfinite_eq_false first.1
  obtain ⟨y, rfl, -⟩ := exists_of_isInfinite_eq_false second.1
  refine ⟨first.1, ?_⟩
  rcases first.2 with infinite | before
  · rw [second.1] at infinite
    cases infinite
  rcases second.2 with infinite | after
  · exact .inl infinite
  cases c with
  | infinite => exact .inl rfl
  | finite z =>
    exact .inr (less_finite.2 (Exact.lt_trans (less_finite.1 before) (less_finite.1 after)))

end Amount

namespace Budget

variable {b : Budget α} {prices : Prices α}

/-- A price is within a limit when it is known and not above it. -/
lemma within_eq_true {limit : α} {price : Price α} :
    within limit price = true ↔ ∃ x, price = .known x ∧ ¬ limit < x := by
  cases price with
  | known x => simp [within]
  | unknown => simp [within]

/-- A budget is satisfied when each of its prices is known and not above the limit. -/
lemma satisfiedBy_iff : b.satisfiedBy prices = true ↔
    ∀ p ∈ b.limits.entries, ∃ x, (fetch p.1 prices).getD .unknown = .known x ∧ ¬ p.2 < x := by
  rw [satisfiedBy, violations, List.isEmpty_iff, List.filterMap_eq_nil_iff, List.forall_mem_map]
  refine forall₂_congr fun p _ => ?_
  rw [← within_eq_true]
  split <;> simp_all

/-- An unknown price makes the excess infinite. -/
lemma addExcess_unknown {a : Amount α} {p : String × α}
    (price : (fetch p.1 prices).getD .unknown = .unknown) : addExcess prices a p = .infinite := by
  unfold addExcess
  cases a <;> simp only [price]

/-- A known price adds its part above the limit, relative to the limit. -/
lemma addExcess_known {t x : α} {p : String × α}
    (price : (fetch p.1 prices).getD .unknown = .known x) :
    addExcess prices (.finite t) p = .finite (t + positivePart (x - p.2) / p.2) := by
  simp only [addExcess, price]

/-- An infinite excess stays infinite. -/
lemma foldl_addExcess_infinite (entries : List (String × α)) :
    entries.foldl (addExcess prices) .infinite = .infinite := by
  induction entries with
  | nil => rfl
  | cons p rest ih => exact ih

variable [Exact α]

/-- A price that is not above the limit has no excess. -/
lemma excess_eq_zero {x l : α} (below : ¬ l < x) : positivePart (x - l) / l = 0 := by
  rw [positivePart, if_neg fun h => below (Exact.sub_pos.1 h), Exact.zero_div]

/-- A price above the limit has a positive excess. -/
lemma excess_pos {x l : α} (limit : 0 < l) (above : l < x) : 0 < positivePart (x - l) / l := by
  rw [positivePart, if_pos (Exact.sub_pos.2 above)]
  exact Exact.div_pos (Exact.sub_pos.2 above) limit

/-- A satisfied budget has no overage. -/
lemma overage_of_satisfiedBy (satisfied : b.satisfiedBy prices = true) :
    b.overage prices = .finite 0 := by
  rw [satisfiedBy_iff] at satisfied
  rw [overage]
  generalize b.limits.entries = entries at satisfied
  induction entries with
  | nil => rfl
  | cons p rest ih =>
    rw [List.forall_mem_cons] at satisfied
    obtain ⟨⟨x, price, below⟩, others⟩ := satisfied
    rw [List.foldl_cons, addExcess_known price, excess_eq_zero below, Exact.add_zero, ih others]

/-- What is added to an amount that is more than nothing, or some of which exceeds its limit, is
more than nothing. -/
lemma foldl_addExcess {entries : List (String × α)} {t : α} (positive : ∀ p ∈ entries, 0 < p.2)
    (nonneg : 0 ≤ t) (exceeded : 0 < t ∨ ∃ p ∈ entries,
      ∀ x, (fetch p.1 prices).getD .unknown = .known x → p.2 < x) :
    entries.foldl (addExcess prices) (.finite t) = .infinite ∨
      ∃ u, entries.foldl (addExcess prices) (.finite t) = .finite u ∧ 0 < u := by
  induction entries generalizing t with
  | nil =>
    rcases exceeded with pos | ⟨p, mem, -⟩
    · exact .inr ⟨t, rfl, pos⟩
    · cases mem
  | cons p rest ih =>
    rw [List.forall_mem_cons] at positive
    rw [List.foldl_cons]
    cases price : (fetch p.1 prices).getD .unknown with
    | unknown => exact .inl (by rw [addExcess_unknown price, foldl_addExcess_infinite])
    | known x =>
      rw [addExcess_known price]
      by_cases above : p.2 < x
      · have pos := Exact.add_pos_of_nonneg nonneg (excess_pos positive.1 above)
        have still : (0 : α) ≤ t + positivePart (x - p.2) / p.2 :=
          Exact.le_iff_not_lt.2 fun neg => Exact.lt_irrefl _ (Exact.lt_trans neg pos)
        exact ih positive.2 still (.inl pos)
      · rw [excess_eq_zero above, Exact.add_zero]
        refine ih positive.2 nonneg (exceeded.imp id ?_)
        rintro ⟨q, mem, all⟩
        rcases List.mem_cons.1 mem with rfl | later
        · exact absurd (all x price) above
        · exact ⟨q, later, all⟩

/-- What meets the budget has a lower overage than what does not. -/
lemma lower_overage {other : Prices α} (satisfied : b.satisfiedBy prices = true)
    (violated : b.satisfiedBy other = false) : (b.overage prices).Lower (b.overage other) := by
  have exceeded : ∃ p ∈ b.limits.entries,
      ∀ x, (fetch p.1 other).getD .unknown = .known x → p.2 < x := by
    by_contra none
    push Not at none
    rw [satisfiedBy_iff.2 none] at violated
    cases violated
  have nonneg : (0 : α) ≤ 0 := Exact.le_iff_not_lt.2 (Exact.lt_irrefl 0)
  rw [overage_of_satisfiedBy satisfied, overage]
  constructor
  · rw [Amount.isInfinite_finite, Exact.isFinite_zero]
    rfl
  · rcases foldl_addExcess b.positive nonneg (.inr exceeded) with infinite | ⟨u, finite, pos⟩
    · exact .inl (by rw [infinite]; rfl)
    · exact .inr (by rw [finite]; exact Amount.less_finite.2 pos)

end Budget

end OperatorNet
