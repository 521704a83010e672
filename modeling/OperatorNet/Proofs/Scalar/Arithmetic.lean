import Mathlib.Algebra.Order.Field.Basic
import Mathlib.Algebra.Order.Field.Rat
import OperatorNet.Scalar

/-!
# Exact arithmetic

`Scalar.Exact` are the laws that budgets and scores rest on when numbers are not rounded: the order
is linear, a difference is positive when it should be, and so are sums and quotients. Any ordered
field obeys them, whatever its elementary functions are; numbers beyond all others are not excluded.

`Scalar.Arithmetic` are the laws of sums and products of numbers that are not rounded,
`Scalar.Growing` is the law that sums grow with their terms, `Scalar.Cumulative` that they are not
negative when no term is, and `Scalar.Neutral` are the laws of zero and one. By the first of these
the largest of some numbers is at least each of them (`le_maximum`), and so is the sum of numbers
that are not negative (`le_sum`).
-/

namespace OperatorNet.Scalar

/-- The laws of numbers that are not rounded. -/
class Exact (α : Type) [Scalar α] : Prop where
  lt_irrefl (x : α) : ¬ x < x
  lt_trans {x y z : α} : x < y → y < z → x < z
  le_iff_not_lt {x y : α} : x ≤ y ↔ ¬ y < x
  sub_pos {x y : α} : 0 < x - y ↔ y < x
  add_zero (x : α) : x + 0 = x
  add_pos_of_nonneg {x y : α} : 0 ≤ x → 0 < y → 0 < x + y
  zero_div (x : α) : 0 / x = 0
  div_pos {x y : α} : 0 < x → 0 < y → 0 < x / y
  isFinite_zero : isFinite (0 : α) = true
  isFinite_sub {x y : α} : isFinite x = true → isFinite y = true → isFinite (x - y) = true

/-- The operations of exact numbers that are not those of a field. -/
structure Elementary (K : Type) where
  exp : K → K
  log : K → K
  sqrt : K → K
  pow : K → K → K
  infinity : K
  truncate : K → Int
  divides : K → Int → Bool

/-- The scalars that an ordered field is, all of them finite. -/
@[reducible] def ofField {K : Type} [Field K] [LinearOrder K] (e : Elementary K) : Scalar K where
  decideLT := inferInstance
  decideLE := inferInstance
  ofNat n := n
  ofScientific m negative k := if negative then m / 10 ^ k else m * 10 ^ k
  ofRatio n k := n / k
  exp := e.exp
  log := e.log
  sqrt := e.sqrt
  pow := e.pow
  infinity := e.infinity
  isFinite _ := true
  finitize x := x
  truncate := e.truncate
  divides := e.divides

/-- Ordered fields compute exactly. -/
lemma exact_ofField {K : Type} [Field K] [LinearOrder K] [IsStrictOrderedRing K]
    (e : Elementary K) : @Exact K (ofField e) :=
  let _ := ofField e
  { lt_irrefl := lt_irrefl
    lt_trans := lt_trans
    le_iff_not_lt := not_lt.symm
    sub_pos := sub_pos
    add_zero := add_zero
    add_pos_of_nonneg := add_pos_of_nonneg_of_pos
    zero_div := zero_div
    div_pos := div_pos
    isFinite_zero := rfl
    isFinite_sub := fun _ _ => rfl }

/-! ### Sums and products -/

/-- The laws of sums and products of numbers that are not rounded. -/
class Arithmetic (α : Type) [Scalar α] : Prop where
  le_trans {x y z : α} : x ≤ y → y ≤ z → x ≤ z
  le_add_of_nonneg_left {x y : α} : 0 ≤ x → y ≤ x + y
  le_add_of_nonneg_right {x y : α} : 0 ≤ y → x ≤ x + y
  mul_le_mul_of_nonneg_left {x y z : α} : x ≤ y → 0 ≤ z → z * x ≤ z * y
  mul_left_comm (x y z : α) : x * (y * z) = y * (x * z)
  mul_one (x : α) : x * 1 = x

/-- Ordered fields have the arithmetic of sums and comparisons. -/
lemma arithmetic_ofField {K : Type} [Field K] [LinearOrder K] [IsStrictOrderedRing K]
    (e : Elementary K) : @Arithmetic K (ofField e) :=
  let _ := ofField e
  { le_trans := le_trans
    le_add_of_nonneg_left := le_add_of_nonneg_left
    le_add_of_nonneg_right := le_add_of_nonneg_right
    mul_le_mul_of_nonneg_left := mul_le_mul_of_nonneg_left
    mul_left_comm := mul_left_comm
    mul_one := mul_one }

/-- Sums grow with their terms. -/
class Growing (α : Type) [Scalar α] : Prop where
  add_le_add_left {x y : α} (z : α) : x ≤ y → z + x ≤ z + y

/-- Sums in ordered fields grow with what is added. -/
lemma growing_ofField {K : Type} [Field K] [LinearOrder K] [IsStrictOrderedRing K]
    (e : Elementary K) :
    @Growing K (ofField e) :=
  let _ := ofField e
  { add_le_add_left := fun z le => add_le_add_right le z }

/-- Sums of numbers that are not negative are not negative, also where they are rounded. -/
class Cumulative (α : Type) [Scalar α] : Prop where
  zero_le_zero : (0 : α) ≤ 0
  add_nonneg {x y : α} : 0 ≤ x → 0 ≤ y → 0 ≤ x + y

/-- The laws of zero and one among numbers that are not rounded. -/
class Neutral (α : Type) [Scalar α] : Prop where
  zero_add (x : α) : 0 + x = x
  add_zero (x : α) : x + 0 = x
  zero_mul (x : α) : 0 * x = 0
  one_mul (x : α) : 1 * x = x

/-- Zero and one are neutral in fields. -/
lemma neutral_ofField {K : Type} [Field K] [LinearOrder K] (e : Elementary K) :
    @Neutral K (ofField e) :=
  let _ := ofField e
  { zero_add := zero_add
    add_zero := add_zero
    zero_mul := zero_mul
    one_mul := one_mul }

variable {α : Type} [Scalar α] {x y z : α} {xs : List α}

/-- Terms that are zero do not count. -/
lemma sum_filter [Neutral α] {ι : Type} {p : ι → Bool} {f : ι → α} {l : List ι}
    (rest : ∀ i ∈ l, p i = false → f i = 0) : sum ((l.filter p).map f) = sum (l.map f) := by
  have fold : ∀ start : α, ((l.filter p).map f).foldl (· + ·) start =
      (l.map f).foldl (· + ·) start := by
    induction l with
    | nil => exact fun _ => rfl
    | cons i l ih =>
      intro start
      rw [List.forall_mem_cons] at rest
      cases counts : p i with
      | true =>
        simp only [List.filter_cons_of_pos counts, List.map_cons, List.foldl_cons, ih rest.2]
      | false =>
        simp only [List.filter_cons, counts, List.map_cons, List.foldl_cons, rest.1 counts,
          Neutral.add_zero]
        exact ih rest.2 start
  exact fold 0

/-- A sum of two scalars that are not negative is not negative. -/
protected lemma add_nonneg [Arithmetic α] (hx : 0 ≤ x) (hy : 0 ≤ y) : 0 ≤ x + y :=
  Arithmetic.le_trans hx (Arithmetic.le_add_of_nonneg_right hy)

/-- A sum of scalars that are not negative is not negative. -/
lemma sum_nonneg [Cumulative α] (nonneg : ∀ x ∈ xs, 0 ≤ x) : 0 ≤ sum xs := by
  have fold : ∀ start : α, 0 ≤ start → 0 ≤ xs.foldl (· + ·) start := by
    induction xs with
    | nil => exact fun start le => le
    | cons x rest ih =>
      rw [List.forall_mem_cons] at nonneg
      exact fun start le => ih nonneg.2 (start + x) (Cumulative.add_nonneg le nonneg.1)
  exact fold 0 Cumulative.zero_le_zero

variable [Exact α]

/-- No scalar is above itself. -/
protected lemma le_refl (x : α) : x ≤ x :=
  Exact.le_iff_not_lt.2 (Exact.lt_irrefl x)

instance [Arithmetic α] : Cumulative α where
  zero_le_zero := Scalar.le_refl 0
  add_nonneg := Scalar.add_nonneg

/-- What is below is not above. -/
protected lemma le_of_lt (less : x < y) : x ≤ y :=
  Exact.le_iff_not_lt.2 fun more => Exact.lt_irrefl x (Exact.lt_trans less more)

/-- Two scalars are compared one way or the other. -/
protected lemma lt_iff_not_le : x < y ↔ ¬ y ≤ x := by
  rw [Exact.le_iff_not_lt, not_not]

/-- Some positive numbers have a positive sum. -/
lemma sum_pos (pos : ∀ x ∈ xs, 0 < x) (some : xs ≠ []) : 0 < sum xs := by
  have fold : ∀ (rest : List α) (start : α), 0 < start → (∀ x ∈ rest, 0 < x) →
      0 < rest.foldl (· + ·) start := by
    intro rest
    induction rest with
    | nil => exact fun _ more _ => more
    | cons x rest ih =>
      intro start more pos
      rw [List.forall_mem_cons] at pos
      exact ih _ (Exact.add_pos_of_nonneg (Scalar.le_of_lt more) pos.1) pos.2
  obtain ⟨x, rest, rfl⟩ := List.exists_cons_of_ne_nil some
  rw [List.forall_mem_cons] at pos
  exact fold rest (0 + x) (Exact.add_pos_of_nonneg (Scalar.le_refl 0) pos.1) pos.2

/-- The first of two scalars is not above the larger one. -/
lemma le_larger_left (x y : α) : x ≤ larger x y := by
  unfold larger
  split
  next less => exact Scalar.le_of_lt less
  next => exact Scalar.le_refl x

/-- The second of two scalars is not above the larger one. -/
lemma le_larger_right (x y : α) : y ≤ larger x y := by
  unfold larger
  split
  next => exact Scalar.le_refl y
  next notLess => exact Exact.le_iff_not_lt.2 notLess

variable [Arithmetic α]

/-- What is below something not above another is below that. -/
protected lemma lt_of_lt_of_le (less : x < y) (le : y ≤ z) : x < z :=
  Scalar.lt_iff_not_le.2 fun more => Scalar.lt_iff_not_le.1 less (Arithmetic.le_trans le more)

/-- No scalar is above the largest one. -/
lemma le_maximum (mem : y ∈ x :: xs) : y ≤ maximum x xs := by
  induction xs generalizing x y with
  | nil =>
    rw [List.mem_singleton.1 mem]
    exact Scalar.le_refl x
  | cons z rest ih =>
    have onward : larger x z ≤ maximum x (z :: rest) := ih (List.mem_cons_self ..)
    rcases List.mem_cons.1 mem with rfl | later
    · exact Arithmetic.le_trans (le_larger_left y z) onward
    rcases List.mem_cons.1 later with rfl | later
    · exact Arithmetic.le_trans (le_larger_right x y) onward
    · exact ih (List.mem_cons_of_mem _ later)

omit [Exact α] [Arithmetic α] in
/-- The largest of some numbers is one of them. -/
lemma maximum_mem (x : α) (xs : List α) : maximum x xs ∈ x :: xs := by
  induction xs generalizing x with
  | nil => exact List.mem_singleton.2 rfl
  | cons y rest ih =>
    have onward : maximum x (y :: rest) ∈ larger x y :: rest := ih (larger x y)
    rcases List.mem_cons.1 onward with here | later
    · rw [here, larger]
      split
      · exact List.mem_cons_of_mem _ (List.mem_cons_self ..)
      · exact List.mem_cons_self ..
    · exact List.mem_cons_of_mem _ (List.mem_cons_of_mem _ later)

/-- A sum of numbers that are not negative is at least what it starts with and each of them. -/
lemma le_foldl_add (nonneg : ∀ z ∈ xs, 0 ≤ z) (start : 0 ≤ x) :
    x ≤ xs.foldl (· + ·) x ∧ ∀ y ∈ xs, y ≤ xs.foldl (· + ·) x := by
  induction xs generalizing x with
  | nil => exact ⟨Scalar.le_refl x, fun _ mem => absurd mem List.not_mem_nil⟩
  | cons z rest ih =>
    rw [List.forall_mem_cons] at nonneg
    obtain ⟨whole, each⟩ := ih nonneg.2 (Scalar.add_nonneg start nonneg.1)
    rw [List.foldl_cons, List.forall_mem_cons]
    exact ⟨Arithmetic.le_trans (Arithmetic.le_add_of_nonneg_right nonneg.1) whole,
      Arithmetic.le_trans (Arithmetic.le_add_of_nonneg_left start) whole, each⟩

/-- No summand is above the sum, if none is negative. -/
lemma le_sum (nonneg : ∀ z ∈ xs, 0 ≤ z) (mem : y ∈ xs) : y ≤ sum xs :=
  (le_foldl_add nonneg (Scalar.le_refl 0)).2 y mem

end OperatorNet.Scalar
