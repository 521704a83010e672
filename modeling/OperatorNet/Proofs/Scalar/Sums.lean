import Mathlib.Algebra.BigOperators.Group.List.Basic
import Mathlib.Algebra.BigOperators.Ring.List
import Mathlib.Data.List.Sections
import Mathlib.Tactic.Ring
import OperatorNet.Proofs.Scalar.Arithmetic

/-!
# Sums in any order

`Scalar.Commutative` are the laws of sums and products of numbers that are not rounded, in whatever
order they are taken; a commutative semiring is what obeys them, so sums are those of such a ring
(`sum_eq`). With the law of differences, `Scalar.Subtractive`, it is a ring, and sums of products
are linear (`dot_sub_dot`). With the laws of quotients, `Scalar.Fractional`, a sum is divided term
by term (`sum_map_div`). One choice from each of some lists, with weights of sum one in each list,
costs on average what the averages of the lists add up to (`sum_sections_mul`).
-/

namespace OperatorNet.Scalar

/-- The laws of sums and products in any order, of numbers that are not rounded. -/
class Commutative (α : Type) [Scalar α] : Prop extends Neutral α where
  add_comm (x y : α) : x + y = y + x
  add_assoc (x y z : α) : x + y + z = x + (y + z)
  mul_comm (x y : α) : x * y = y * x
  mul_assoc (x y z : α) : x * y * z = x * (y * z)
  mul_add (x y z : α) : x * (y + z) = x * y + x * z
  le_antisymm {x y : α} : x ≤ y → y ≤ x → x = y

/-- Fields add and multiply in any order. -/
lemma commutative_ofField {K : Type} [Field K] [LinearOrder K] (e : Elementary K) :
    @Commutative K (ofField e) :=
  let _ := ofField e
  { neutral_ofField e with
    add_comm := add_comm
    add_assoc := add_assoc
    mul_comm := mul_comm
    mul_assoc := mul_assoc
    mul_add := mul_add
    le_antisymm := le_antisymm }

variable {α : Type} [Scalar α]

/-- Scalars that obey the laws are a commutative semiring. -/
@[reducible] def commSemiring [Commutative α] : CommSemiring α where
  add_assoc := Commutative.add_assoc
  zero_add := Neutral.zero_add
  add_zero := Neutral.add_zero
  add_comm := Commutative.add_comm
  nsmul := nsmulRec
  left_distrib := Commutative.mul_add
  right_distrib x y z := by
    rw [Commutative.mul_comm, Commutative.mul_add, Commutative.mul_comm z x,
      Commutative.mul_comm z y]
  zero_mul := Neutral.zero_mul
  mul_zero x := by rw [Commutative.mul_comm, Neutral.zero_mul]
  mul_assoc := Commutative.mul_assoc
  one_mul := Neutral.one_mul
  mul_one x := by rw [Commutative.mul_comm, Neutral.one_mul]
  mul_comm := Commutative.mul_comm

attribute [local instance] commSemiring

/-- The sum of scalars is the sum of a list. -/
lemma sum_eq [Commutative α] (xs : List α) : sum xs = xs.sum :=
  List.sum_eq_foldl.symm

/-- The product of two lists is the same both ways round. -/
lemma dot_comm [Commutative α] (xs ys : List α) : dot xs ys = dot ys xs := by
  rw [dot, dot, List.zipWith_comm_of_comm mul_comm]

/-- A term at one element counts once. -/
lemma sum_map_ite [Commutative α] {ι : Type} [DecidableEq ι] {l : List ι} (distinct : l.Nodup)
    (i : ι) (d : α) :
    sum (l.map fun n => if n = i then d else 0) = if i ∈ l then d else 0 := by
  rw [sum_eq]
  induction l with
  | nil => exact (if_neg List.not_mem_nil).symm
  | cons n l ih =>
    rw [List.nodup_cons] at distinct
    rw [List.map_cons, List.sum_cons, ih distinct.2]
    by_cases here : n = i
    case pos =>
      subst here
      rw [if_pos rfl, if_neg distinct.1, if_pos (List.mem_cons_self ..), add_zero]
    case neg =>
      have later : i ∈ n :: l ↔ i ∈ l :=
        List.mem_cons.trans (or_iff_right fun same => here same.symm)
      simp only [if_neg here, later, zero_add]

/-! ### Differences -/

/-- The law of differences of numbers that are not rounded. -/
class Subtractive (α : Type) [Scalar α] : Prop where
  sub_add_cancel (x y : α) : x - y + y = x

/-- Fields subtract. -/
lemma subtractive_ofField {K : Type} [Field K] [LinearOrder K] (e : Elementary K) :
    @Subtractive K (ofField e) :=
  let _ := ofField e
  { sub_add_cancel := sub_add_cancel }

/-- Scalars that obey this law too are a commutative ring. -/
@[reducible] def commRing [Commutative α] [Subtractive α] : CommRing α :=
  { commSemiring with
    neg := fun x => 0 - x
    sub := fun x y => x - y
    zsmul := @zsmulRec α _ _ ⟨fun x => 0 - x⟩ nsmulRec
    neg_add_cancel := Subtractive.sub_add_cancel 0
    sub_eq_add_neg := fun x y => by
      have back : y + (0 - y) = 0 := (add_comm ..).trans (Subtractive.sub_add_cancel 0 y)
      calc x - y = x - y + (y + (0 - y)) := by rw [back, add_zero]
        _ = x + (0 - y) := by rw [← add_assoc, Subtractive.sub_add_cancel] }

section Differences

variable [Commutative α] [Subtractive α]

attribute [local instance] commRing

/-- The difference of two products is the product of the differences. -/
lemma dot_sub_dot {xs ys cs : List α} (length : xs.length = ys.length) :
    dot xs cs - dot ys cs = dot (List.zipWith (· - ·) xs ys) cs := by
  simp only [dot, sum_eq]
  induction xs generalizing ys cs with
  | nil =>
    cases List.length_eq_zero_iff.1 length.symm
    simp
  | cons x xs ih =>
    obtain ⟨y, ys, rfl⟩ := List.exists_cons_of_length_eq_add_one length.symm
    cases cs with
    | nil => simp
    | cons c cs =>
      simp only [List.zipWith_cons_cons, List.sum_cons, ← ih (Nat.succ.inj length)]
      ring

end Differences

/-! ### Quotients -/

/-- The laws of quotients and of exponentials of numbers that are not rounded. -/
class Fractional (α : Type) [Scalar α] : Prop where
  add_div (x y z : α) : (x + y) / z = x / z + y / z
  div_self {x : α} : 0 < x → x / x = 1
  ofNat_mul_div {n : Nat} (x : α) : 0 < n → ofNat n * (x / ofNat n) = x
  exp_pos (x : α) : 0 < exp x

/-- Ordered fields divide, and positive exponentials stay positive. -/
lemma fractional_ofField {K : Type} [Field K] [LinearOrder K] [IsStrictOrderedRing K]
    (e : Elementary K) (pos : ∀ x, 0 < e.exp x) : @Fractional K (ofField e) :=
  let _ := ofField e
  { add_div := add_div
    div_self := fun pos => div_self (ne_of_gt pos)
    ofNat_mul_div := fun x pos => mul_div_cancel₀ x (Nat.cast_ne_zero.2 (Nat.ne_of_gt pos))
    exp_pos := pos }

/-- A sum of quotients is the quotient of the sum. -/
lemma sum_map_div [Exact α] [Fractional α] (xs : List α) (y : α) :
    sum (xs.map (· / y)) = sum xs / y := by
  have fold : ∀ start : α, (xs.map (· / y)).foldl (· + ·) (start / y) =
      xs.foldl (· + ·) start / y := by
    induction xs with
    | nil => exact fun _ => rfl
    | cons x rest ih =>
      intro start
      rw [List.map_cons, List.foldl_cons, List.foldl_cons, ← Fractional.add_div, ih]
  rw [sum, sum, ← fold, Exact.zero_div]

/-! ### One choice from each list -/

section Sections

variable {R ι : Type} [CommSemiring R] {weight cost : ι → R}

/-- One more choice adds its cost to what the others cost. -/
lemma sum_mul_add {l : List ι} (one : (l.map weight).sum = 1) (w c : R) :
    (l.map fun a => weight a * w * (cost a + c)).sum =
      w * (l.map fun a => weight a * cost a).sum + w * c := by
  have split : ∀ a, weight a * w * (cost a + c) = w * (weight a * cost a) + w * c * weight a := by
    intro a
    ring
  simp only [split, List.sum_map_add, List.sum_map_mul_left, one, mul_one]

/-- A sum over lists is the sum of their sums. -/
lemma sum_flatMap (xs : List ι) (f : ι → List R) :
    (xs.flatMap f).sum = (xs.map fun x => (f x).sum).sum := by
  rw [List.flatMap_def, List.sum_flatten, List.map_map]
  rfl

/-- The weights of all ways to choose have the sum one. -/
lemma sum_sections {L : List (List ι)} (one : ∀ l ∈ L, (l.map weight).sum = 1) :
    (L.sections.map fun t => (t.map weight).prod).sum = 1 := by
  induction L with
  | nil => simp [List.sections]
  | cons l rest ih =>
    rw [List.forall_mem_cons] at one
    rw [List.sections, List.map_flatMap, sum_flatMap]
    simp only [List.map_map, Function.comp_def, List.map_cons, List.prod_cons,
      List.sum_map_mul_right, one.1, one_mul]
    exact ih one.2

/-- The mean cost of all ways to choose is the sum of the mean costs. -/
lemma sum_sections_mul {L : List (List ι)} (one : ∀ l ∈ L, (l.map weight).sum = 1) :
    (L.sections.map fun t => (t.map weight).prod * (t.map cost).sum).sum =
      (L.map fun l => (l.map fun a => weight a * cost a).sum).sum := by
  induction L with
  | nil => simp [List.sections]
  | cons l rest ih =>
    have all := sum_sections fun l mem => one l (List.mem_cons_of_mem _ mem)
    rw [List.forall_mem_cons] at one
    rw [List.sections, List.map_flatMap, sum_flatMap]
    simp only [List.map_map, Function.comp_def, List.map_cons, List.prod_cons, List.sum_cons,
      sum_mul_add one.1, List.sum_map_add, List.sum_map_mul_right, all, one_mul]
    rw [ih one.2]

end Sections

end OperatorNet.Scalar
