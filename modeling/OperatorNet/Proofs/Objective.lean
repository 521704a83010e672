import Mathlib.Analysis.SpecialFunctions.Log.Deriv
import Mathlib.Data.List.GetD
import Mathlib.Topology.Algebra.Module.ModuleTopology
import OperatorNet.Objective
import OperatorNet.Proofs.Tensor.Padding

/-!
# Gradients of classes

The targets of classes have a one in the column of each class, and columns that the prediction does
not have are left out (`Objective.targets_eq`). So a target has the sum one where its class is a
column of the prediction, and is zero otherwise. The gradient takes the target from the softmax of
the prediction. That is what the loss has as its derivative for targets of sum one, and only for
these (`Objective.gradient_classification`).
-/

namespace OperatorNet

open Scalar

variable {α : Type} [Scalar α]

/-! ### Softmax -/

section Softmax

variable {xs : List α} {x : α}

/-- The softmax divides positive exponentials by their sum. -/
lemma softmax_eq (some : xs ≠ []) : ∃ es : List α, softmax xs = es.map (· / sum es) ∧
    es.length = xs.length ∧
    ∀ e ∈ es, ∃ y, e = exp y := by
  obtain ⟨x, rest, rfl⟩ := List.exists_cons_of_ne_nil some
  refine ⟨(x :: rest).map fun y => exp (y - maximum x rest), rfl, List.length_map _,
    fun e mem => ?_⟩
  obtain ⟨y, -, rfl⟩ := List.mem_map.1 mem
  exact ⟨_, rfl⟩

/-- The softmax has a value for each value. -/
lemma length_softmax (xs : List α) : (softmax xs).length = xs.length := by
  cases xs with
  | nil => rfl
  | cons x rest =>
    obtain ⟨es, eq, length, -⟩ := softmax_eq (List.cons_ne_nil x rest)
    rw [eq, List.length_map, length]

variable [Exact α] [Fractional α]

/-- A softmax is positive and has the sum one. -/
lemma softmax_spec (some : xs ≠ []) : (∀ x ∈ softmax xs, 0 < x) ∧ sum (softmax xs) = 1 := by
  obtain ⟨es, eq, length, exps⟩ := softmax_eq some
  have pos : ∀ e ∈ es, 0 < e := by
    intro e mem
    obtain ⟨y, rfl⟩ := exps e mem
    exact Fractional.exp_pos y
  have there : es ≠ [] := by
    rintro rfl
    exact some (List.length_eq_zero_iff.1 length.symm)
  have total : 0 < sum es := sum_pos pos there
  rw [eq, sum_map_div, Fractional.div_self total, List.forall_mem_map]
  exact ⟨fun e mem => Exact.div_pos (pos e mem) total, rfl⟩

end Softmax

/-! ### Rows -/

namespace Tensor

variable {β γ : Type} [Zero β] [Zero γ] {N k i : Nat}

/-- The numbers along the second axis of a matrix. -/
lemma line_eq {t : Tensor β} (shape : t.shape = [N, k]) (i : Nat) :
    t.line 1 [i] = (List.range k).map fun j => t.get [i, j] := by
  rw [line, axis, shape]
  rfl

/-- A row has as many values as there are columns. -/
lemma length_line {t : Tensor β} (shape : t.shape = [N, k]) (i : Nat) :
    (t.line 1 [i]).length = k := by
  rw [line_eq shape, List.length_map, List.length_range]

/-- A row and a column make a place. -/
lemma inside_pair {i j : Nat} (row : i < N) (column : j < k) : Inside [N, k] [i, j] :=
  ⟨row, column, trivial⟩

/-- A row of a tensor made of a function has the values of that row. -/
lemma line_ofFn (row : i < N) (f : List Nat → β) :
    (ofFn [N, k] f).line 1 [i] = (List.range k).map fun j => f [i, j] := by
  rw [line_eq rfl]
  exact List.map_congr_left fun j mem => get_ofFn (inside_pair row (List.mem_range.1 mem)) f

/-- A row of a mapped tensor is the mapped row. -/
lemma line_map {t : Tensor β} (shape : t.shape = [N, k]) (row : i < N) (f : β → γ) :
    (t.map f).line 1 [i] = (t.line 1 [i]).map f := by
  have same : (t.map f).shape = [N, k] := shape
  rw [line_eq same, line_eq shape, List.map_map]
  exact List.map_congr_left fun j mem => get_map (shape ▸ inside_pair row (List.mem_range.1 mem))

/-- A row of two tensors put together is the two rows put together. -/
lemma line_zipWith {t u : Tensor β} (alike : t.shape = u.shape) (shape : t.shape = [N, k])
    (row : i < N) (f : β → β → γ) :
    (zipWith f t u alike).line 1 [i] = List.zipWith f (t.line 1 [i]) (u.line 1 [i]) := by
  have same : (zipWith f t u alike).shape = [N, k] := shape
  rw [line_eq same, line_eq shape, line_eq (alike.symm.trans shape), List.zipWith_map,
    List.zipWith_self]
  exact List.map_congr_left fun j mem =>
    get_zipWith alike (shape ▸ inside_pair row (List.mem_range.1 mem))

/-- What replaces the numbers along the second axis. -/
lemma line_mapLines {t : Tensor β} {f : List β → List γ} (shape : t.shape = [N, k]) (row : i < N)
    (length : ∀ xs, (f xs).length = xs.length) :
    (t.mapLines f 1).line 1 [i] = f (t.line 1 [i]) := by
  have columns : (f (t.line 1 [i])).length = k := by
    rw [length, length_line shape]
  rw [mapLines, shape, line_ofFn row]
  refine List.ext_getElem (by rw [List.length_map, List.length_range, columns]) fun j _ bound => ?_
  rw [List.getElem_map, List.getElem_range]
  exact List.getD_eq_getElem _ _ bound

end Tensor

namespace Objective

/-! ### Targets -/

/-- One row for each class with a one in its column, if there is such a column. -/
def oneHot (columns : List Nat) (k : Nat) : Tensor α :=
  .ofFn [columns.length, k] fun place => if columns[place.getD 0 0]? = place[1]? then 1 else 0

/-- Columns that no class has are added or left out by padding and cutting. -/
lemma padTo_cutTo_oneHot {columns : List Nat} {n : Nat} (below : ∀ c ∈ columns, c < n) (k : Nat) :
    ((oneHot columns n : Tensor α).cutTo [columns.length, k]).padTo [columns.length, k] =
      oneHot columns k := by
  refine Tensor.ofFn_congr fun place within => ?_
  match place, within with
  | [i, j], ⟨row, column, _⟩ =>
    have sizes : ((oneHot columns n : Tensor α).cutTo [columns.length, k]).shape =
        [min columns.length columns.length, min n k] := rfl
    rw [sizes, Nat.min_self]
    by_cases there : j < n
    case pos =>
      have kept : Inside [columns.length, min n k] [i, j] :=
        ⟨row, Nat.lt_min.2 ⟨there, column⟩, trivial⟩
      have cut : ((oneHot columns n : Tensor α).cutTo [columns.length, k]).get [i, j] =
          (oneHot columns n : Tensor α).get [i, j] :=
        Tensor.get_ofFn (by rw [← Nat.min_self columns.length] at kept; exact kept) _
      rw [if_pos kept, cut, oneHot, Tensor.get_ofFn (Tensor.inside_pair row there)]
    case neg =>
      have lost : ¬ Inside [columns.length, min n k] [i, j] :=
        fun kept => there (Nat.lt_min.1 kept.2.1).1
      have none : columns[i]? ≠ some j := fun own => there (below j (List.mem_of_getElem? own))
      rw [if_neg lost]
      exact (if_neg none).symm

/-- The row of a class. -/
lemma line_oneHot {columns : List Nat} {i c : Nat} (own : columns[i]? = some c) (k : Nat) :
    (oneHot columns k : Tensor α).line 1 [i] = (List.range k).map fun j =>
      if j = c then 1 else 0 := by
  have row : i < columns.length := (List.getElem?_eq_some_iff.1 own).1
  rw [oneHot, Tensor.line_ofFn row]
  refine List.map_congr_left fun j _ => ?_
  change (if columns[i]? = some j then (1 : α) else 0) = _
  simp only [own, Option.some.injEq, eq_comm]

variable {classes : Option (Data α)} {y : Tensor Word} {a : Int} {N k : Nat}

/-- The largest class and zero. -/
def top (y : Tensor Word) : Int :=
  (y.toList.map (·.toInt)).foldl max 0

/-- The columns that targets are encoded with, when a readout has some width. -/
def columns (a : Int) (y : Tensor Word) : Nat :=
  (max a (top y + 1)).toNat

/-- What takes the larger of two elements again and again ends with the largest. -/
lemma le_foldl {β : Type} {f : β → Int} {op : β → β → β}
    (upper : ∀ x y, f x ≤ f (op x y) ∧ f y ≤ f (op x y)) (l : List β) (start : β) :
    f start ≤ f (l.foldl op start) ∧ ∀ x ∈ l, f x ≤ f (l.foldl op start) := by
  induction l generalizing start with
  | nil => exact ⟨Int.le_refl _, List.forall_mem_nil _⟩
  | cons x rest ih =>
    obtain ⟨whole, each⟩ := ih (op start x)
    rw [List.foldl_cons, List.forall_mem_cons]
    exact ⟨(upper start x).1.trans whole, (upper start x).2.trans whole, each⟩

/-- No label is above the top label. -/
lemma le_top {w : Word} (mem : w ∈ y.toList) : w.toInt ≤ top y :=
  (le_foldl (f := id) (fun l m => ⟨Int.le_max_left l m, Int.le_max_right l m⟩) _ 0).2
    _ (List.mem_map_of_mem mem)

/-- Each label has a column. -/
lemma toInt_lt_columns {w : Word} (nonneg : 0 ≤ w.toInt) (mem : w ∈ y.toList) (a : Int) :
    w.toInt.toNat < columns a y := by
  have le := le_top mem
  rw [columns]
  omega

/-- A label that is a column is that column. -/
lemma column_eq {n : Nat} {l : Int} (nonneg : 0 ≤ l) (below : l < n) : column n l = .ok l.toNat :=
  if_pos ⟨nonneg, below⟩

/-- Classes that are not negative are encoded by their own columns if there is room. -/
lemma encode_eq (sized : (classification classes).width (.words y) = .ok a)
    (nonneg : ∀ w ∈ y.toList, 0 ≤ w.toInt) :
    (classification classes).encode (.words y) =
      (checkRoom y.toList.length (columns a y)).map fun _ =>
      oneHot (y.toList.map (·.toInt.toNat)) (columns a y) := by
  have found : (y.toList.map (·.toInt)).mapM (column (columns a y)) =
      .ok (y.toList.map (·.toInt.toNat)) := by
    rw [mapM_eq_ok, List.forall₂_map_left_iff, List.forall₂_map_right_iff, List.forall₂_same]
    intro w mem
    have below := toInt_lt_columns (nonneg w mem) mem a
    exact column_eq (nonneg w mem) (by have := nonneg w mem; omega)
  have targets : (classification classes).encode (.words y) =
      (checkRoom (y.toList.map (·.toInt)).length (columns a y)).bind fun _ =>
        ((y.toList.map (·.toInt)).mapM (column (columns a y))).bind fun cs => .ok
          (.ofFn [(y.toList.map (·.toInt)).length, columns a y] fun place =>
            if cs[place.getD 0 0]? = place[1]? then 1 else 0) := by
    simp only [encode, sized, bind, Except.bind]
    rfl
  rw [targets, found, List.length_map, oneHot, List.length_map]
  cases checkRoom y.toList.length (columns a y) <;> rfl

/-- The targets of a prediction, if there is room for them. -/
lemma targets_eq (sized : (classification classes).width (.words y) = .ok a)
    (nonneg : ∀ w ∈ y.toList, 0 ≤ w.toInt) (shape : y.shape = [N]) (k : Nat) :
    (classification classes).targets (.words y) [N, k] = (checkRoom N (columns a y)).map fun _ =>
      (oneHot (y.toList.map (·.toInt.toNat)) k : Tensor α) := by
  have length : y.toList.length = N := by
    rw [Tensor.toList, Array.length_toList, y.size_eq, shape, volume, volume, Nat.mul_one]
  have below : ∀ c ∈ y.toList.map (·.toInt.toNat), c < columns a y :=
    List.forall_mem_map.2 fun w mem => toInt_lt_columns (nonneg w mem) mem a
  have fitted := padTo_cutTo_oneHot (α := α) below k
  rw [List.length_map, length] at fitted
  rw [targets, encode_eq sized nonneg, length]
  cases checkRoom N (columns a y) with
  | error e => rfl
  | ok u =>
    refine congrArg Except.ok (Eq.trans ?_ fitted)
    have rows : (oneHot (y.toList.map (·.toInt.toNat)) (columns a y) : Tensor α).axis 0 = N := by
      rw [← length, ← List.length_map (f := fun w : Word => w.toInt.toNat)]
      rfl
    rw [rows]

/-! ### The gradient -/

/-- The gradient takes the targets from the softmax and is divided by the number of examples. -/
lemma gradient_eq {y : Signal α} {t yhat : Tensor α}
    (found : (classification classes).targets y [N, k] = .ok t)
    (alike : (yhat.mapLines softmax 1).shape = t.shape) (sized : yhat.shape = [N, k])
    (some : 1 ≤ k) :
    (classification classes).gradient y (.reals yhat) =
      .ok ((Tensor.zipWith (· - ·) (yhat.mapLines softmax 1) t alike).map (divNat · N)) := by
  have choice : checkWidth [N, k] = .ok () := if_neg fun none => Nat.ne_of_gt some none.1
  have difference : (yhat.mapLines softmax 1).combined (· - ·) t =
      .ok (Tensor.zipWith (· - ·) (yhat.mapLines softmax 1) t alike) := by
    rw [Tensor.combined, Tensor.combine?, dif_pos alike]
  simp only [gradient, Signal.shape, sized, found, choice, centred, bind, Except.bind, difference]
  rfl

/-- Times the number of examples, a row of the gradient is the softmax of a prediction less its
target. -/
lemma gradient_line [Fractional α] {t yhat : Tensor α}
    (alike : (yhat.mapLines softmax 1).shape = t.shape) (sized : yhat.shape = [N, k]) {i : Nat}
    (row : i < N) :
    (((Tensor.zipWith (· - ·) (yhat.mapLines softmax 1) t alike).map (divNat · N)).line 1 [i]).map
      (ofNat N * ·) = List.zipWith (· - ·) (softmax (yhat.line 1 [i])) (t.line 1 [i]) := by
  have shape : (yhat.mapLines softmax 1).shape = [N, k] := sized
  have difference : (Tensor.zipWith (· - ·) (yhat.mapLines softmax 1) t alike).shape =
      [N, k] := sized
  have undone : ∀ x : α, ofNat N * divNat x N = x :=
    fun x => Fractional.ofNat_mul_div x (Nat.zero_lt_of_lt row)
  rw [Tensor.line_map difference row, Tensor.line_zipWith alike shape row,
    Tensor.line_mapLines sized row length_softmax, List.map_map]
  simp only [Function.comp_def, undone, List.map_id']

/-- The derivative of the loss of one example in its prediction (`hasDerivAt_loss`): the softmax of
the prediction times the sum of the target, less the target. -/
def slopes (prediction target : List α) : List α :=
  List.zipWith (· - ·) ((softmax prediction).map (sum target * ·)) target

section Derivative

variable {e : Elementary ℝ} {xs ts before after front back : List ℝ} {t x : ℝ}

/-- Exponentials of numbers that are less by one amount are smaller by one factor. -/
lemma sum_exp_sub (xs : List ℝ) (c : ℝ) :
    (xs.map fun y => Real.exp (y - c)).sum = (xs.map Real.exp).sum / Real.exp c := by
  simp only [Real.exp_sub, div_eq_mul_inv, List.sum_map_mul_right]

/-- A sum of exponentials is positive. -/
lemma sum_exp_pos (some : xs ≠ []) : 0 < (xs.map Real.exp).sum := by
  refine List.sum_pos _ (List.forall_mem_map.2 fun y _ => Real.exp_pos y) ?_
  exact fun none => some (List.map_eq_nil_iff.1 none)

/-- The largest number that is taken off first does not count in a softmax. -/
lemma softmax_real (exps : e.exp = Real.exp) (xs : List ℝ) :
    @softmax ℝ (ofField e) xs = xs.map fun y => Real.exp y / (xs.map Real.exp).sum := by
  cases xs with
  | nil => rfl
  | cons x rest =>
    let _ := ofField e
    have total : sum ((x :: rest).map fun y => e.exp (y - maximum x rest)) =
        ((x :: rest).map Real.exp).sum / Real.exp (maximum x rest) := by
      rw [sum, ← List.sum_eq_foldl, exps, sum_exp_sub]
    change ((x :: rest).map fun y => e.exp (y - maximum x rest)).map
      (· / sum ((x :: rest).map fun y => e.exp (y - maximum x rest))) = _
    rw [total, List.map_map, exps]
    refine List.map_congr_left fun y _ => ?_
    rw [Function.comp_apply, Real.exp_sub, div_div_div_cancel_right₀ (Real.exp_ne_zero _)]

/-- Nor does it in the logarithms. -/
lemma logSoftmax_real (exps : e.exp = Real.exp) (logs : e.log = Real.log) (xs : List ℝ) :
    @logSoftmax ℝ (ofField e) xs = xs.map fun y => y - Real.log (xs.map Real.exp).sum := by
  cases xs with
  | nil => rfl
  | cons x rest =>
    let _ := ofField e
    have total : sum (((x :: rest).map fun y => y - maximum x rest).map e.exp) =
        ((x :: rest).map Real.exp).sum / Real.exp (maximum x rest) := by
      rw [sum, ← List.sum_eq_foldl, exps, List.map_map]
      exact sum_exp_sub _ _
    change ((x :: rest).map fun y => y - maximum x rest).map
      (· - e.log (sum (((x :: rest).map fun y => y - maximum x rest).map e.exp))) = _
    rw [total, List.map_map, logs,
      Real.log_div (sum_exp_pos (List.cons_ne_nil x rest)).ne' (Real.exp_ne_zero _),
      Real.log_exp]
    refine List.map_congr_left fun y _ => ?_
    rw [Function.comp_apply]
    ring

/-- Taking a constant off each factor takes it off as often as the weights say. -/
lemma sum_zipWith_sub (length : ts.length = xs.length) (c : ℝ) :
    (List.zipWith (· * ·) ts (xs.map (· - c))).sum =
      (List.zipWith (· * ·) ts xs).sum - ts.sum * c := by
  induction ts generalizing xs with
  | nil => simp
  | cons t ts ih =>
    obtain ⟨x, xs, rfl⟩ := List.exists_cons_of_length_eq_add_one length.symm
    simp only [List.map_cons, List.zipWith_cons_cons, List.sum_cons, ih (Nat.succ.inj length)]
    ring

/-- The target times the logarithmic softmax, as real numbers. -/
lemma dot_logSoftmax (exps : e.exp = Real.exp) (logs : e.log = Real.log)
    (first : front.length = before.length) (last : back.length = after.length) (z : ℝ) :
    let _ := ofField e
    dot (front ++ t :: back) (logSoftmax (before ++ z :: after)) =
      (List.zipWith (· * ·) front before).sum + (t * z + (List.zipWith (· * ·) back after).sum) -
        (front ++ t :: back).sum *
          Real.log ((before.map Real.exp).sum + (Real.exp z + (after.map Real.exp).sum)) := by
  intro _
  have length : (front ++ t :: back).length = (before ++ z :: after).length := by
    simp only [List.length_append, List.length_cons, first, last]
  rw [dot, sum, ← List.sum_eq_foldl, logSoftmax_real exps logs]
  refine (sum_zipWith_sub length _).trans ?_
  rw [List.zipWith_append first, List.zipWith_cons_cons]
  simp only [List.map_append, List.map_cons, List.sum_append, List.sum_cons]

/-- The slope at a place, as real numbers. -/
lemma getD_slopes (exps : e.exp = Real.exp) (first : front.length = before.length) :
    let _ := ofField e
    (slopes (before ++ x :: after) (front ++ t :: back)).getD before.length 0 =
      (front ++ t :: back).sum *
      (Real.exp x / ((before.map Real.exp).sum + (Real.exp x + (after.map Real.exp).sum))) - t := by
  intro _
  have total : ((before ++ x :: after).map Real.exp).sum =
      (before.map Real.exp).sum + (Real.exp x + (after.map Real.exp).sum) := by
    simp only [List.map_append, List.map_cons, List.sum_append, List.sum_cons]
  have row : slopes (before ++ x :: after) (front ++ t :: back) = List.zipWith (· - ·)
      ((before ++ x :: after).map fun y => (front ++ t :: back).sum *
        (Real.exp y / ((before ++ x :: after).map Real.exp).sum)) (front ++ t :: back) := by
    rw [slopes, softmax_real exps, sum, ← List.sum_eq_foldl, List.map_map]
    rfl
  rw [row, total, List.map_append, List.zipWith_append (by rw [List.length_map, first]),
    List.map_cons, List.zipWith_cons_cons, List.getD_append_right _ _ _ _ (by simp [first])]
  simp [first]

/-- The slopes are the derivative of the loss of one example, in each number of its prediction. -/
lemma hasDerivAt_loss (exps : e.exp = Real.exp) (logs : e.log = Real.log)
    (first : front.length = before.length) (last : back.length = after.length) :
    let _ := ofField e
    HasDerivAt (fun z => -dot (front ++ t :: back) (logSoftmax (before ++ z :: after)))
      ((slopes (before ++ x :: after) (front ++ t :: back)).getD before.length 0) x := by
  intro _
  have pos : 0 < (before.map Real.exp).sum + (Real.exp x + (after.map Real.exp).sum) := by
    have total : 0 < ((before ++ x :: after).map Real.exp).sum :=
      sum_exp_pos (List.append_ne_nil_of_right_ne_nil before (List.cons_ne_nil x after))
    simpa only [List.map_append, List.map_cons, List.sum_append, List.sum_cons] using total
  have logarithm : HasDerivAt
      (fun z => Real.log ((before.map Real.exp).sum + (Real.exp z + (after.map Real.exp).sum)))
      (Real.exp x / ((before.map Real.exp).sum + (Real.exp x + (after.map Real.exp).sum))) x :=
    (((Real.hasDerivAt_exp x).add_const _).const_add _).log pos.ne'
  have linear : HasDerivAt (fun z => (List.zipWith (· * ·) front before).sum +
      (t * z + (List.zipWith (· * ·) back after).sum)) t x :=
    ((((hasDerivAt_id' x).const_mul t).add_const _).const_add _).congr_deriv (mul_one t)
  simp only [dot_logSoftmax exps logs first last, getD_slopes exps first]
  exact (linear.sub (logarithm.const_mul (front ++ t :: back).sum)).neg.congr_deriv (neg_sub ..)

end Derivative

section Exact

variable [Exact α] [Commutative α] [Subtractive α] [Fractional α]

attribute [local instance] commRing

omit [Exact α] [Fractional α] in
/-- For a target that sums to one the slopes are the softmax less the target. -/
lemma slopes_of_one {prediction target : List α} (one : sum target = 1) :
    slopes prediction target = List.zipWith (· - ·) (softmax prediction) target := by
  simp only [slopes, one, one_mul, List.map_id']

/-- A target of sum zero has no softmax in its slopes. -/
lemma slopes_of_zero {prediction target : List α} (zero : sum target = 0) (some : prediction ≠ [])
    (length : target.length = prediction.length) :
    slopes prediction target ≠ List.zipWith (· - ·) (softmax prediction) target := by
  intro same
  have pos := (softmax_spec some).1
  have lengths := length_softmax prediction
  obtain ⟨x, rest, eq⟩ := List.exists_cons_of_length_pos (lengths ▸ List.length_pos_of_ne_nil some)
  obtain ⟨c, target, rfl⟩ :=
    List.exists_cons_of_length_pos (length ▸ List.length_pos_of_ne_nil some)
  rw [eq] at pos
  simp only [slopes, zero, eq, List.map_cons, List.zipWith_cons_cons, List.cons.injEq,
    zero_mul] at same
  have nothing : x = 0 := (sub_left_inj.1 same.1).symm
  exact Exact.lt_irrefl (0 : α) (by simpa only [nothing] using pos x (List.mem_cons_self ..))

/-- The softmax less a target is the derivative of the loss exactly for targets of sum one. -/
lemma sub_eq_slopes_iff {prediction target : List α} {p : Prop} [Decidable p]
    (some : prediction ≠ []) (length : target.length = prediction.length)
    (total : sum target = if p then 1 else 0) :
    List.zipWith (· - ·) (softmax prediction) target = slopes prediction target ↔ p := by
  by_cases inside : p
  case pos =>
    rw [if_pos inside] at total
    exact iff_of_true (slopes_of_one total).symm inside
  case neg =>
    rw [if_neg inside] at total
    exact iff_of_false (slopes_of_zero total some length).symm inside

omit [Exact α] [Subtractive α] [Fractional α] in
/-- The row of a class has the sum one if its column is there. -/
lemma sum_line_oneHot {columns : List Nat} {i c : Nat} (own : columns[i]? = some c) (k : Nat) :
    sum ((oneHot columns k : Tensor α).line 1 [i]) = if c < k then 1 else 0 := by
  rw [line_oneHot own]
  exact (sum_map_ite List.nodup_range c 1).trans (if_congr List.mem_range rfl rfl)

end Exact

/-! ### Widths -/

/-- Neither of two words is above the larger one. -/
lemma toInt_le_larger (v w : Word) : v.toInt ≤ (v.larger w).toInt ∧
    w.toInt ≤ (v.larger w).toInt := by
  rw [Word.larger, Word.less]
  split
  next less =>
    rw [decide_eq_true_eq] at less
    exact ⟨less.le, le_rfl⟩
  next notLess =>
    rw [decide_eq_true_eq] at notLess
    exact ⟨le_rfl, not_lt.1 notLess⟩

/-- Where the number of classes is not given, a readout has a column for each class. -/
lemma toInt_lt_width (unfixed : (classification classes).fixedWidth? = none)
    (sized : (classification classes).width (.words y) = .ok a) {w : Word} (mem : w ∈ y.toList) :
    w.toInt < a := by
  simp only [width, unfixed, Option.getD_none, bind_eq_ok, pure_eq_ok] at sized
  obtain ⟨largest, found, rfl⟩ := sized
  simp only [largestClass] at found
  split at found
  next none =>
    rw [none] at mem
    cases mem
  next v ws some =>
    obtain rfl := Except.ok.inj found
    obtain ⟨whole, each⟩ := le_foldl toInt_le_larger ws v
    rw [some] at mem
    rcases List.mem_cons.1 mem with rfl | later
    · omega
    · have le := each w later
      omega

/-- The gradient of classes that are not negative, for a prediction with at least the columns that a
readout of them needs: it exists if there is room for the targets, and times the number of examples
it is the softmax of a prediction less its target. This is the derivative of the loss exactly for
the examples whose class is a column of the prediction; these are all of them if the number of
classes is not given. -/
theorem gradient_classification [Exact α] [Commutative α] [Subtractive α] [Fractional α]
    {yhat : Tensor α} (own : (classification classes).width (.words y) = .ok a) (width : a ≤ k)
    (some : 1 ≤ k) (shape : y.shape = [N]) (nonneg : ∀ w ∈ y.toList, 0 ≤ w.toInt)
    (sized : yhat.shape = [N, k]) :
    ((∃ g, (classification classes).gradient (.words y) (.reals yhat) = .ok g) ↔
      checkRoom N (columns a y) = .ok ()) ∧
    ((classification classes).fixedWidth? = none → ∀ w ∈ y.toList, w.toInt < (k : Int)) ∧
    ∀ g, (classification classes).gradient (.words y) (.reals yhat) = .ok g →
      ∃ t, (classification classes).targets (.words y) yhat.shape = .ok t ∧ g.shape = [N, k] ∧
        t.shape = [N, k] ∧
        ∀ i w, y.toList[i]? = Option.some w →
          (g.line 1 [i]).map (ofNat N * ·) =
              List.zipWith (· - ·) (softmax (yhat.line 1 [i])) (t.line 1 [i]) ∧
            sum (t.line 1 [i]) = (if w.toInt < (k : Int) then 1 else 0) ∧
            ((g.line 1 [i]).map (ofNat N * ·) = slopes (yhat.line 1 [i]) (t.line 1 [i]) ↔
              w.toInt < (k : Int)) := by
  have length : y.toList.length = N := by
    rw [Tensor.toList, Array.length_toList, y.size_eq, shape, volume, volume, Nat.mul_one]
  have all : (classification classes).fixedWidth? = none → ∀ w ∈ y.toList, w.toInt < (k : Int) :=
    fun unfixed w mem => (toInt_lt_width unfixed own mem).trans_le width
  have alike : (yhat.mapLines softmax 1).shape =
      (oneHot (y.toList.map (·.toInt.toNat)) k : Tensor α).shape := by
    rw [oneHot, Tensor.ofFn, List.length_map, length]
    exact sized
  have encoded := targets_eq (α := α) own nonneg shape k
  -- whether there is room for the columns is all that the gradient depends on
  cases room : checkRoom N (columns a y) with
  | error e =>
    rw [room] at encoded
    have failed : (classification classes).gradient (.words y) (.reals yhat) = .error e := by
      simp only [gradient, Signal.shape, sized, encoded]
      rfl
    rw [failed]
    refine ⟨⟨?_, ?_⟩, all, ?_⟩
    · rintro ⟨g, ⟨⟩⟩
    · rintro ⟨⟩
    · rintro g ⟨⟩
  | ok u =>
    rw [room] at encoded
    have made := gradient_eq (k := k) (N := N) encoded alike sized some
    refine ⟨⟨fun _ => rfl, fun _ => ⟨_, made⟩⟩, all, fun g done => ?_⟩
    obtain rfl := Except.ok.inj (made.symm.trans done)
    refine ⟨_, sized ▸ encoded, sized, alike.symm.trans sized, fun i w there => ?_⟩
    have row : i < N := length ▸ (List.getElem?_eq_some_iff.1 there).1
    have column : (y.toList.map (·.toInt.toNat))[i]? = Option.some w.toInt.toNat := by
      rw [List.getElem?_map, there, Option.map_some]
    have place : w.toInt.toNat < k ↔ w.toInt < (k : Int) := by
      have := nonneg w (List.mem_of_getElem? there)
      omega
    -- a row of the target sums to one just where the label is a column; there the slopes agree
    have total := (sum_line_oneHot (α := α) column k).trans (if_congr place rfl rfl)
    have columns := Tensor.length_line sized i
    have filled : yhat.line 1 [i] ≠ [] := List.ne_nil_of_length_pos (columns ▸ some)
    have length := (Tensor.length_line (alike.symm.trans sized) i).trans columns.symm
    have line := gradient_line alike sized row
    exact ⟨line, total, line ▸ sub_eq_slopes_iff filled length total⟩

/-! ### A class beyond the prediction -/

namespace Sample

open scoped Tensor.Sample

/-- Two classes, of which a prediction with two columns has the first. -/
def pair : Tensor Word :=
  .ofList [.ofInt 0, .ofInt 2]

/-- Predictions for two examples that prefer neither of two columns. -/
def level : Tensor ℚ :=
  .ofFn [2, 2] fun _ => 0

/-- Two classes are known. -/
def known : Objective ℚ :=
  classification (some (.int 2))

end Sample

open Sample Tensor.Sample in
open scoped Tensor.Sample in
/-- For the class that is a column the gradient is the derivative of the loss, for the other one it
is not. -/
theorem gradient_classification_pair :
    known.width (.words pair) = .ok 2 ∧ (∀ w ∈ pair.toList, 0 ≤ w.toInt) ∧
    ∃ g t, known.gradient (.words pair) (.reals level) = .ok g ∧
      known.targets (.words pair) [2, 2] = .ok t ∧
      (g.line 1 [0]).map (ofNat 2 * ·) = slopes (level.line 1 [0]) (t.line 1 [0]) ∧
      (g.line 1 [1]).map (ofNat 2 * ·) ≠ slopes (level.line 1 [1]) (t.line 1 [1]) := by
  have := exact_ofField elementary
  have := commutative_ofField elementary
  have := subtractive_ofField elementary
  have := fractional_ofField elementary exp_pos
  have own : (classification (some (.int 2)) : Objective ℚ).width (.words pair) = .ok 2 := rfl
  have nonneg : ∀ w ∈ pair.toList, 0 ≤ w.toInt := by decide
  have sized : level.shape = [2, 2] := rfl
  obtain ⟨made, -, each⟩ := gradient_classification own (by decide) (by decide) rfl nonneg sized
  obtain ⟨g, made⟩ := made.2 rfl
  obtain ⟨t, found, -, -, rows⟩ := each g made
  exact ⟨rfl, nonneg, g, t, made, found, (rows 0 (.ofInt 0) rfl).2.2.2 (by decide),
    fun same => absurd ((rows 1 (.ofInt 2) rfl).2.2.1 same) (by decide)⟩

open Sample in
open scoped Tensor.Sample in
/-- A prediction of two equal numbers for one example of a third class has a gradient, although its
loss does not depend on them. -/
theorem gradient_ne_slopes : known.width (.words (.ofList [.ofInt 2])) = .ok 2 ∧
    ∃ g t, known.gradient (.words (.ofList [.ofInt 2])) (.reals (.ofFn [1, 2] fun _ => 0)) = .ok g ∧
      known.targets (.words (.ofList [.ofInt 2])) [1, 2] = .ok t ∧
      (g.line 1 [0]).map (ofNat 1 * ·) = [1 / 2, 1 / 2] ∧
      (g.line 1 [0]).map (ofNat 1 * ·) ≠
        slopes ((Tensor.ofFn [1, 2] fun _ => 0).line 1 [0]) (t.line 1 [0]) := by
  refine ⟨rfl, ⟨[1, 2], #[1 / 2, 1 / 2], rfl⟩, ⟨[1, 2], #[0, 0], rfl⟩, ?_, ?_, ?_, ?_⟩
  · with_unfolding_all rfl
  · with_unfolding_all rfl
  · decide +kernel
  · decide +kernel

end Objective

end OperatorNet
