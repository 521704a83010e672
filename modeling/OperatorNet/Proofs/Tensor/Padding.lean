import OperatorNet.Proofs.Scalar.Sums
import OperatorNet.Proofs.Tensor.Mixing

/-!
# Padding and cutting

A tensor is given by its values at the places of its shape, row by row (`toList_eq`), and a smaller
shape has those places of a larger one that lie inside it, in the same order (`filter_places`). So
padding with zeros and cutting are adjoint (`inner_padTo`), and cutting undoes padding
(`cutTo_padTo`). Writing each example as a row changes the shape but none of the numbers, so the
same holds of candidates that are aligned (`align_adjoint`): what a gradient of the common shape
says about a padded candidate is what its part says about the candidate itself.
-/

namespace OperatorNet

variable {α : Type} {s t : List Nat} {n : Nat}

/-! ### Places -/

/-- All places of a shape, row by row. -/
def places : List Nat → List (List Nat)
  | [] => [[]]
  | d :: ds => (List.range d).flatMap fun i => (places ds).map (i :: ·)

/-- Some rows of numbers, one after the other. -/
lemma range_mul (d v : Nat) :
    List.range (d * v) = (List.range d).flatMap fun i => (List.range v).map (i * v + ·) := by
  induction d with
  | zero => simp
  | succ d ih =>
    rw [Nat.succ_mul, List.range_add, ih, List.range_succ, List.flatMap_append,
      List.flatMap_singleton]

/-- The places of a shape are numbered in order. -/
lemma map_unravel (s : List Nat) : (List.range (volume s)).map (unravel s) = places s := by
  induction s with
  | nil => rfl
  | cons d ds ih =>
    rw [volume, range_mul, List.map_flatMap, places]
    refine List.flatMap_congr fun i _ => ?_
    rw [← ih, List.map_map, List.map_map]
    refine List.map_congr_left fun k below => ?_
    rw [List.mem_range] at below
    have row : (i * volume ds + k) / volume ds = i := by
      rw [Nat.mul_comm, Nat.mul_add_div (Nat.zero_lt_of_lt below), Nat.div_eq_of_lt below,
        Nat.add_zero]
    have column : (i * volume ds + k) % volume ds = k := by
      rw [Nat.mul_comm, Nat.mul_add_mod, Nat.mod_eq_of_lt below]
    change (_ / _) :: unravel ds (_ % _) = i :: unravel ds k
    rw [row, column]

/-- The places of a shape are inside. -/
lemma inside_of_mem_places {place : List Nat} (mem : place ∈ places s) : Inside s place := by
  rw [← map_unravel] at mem
  obtain ⟨k, below, rfl⟩ := List.mem_map.1 mem
  exact inside_unravel (List.mem_range.1 below)

/-- A place inside a shape is inside every larger one. -/
lemma Inside.mono {place : List Nat} (inside : List.Forall₂ (· ≤ ·) s t) (within : Inside s place) :
    Inside t place := by
  induction inside generalizing place with
  | nil => exact within
  | cons le _ ih =>
    cases place with
    | nil => exact within
    | cons i rest => exact ⟨Nat.lt_of_lt_of_le within.1 le, ih within.2⟩

/-- The places of a larger shape that lie inside a smaller one are its places, in the same order. -/
lemma filter_places (inside : List.Forall₂ (· ≤ ·) s t) :
    (places t).filter (fun place => Inside s place) = places s := by
  induction inside with
  | nil => rfl
  | @cons d e ds es le _ ih =>
    -- rows within the smaller shape are cut, those behind it are left out
    have rows : ∀ i, ((places es).map (i :: ·)).filter (fun place => Inside (d :: ds) place) =
        if i < d then (places ds).map (i :: ·) else [] := by
      intro i
      rw [List.filter_map]
      split
      next less => simp only [Function.comp_def, Inside, less, true_and, ih]
      next more =>
        simp only [Function.comp_def, Inside, more, false_and, decide_false, List.filter_false,
          List.map_nil]
    have split : List.range e = List.range d ++ (List.range (e - d)).map (d + ·) := by
      rw [← List.range_add, Nat.add_sub_cancel' le]
    simp only [places, List.filter_flatMap, rows]
    rw [split, List.flatMap_append]
    have first : ((List.range d).flatMap fun i => if i < d then (places ds).map (i :: ·) else []) =
        (List.range d).flatMap fun i => (places ds).map (i :: ·) :=
      List.flatMap_congr fun i mem => if_pos (List.mem_range.1 mem)
    have last : (((List.range (e - d)).map (d + ·)).flatMap
        fun i => if i < d then (places ds).map (i :: ·) else []) = [] := by
      simp
    rw [first, last, List.append_nil]

/-! ### Numbers row by row -/

namespace Tensor

variable {a b g r out : Tensor α} {shape : List Nat}

/-- A tensor made of a function lists its values place by place. -/
lemma toList_ofFn (shape : List Nat) (f : List Nat → α) :
    (ofFn shape f).toList = (places shape).map f := by
  rw [toList, ofFn, Array.toList_ofFn, ← map_unravel, List.map_map]
  exact List.ext_getElem (by simp) fun k _ _ => by simp

/-- Functions that agree inside the shape make the same tensor. -/
lemma ofFn_congr [Zero α] {f f' : List Nat → α}
    (same : ∀ place, Inside shape place → f place = f' place) :
    ofFn shape f = ofFn shape f' :=
  ofFn_eq (t := ofFn shape f') fun place within =>
    (same place within).trans (get_ofFn within f').symm

/-- The numbers of a tensor are those at its places. -/
lemma toList_eq [Zero α] (a : Tensor α) : a.toList = (places a.shape).map a.get := by
  rw [← toList_ofFn, ofFn_eq fun _ _ => rfl]

section Values

variable {β γ : Type} {c : Tensor β} {place : List Nat} [Zero α] [Zero β] [Zero γ]

/-- A mapped tensor has the mapped values. -/
lemma get_map {f : α → β} (within : Inside a.shape place) :
    (a.map f).get place = f (a.get place) := by
  have here : ravel a.shape place < a.data.size := a.size_eq ▸ ravel_lt within
  simp [get, map, Array.getD, here]

/-- Two tensors put together have their values put together. -/
lemma get_zipWith {f : α → β → γ} (alike : a.shape = c.shape) (within : Inside a.shape place) :
    (zipWith f a c alike).get place = f (a.get place) (c.get place) := by
  have here : ravel a.shape place < a.data.size := a.size_eq ▸ ravel_lt within
  have there : ravel a.shape place < c.data.size := c.size_eq ▸ alike ▸ ravel_lt within
  simp [get, zipWith, ← alike, Array.getD, here, there]

end Values

/-! ### Padding and cutting -/

section Cut

variable [Zero α] (inside : List.Forall₂ (· ≤ ·) s shape)

include inside

/-- A tensor is cut to the values inside a smaller shape. -/
lemma cutTo_eq (same : g.shape = shape) : g.cutTo s = ofFn s g.get := by
  have least : List.zipWith min shape s = s := by
    clear same
    induction inside with
    | nil => rfl
    | cons le _ ih => rw [List.zipWith_cons_cons, ih, Nat.min_eq_right le]
  rw [cutTo, same, least]

/-- Cutting undoes padding. -/
lemma cutTo_padTo (same : a.shape = s) : (a.padTo shape).cutTo s = a := by
  rw [cutTo_eq inside rfl]
  subst same
  refine ofFn_eq fun place within => ?_
  rw [padTo, get_ofFn (within.mono inside), if_pos within]

end Cut

section Scalar

variable [Scalar α]

/-- The inner product of tensors of one shape is that of their lists. -/
lemma inner_of_alike (alike : a.shape = b.shape) : a.inner b = Scalar.dot a.toList b.toList := by
  rw [inner, combineAt, dif_pos alike, total, Scalar.dot, toList, toList, toList, zipWith,
    Array.toList_zipWith]

/-- The inner product adds up what stands at the places. -/
lemma inner_eq (alike : a.shape = b.shape) :
    a.inner b = Scalar.sum ((places a.shape).map fun place => a.get place * b.get place) := by
  rw [inner_of_alike alike, Scalar.dot, a.toList_eq, b.toList_eq, ← alike, List.zipWith_map,
    List.zipWith_self]

/-- A sum of tensors has the sums of their values. -/
lemma get_add (alike : a.shape = b.shape) {place : List Nat} (within : Inside a.shape place) :
    (a.add b).get place = a.get place + b.get place := by
  rw [add, combineAt, dif_pos alike, get_zipWith alike within]

/-- A multiple of a tensor has the multiples of its values. -/
lemma get_scale {c : α} {place : List Nat} (within : Inside a.shape place) :
    (a.scale c).get place = c * a.get place :=
  get_map within

/-- A sum of tensors of one shape has it. -/
lemma shape_add (alike : a.shape = b.shape) : (a.add b).shape = a.shape := by
  rw [add, combineAt, dif_pos alike]
  rfl

/-- What a gradient says about a padded tensor is what its part says about the tensor. -/
lemma inner_padTo [Scalar.Neutral α] (inside : List.Forall₂ (· ≤ ·) a.shape shape)
    (same : g.shape = shape) :
    (a.padTo shape).inner g = a.inner (g.cutTo a.shape) := by
  have outside : ∀ place ∈ places shape, decide (Inside a.shape place) = false →
      (a.padTo shape).get place * g.get place = 0 := by
    intro place mem beyond
    rw [padTo, get_ofFn (inside_of_mem_places mem), if_neg (of_decide_eq_false beyond),
      Scalar.Neutral.zero_mul]
  have within : ∀ place ∈ places a.shape, (a.padTo shape).get place * g.get place =
      a.get place * (g.cutTo a.shape).get place := by
    intro place mem
    have there : Inside a.shape place := inside_of_mem_places mem
    rw [padTo, get_ofFn (there.mono inside), if_pos there, cutTo_eq inside same, get_ofFn there]
  calc (a.padTo shape).inner g
      = Scalar.sum ((places shape).map fun place => (a.padTo shape).get place * g.get place) :=
        inner_eq same.symm
    _ = Scalar.sum (((places shape).filter fun place => Inside a.shape place).map
          fun place => (a.padTo shape).get place * g.get place) := (Scalar.sum_filter outside).symm
    _ = Scalar.sum ((places a.shape).map fun place => (a.padTo shape).get place * g.get place) := by
        rw [filter_places inside]
    _ =
      Scalar.sum ((places a.shape).map fun place => a.get place * (g.cutTo a.shape).get place) := by
        rw [List.map_congr_left within]
    _ = a.inner (g.cutTo a.shape) := by
        have alike : a.shape = (g.cutTo a.shape).shape := by
          rw [cutTo_eq inside same]
          rfl
        exact (inner_eq alike).symm

end Scalar

/-! ### Rows -/

/-- A tensor with an example at least can be written with a row for each. -/
lemma exists_flattened (same : a.shape = n :: s) (some : 1 ≤ n) :
    ∃ r, a.flattened = .ok r ∧ r.shape = [n, volume s] ∧ r.data = a.data := by
  obtain ⟨r, found, shape, data⟩ := exists_rows same
  have there : ¬ r.axis 0 = 0 := by
    rw [axis, shape]
    exact Nat.ne_of_gt some
  exact ⟨r, by rw [flattened, found]; exact if_neg there, shape, data⟩

/-- Rows are written as they are. -/
lemma flattened_rows {m : Nat} (same : a.shape = [n, m]) (some : 1 ≤ n) : a.flattened = .ok a := by
  obtain ⟨r, flat, shape, data⟩ := exists_flattened same some
  rw [flat, eq_of_data (shape.trans ?_) data]
  rw [same, volume, volume, Nat.mul_one]

end Tensor

/-! ### One rank -/

section Leveled

variable {outs : List (Tensor α)} {known : Option (List Nat)}

/-- A tensor as it is, or with a row for each of its `n` examples. -/
inductive Leveled (n : Nat) (out : Tensor α) : Tensor α → Prop
  | whole {s : List Nat} : out.shape = n :: s → Leveled n out out
  | rows {s : List Nat} {r : Tensor α} :
    out.shape = n :: s → r.shape = [n, volume s] → r.data = out.data → Leveled n out r

/-- Tensors with examples are brought to one rank. -/
lemma exists_leveled (batch : 1 ≤ n) (shapes : ∀ out ∈ outs, ∃ s, out.shape = n :: s) :
    ∃ us rank, leveled outs = .ok us ∧ List.Forall₂ (Leveled n) outs us ∧
      ∀ u ∈ us, u.rank = rank := by
  cases outs with
  | nil => exact ⟨[], 0, rfl, .nil, nofun⟩
  | cons out rest =>
    rw [leveled]
    split
    next one =>
      refine ⟨out :: rest, out.rank, rfl, List.forall₂_same.2 fun u mem => ?_, ?_⟩
      · obtain ⟨s, shape⟩ := shapes u mem
        exact .whole shape
      · exact List.forall_mem_cons.2
          ⟨rfl, fun u mem => of_decide_eq_true (List.all_eq_true.1 one u mem)⟩
    next =>
      have each : ∀ u ∈ out :: rest, ∃ r, u.flattened = .ok r ∧ Leveled n u r ∧ r.rank = 2 := by
        intro u mem
        obtain ⟨s, shape⟩ := shapes u mem
        obtain ⟨r, flat, size, data⟩ := Tensor.exists_flattened shape batch
        exact ⟨r, flat, .rows shape size data, by rw [Tensor.rank, size]; rfl⟩
      obtain ⟨us, found⟩ := exists_forall₂ each
      refine ⟨us, 2, mapM_eq_ok.2 (found.imp fun _ _ h => h.1), found.imp fun _ _ h => h.2.1,
        fun u mem => ?_⟩
      obtain ⟨_, -, -, -, rank⟩ := exists_of_mem_forall₂ found mem
      exact rank

/-- Tensors of one rank lie inside the sizes that they are padded to, whatever is known from
before. -/
lemma inside_alignedSizes {rank : Nat} (ranks : ∀ out ∈ outs, out.rank = rank) :
    ∀ out ∈ outs, List.Forall₂ (· ≤ ·) (out.shape.drop 1) (alignedSizes known outs) := by
  have lengths : ∀ s ∈ outs.map fun out => out.shape.drop 1, s.length = rank - 1 := by
    refine List.forall_mem_map.2 fun out mem => ?_
    rw [List.length_drop, ← ranks out mem, Tensor.rank]
  have least := List.forall_mem_map.1 (le_enclosing lengths)
  have more : List.Forall₂ (· ≤ ·) (enclosing (outs.map fun out => out.shape.drop 1))
      (alignedSizes known outs) := by
    simp only [alignedSizes]
    split
    next before =>
      split
      next same => exact le_zipWith_max_right same
      next => exact List.forall₂_same.2 fun n _ => Nat.le_refl n
    next => exact List.forall₂_same.2 fun n _ => Nat.le_refl n
  exact fun out mem => forall₂_le_trans (least out mem) more

end Leveled

/-! ### Alignment -/

/-- Cutting undoes what was done to a tensor to pad it, and gives the part of a gradient that
belongs to it. -/
structure Adjoint [Scalar α] (out padded : Tensor α) : Prop where
  restores : unalign padded out = .ok out
  inner : ∀ g : Tensor α, g.shape = padded.shape →
    ∃ cut, unalign g out = .ok cut ∧ cut.shape = out.shape ∧ padded.inner g = out.inner cut

section Align

variable [Scalar α] [Scalar.Neutral α] {a g r out : Tensor α} {shape sizes : List Nat}
  {known : Option (List Nat)} {outs : List (Tensor α)}

/-- A tensor whose numbers are padded in another shape, to which gradients are cut. -/
lemma adjoint_of_unalign (data : r.data = out.data) (inside : List.Forall₂ (· ≤ ·) r.shape shape)
    (cuts : ∀ g : Tensor α, g.shape = shape →
      ∃ cut, unalign g out = .ok cut ∧ cut.shape = out.shape ∧ cut.data = (g.cutTo r.shape).data) :
    Adjoint out (r.padTo shape) := by
  constructor
  case restores =>
    obtain ⟨cut, done, same, numbers⟩ := cuts (r.padTo shape) rfl
    rw [Tensor.cutTo_padTo inside rfl, data] at numbers
    rw [done, Tensor.eq_of_data same numbers]
  case inner =>
    intro g like
    obtain ⟨cut, done, same, numbers⟩ := cuts g like
    have alike : r.shape = (g.cutTo r.shape).shape := by
      rw [Tensor.cutTo_eq inside like]
      rfl
    refine ⟨cut, done, same, ?_⟩
    rw [Tensor.inner_padTo inside like, Tensor.inner_of_alike alike,
      Tensor.inner_of_alike same.symm,
      Tensor.toList, Tensor.toList, Tensor.toList, Tensor.toList, data, numbers]

/-- A tensor that is padded as it is. -/
lemma adjoint_padTo (inside : List.Forall₂ (· ≤ ·) out.shape shape) :
    Adjoint out (out.padTo shape) := by
  refine adjoint_of_unalign rfl inside fun g like => ⟨g.cutTo out.shape, if_pos ?_, ?_, rfl⟩
  · rw [Tensor.rank, Tensor.rank, like, inside.length_eq]
  · rw [Tensor.cutTo_eq inside like]
    rfl

/-- A tensor that is padded as rows. -/
lemma adjoint_rows {m : Nat} (same : out.shape = n :: s) (some : 1 ≤ n)
    (shape : r.shape = [n, volume s]) (data : r.data = out.data) (le : volume s ≤ m) :
    Adjoint out (r.padTo [n, m]) := by
  have inside : List.Forall₂ (· ≤ ·) r.shape [n, m] := by
    rw [shape]
    exact .cons (Nat.le_refl n) (.cons le .nil)
  refine adjoint_of_unalign data inside fun g like => ?_
  have size : (g.cutTo r.shape).shape = [n, volume s] := by
    rw [Tensor.cutTo_eq inside like]
    exact shape
  rw [unalign]
  split
  next ranks =>
    -- rows are cut as they are
    have rows : out.shape = r.shape := by
      rw [Tensor.rank, Tensor.rank, like, same] at ranks
      obtain ⟨k, rfl⟩ := List.length_eq_one_iff.1 (Nat.succ.inj ranks).symm
      rw [same, shape, volume, volume, Nat.mul_one]
    rw [rows]
    exact ⟨_, rfl, size.trans shape.symm, rfl⟩
  next =>
    have apart : ¬ (out.rank = 0 ∨ out.axis 0 = 0) := by
      rw [Tensor.rank, Tensor.axis, same]
      exact fun empty => empty.elim (Nat.succ_ne_zero _) (Nat.ne_of_gt some)
    have part : g.cutTo [g.axis 0, volume (out.shape.drop 1)] = g.cutTo r.shape := by
      rw [Tensor.axis, like, same, shape]
      rfl
    have volumes : volume (g.cutTo r.shape).shape = volume out.shape := by
      rw [size, same]
      simp only [volume, Nat.mul_one]
    refine ⟨(g.cutTo r.shape).reshape out.shape volumes, ?_, rfl, rfl⟩
    rw [Tensor.flattened_rows like some]
    change (if _ then _ else _) = _
    rw [if_neg apart, part, Tensor.reshaped, dif_pos volumes]

/-- A tensor that was brought to the common rank is padded. -/
lemma Leveled.adjoint (batch : 1 ≤ n) (level : Leveled n out r)
    (inside : List.Forall₂ (· ≤ ·) (r.shape.drop 1) sizes) :
    (r.padTo (r.shape.take 1 ++ sizes)).shape = n :: sizes ∧
      Adjoint out (r.padTo (r.shape.take 1 ++ sizes)) := by
  cases level with
  | whole shape =>
    refine ⟨by rw [shape]; rfl, adjoint_padTo ?_⟩
    rw [shape] at inside ⊢
    exact .cons (Nat.le_refl n) inside
  | rows shape size data =>
    rw [size] at inside ⊢
    obtain ⟨m, _, le, last, rfl⟩ := List.forall₂_cons_left_iff.1 inside
    cases last
    exact ⟨rfl, adjoint_rows shape batch size data le⟩

/-- Tensors with the same number of examples, of any ranks, are padded to a common shape. -/
lemma exists_align (batch : 1 ≤ n) (shapes : ∀ out ∈ outs, ∃ s, out.shape = n :: s)
    (known : Option (List Nat)) : ∃ sizes padded, align known outs = .ok (sizes, padded) ∧
      List.Forall₂ (fun out a => a.shape = n :: sizes ∧ Adjoint out a) outs padded := by
  obtain ⟨us, rank, level, each, ranks⟩ := exists_leveled batch shapes
  refine ⟨alignedSizes known us, _, by rw [align, level]; rfl, ?_⟩
  rw [List.forall₂_map_right_iff]
  have inside : ∀ u ∈ us, List.Forall₂ (· ≤ ·) (u.shape.drop 1) (alignedSizes known us) :=
    inside_alignedSizes ranks
  generalize alignedSizes known us = sizes at inside
  clear level ranks shapes
  induction each with
  | nil => exact .nil
  | cons head _ ih =>
    rw [List.forall_mem_cons] at inside
    exact .cons (head.adjoint batch inside.1) (ih inside.2)

end Align

/-! ### Mixtures -/

section Mixture

variable [Scalar α] [Scalar.Commutative α] {a b g : Tensor α} {ts outs padded : List (Tensor α)}
  {weights : List α} {shape : List Nat}

attribute [local instance] Scalar.commSemiring

namespace Tensor

/-- The inner product of a sum is the sum of the inner products. -/
lemma inner_add (alike : a.shape = b.shape) (same : a.shape = g.shape) :
    (a.add b).inner g = a.inner g + b.inner g := by
  have each : ∀ place ∈ places a.shape, (a.add b).get place * g.get place =
      a.get place * g.get place + b.get place * g.get place := by
    intro place mem
    rw [get_add alike (inside_of_mem_places mem), add_mul]
  rw [inner_eq ((shape_add alike).trans same), inner_eq same, inner_eq (alike.symm.trans same),
    shape_add alike, ← alike, List.map_congr_left each]
  simp only [Scalar.sum_eq, List.sum_map_add]

/-- The inner product of a multiple is the multiple of the inner product. -/
lemma inner_scale (c : α) (same : a.shape = g.shape) : (a.scale c).inner g = c * a.inner g := by
  have each : ∀ place ∈ places a.shape, (a.scale c).get place * g.get place =
      c * (a.get place * g.get place) := by
    intro place mem
    rw [get_scale (inside_of_mem_places mem), mul_assoc]
  have scaled : (a.scale c).inner g =
      Scalar.sum ((places a.shape).map fun place => (a.scale c).get place * g.get place) :=
        inner_eq same
  rw [scaled, inner_eq same, List.map_congr_left each]
  simp only [Scalar.sum_eq, List.sum_map_mul_left]

/-- The inner product is the same both ways round. -/
lemma inner_comm (same : a.shape = b.shape) : a.inner b = b.inner a := by
  rw [inner_eq same, inner_eq same.symm, ← same]
  simp only [mul_comm]

/-- The inner product with a multiple is the multiple of the inner product. -/
lemma inner_scale_right (c : α) (same : a.shape = g.shape) :
    a.inner (g.scale c) = c * a.inner g := by
  have alike : a.shape = (g.scale c).shape := same
  rw [inner_comm alike, inner_scale c same.symm, inner_comm same]

/-- What a gradient says about a sum is what it says about the terms. -/
lemma inner_foldl_add (alike : ∀ t ∈ ts, t.shape = a.shape) (same : a.shape = g.shape) :
    (ts.foldl add a).inner g = a.inner g + (ts.map (·.inner g)).sum := by
  induction ts generalizing a with
  | nil => exact (add_zero _).symm
  | cons t rest ih =>
    rw [List.forall_mem_cons] at alike
    have shape : (a.add t).shape = a.shape := shape_add alike.1.symm
    rw [List.foldl_cons, ih (fun u mem => (alike.2 u mem).trans shape.symm) (shape.trans same),
      inner_add alike.1.symm same, List.map_cons, List.sum_cons, add_assoc]

/-- What a gradient says about a mixture is the weighted sum of what it says about what is mixed. -/
lemma inner_mix (alike : ∀ t ∈ ts, t.shape = g.shape) (some : ts ≠ [])
    (length : weights.length = ts.length) :
    (mix weights ts).inner g = Scalar.dot weights (ts.map (·.inner g)) := by
  have scaled : ∀ {weights : List α} {ts : List (Tensor α)}, (∀ t ∈ ts, t.shape = g.shape) →
      (List.zipWith scale weights ts).map (·.inner g) =
        List.zipWith (· * ·) weights (ts.map (·.inner g)) := by
    intro weights ts alike
    induction ts generalizing weights with
    | nil => cases weights <;> rfl
    | cons t rest ih =>
      rw [List.forall_mem_cons] at alike
      cases weights with
      | nil => rfl
      | cons w weights =>
        rw [List.zipWith_cons_cons, List.map_cons, List.map_cons, List.zipWith_cons_cons,
          ih alike.2, inner_scale w alike.1]
  obtain ⟨t, rest, rfl⟩ := List.exists_cons_of_ne_nil some
  obtain ⟨w, others, rfl⟩ := List.exists_cons_of_length_eq_add_one length
  rw [List.forall_mem_cons] at alike
  have shapes : ∀ u ∈ List.zipWith scale others rest, u.shape = (t.scale w).shape := by
    intro u mem
    obtain ⟨k, bound, rfl⟩ := List.mem_iff_getElem.1 mem
    rw [List.getElem_zipWith]
    exact (alike.2 _ (List.getElem_mem _)).trans alike.1.symm
  rw [mix, List.zipWith_cons_cons]
  change ((List.zipWith scale others rest).foldl add (t.scale w)).inner g = _
  rw [inner_foldl_add shapes alike.1, scaled alike.2, inner_scale w alike.1, Scalar.dot,
    Scalar.sum_eq, List.map_cons, List.zipWith_cons_cons, List.sum_cons]

end Tensor

/-- What a gradient says about padded candidates is what their parts of it say about the
candidates. -/
lemma exists_cuts (each : List.Forall₂ (fun out a => a.shape = shape ∧ Adjoint out a) outs padded)
    (length : weights.length = outs.length) (same : g.shape = shape) :
    ∃ cuts, outs.mapM (unalign g) = .ok cuts ∧
      List.zipWith (· * ·) weights (padded.map (·.inner g)) =
        List.zipWith Tensor.inner outs (List.zipWith Tensor.scale weights cuts) := by
  induction each generalizing weights with
  | nil => exact ⟨[], rfl, by cases weights <;> rfl⟩
  | @cons out a outs padded head _ ih =>
    obtain ⟨w, weights, rfl⟩ := List.exists_cons_of_length_eq_add_one length
    obtain ⟨cuts, done, rest⟩ := ih (Nat.succ.inj length)
    obtain ⟨cut, first, like, inner⟩ := head.2.inner g (same.trans head.1.symm)
    refine ⟨cut :: cuts, mapM_eq_ok.2 (.cons first (mapM_eq_ok.1 done)), ?_⟩
    simp only [List.map_cons, List.zipWith_cons_cons, rest, inner,
      Tensor.inner_scale_right w like.symm]

/-- Tensors of any ranks with the same number of examples are aligned to one shape, whatever sizes
are known from before. Cutting undoes this for each of them and is adjoint to it, so a gradient says
about a mixture what the weighted parts of it say about what is mixed. -/
theorem align_adjoint (some : outs ≠ []) {n : Nat} (batch : 1 ≤ n)
    (shapes : ∀ out ∈ outs, ∃ s, out.shape = n :: s) (known : Option (List Nat)) :
    ∃ sizes padded, align known outs = .ok (sizes, padded) ∧
      List.Forall₂ (fun out a => a.shape = n :: sizes ∧ Adjoint out a) outs padded ∧
      ∀ (weights : List α) (g : Tensor α), weights.length = outs.length → g.shape = n :: sizes →
        ∃ mixture cuts, Tensor.mixed weights padded = .ok mixture ∧
          outs.mapM (unalign g) = .ok cuts ∧
          mixture.inner g =
            Scalar.sum
              (List.zipWith Tensor.inner outs (List.zipWith Tensor.scale weights cuts)) := by
  obtain ⟨sizes, padded, done, each⟩ := exists_align batch shapes known
  refine ⟨sizes, padded, done, each, fun weights g length same => ?_⟩
  have alike : ∀ a ∈ padded, a.shape = n :: sizes := by
    intro a mem
    obtain ⟨_, -, shape, -⟩ := exists_of_mem_forall₂ each mem
    exact shape
  have there : padded ≠ [] := by
    rintro rfl
    cases each
    exact some rfl
  have lengths : weights.length = padded.length := length.trans each.length_eq
  obtain ⟨cuts, parts, terms⟩ := exists_cuts each length same
  refine ⟨Tensor.mix weights padded, cuts, Tensor.mixed_of_alike alike there lengths, parts, ?_⟩
  rw [Tensor.inner_mix (fun a mem => (alike a mem).trans same.symm) there lengths,
    Scalar.dot, terms]

end Mixture

/-! ### Three ranks -/

namespace Tensor.Sample

/-- Elementary functions of rational numbers; exponentials are positive. -/
def elementary : Scalar.Elementary ℚ where
  exp x := if 0 ≤ x then 1 + x else 1 / (1 - x)
  log x := x - 1
  sqrt x := x
  pow x _ := x
  infinity := 0
  truncate x := x.floor
  divides x n := x ≠ 0 && (n / x).den = 1

/-- The exponentials of these functions are positive. -/
lemma exp_pos (x : ℚ) : 0 < elementary.exp x := by
  change 0 < if 0 ≤ x then 1 + x else 1 / (1 - x)
  split
  next nonneg => exact add_pos_of_pos_of_nonneg one_pos nonneg
  next neg => exact one_div_pos.2 (sub_pos.2 ((not_le.1 neg).trans one_pos))

scoped instance : Scalar ℚ :=
  Scalar.ofField elementary

/-- Two examples each, as numbers, as rows of three and as squares of four numbers. -/
def ragged : List (Tensor ℚ) :=
  [ofFn [2] fun place => place.sum, ofFn [2, 3] fun place => place.sum,
    ofFn [2, 2, 2] fun place => place.sum]

end Tensor.Sample

open Tensor Tensor.Sample in
open scoped Tensor.Sample in
/-- Squares are padded as rows of four, although three was known to be enough. -/
theorem align_adjoint_ragged : ragged ≠ [] ∧ (∀ out ∈ ragged, ∃ s, out.shape = 2 :: s) ∧
    ∃ padded, align (some [3]) ragged = .ok ([4], padded) ∧
      List.Forall₂ (fun out a => a.shape = [2, 4] ∧ Adjoint out a) ragged padded := by
  have := Scalar.commutative_ofField elementary
  have there : ragged ≠ [] := by simp [ragged]
  have shapes : ∀ out ∈ ragged, ∃ s, out.shape = 2 :: s := by simp [ragged, ofFn]
  obtain ⟨sizes, padded, done, each, -⟩ := align_adjoint there (by decide : 1 ≤ 2) shapes (some [3])
  have settled : (align (some [3]) ragged).map Prod.fst = .ok [4] := by with_unfolding_all rfl
  obtain rfl : sizes = [4] := by
    rw [done] at settled
    exact Except.ok.inj settled
  exact ⟨there, shapes, padded, done, each⟩

end OperatorNet
