import OperatorNet.Proofs.Results
import OperatorNet.Proofs.Scalar.Arithmetic
import OperatorNet.Search.Alignment

/-!
# Mixing tensors

Tensors of one shape are padded to one shape (`align_of_alike`), their own one unless larger sizes
are known from before (`map_padTo_of_fits`), and they can be mixed (`mixed_of_alike`). In exact
arithmetic a mixture that gives all weight to one of them is that one (`mix_of_vertex`).

Tensors of several shapes are padded to sizes that cover them. These are the sizes that are known
from before as long as these cover the shapes, unless the shapes have one rank and the known sizes
are for another one (`Shaped.settles_align`).
-/

namespace OperatorNet

variable {α : Type} {t u : Tensor α} {ts before after : List (Tensor α)} {shape : List Nat}
  {known : Option (List Nat)}

/-- Sizes that are known from before are nowhere larger than those of a shape behind its first
axis. -/
def Fits (known : Option (List Nat)) (shape : List Nat) : Prop :=
  ∀ sizes ∈ known, sizes.length = (shape.drop 1).length → List.Forall₂ (· ≤ ·) sizes (shape.drop 1)

/-- What is not remembered fits every shape. -/
lemma fits_none (shape : List Nat) : Fits none shape :=
  nofun

/-- Sizes that are not above others do not enlarge them. -/
lemma zipWith_max_of_le {before sizes : List Nat} (le : List.Forall₂ (· ≤ ·) before sizes) :
    List.zipWith max before sizes = sizes := by
  induction le with
  | nil => rfl
  | cons le _ ih => rw [List.zipWith_cons_cons, ih, Nat.max_eq_right le]

/-- Shapes that are all the same are enclosed by it. -/
lemma enclosing_of_alike {all : List (List Nat)} {sizes : List Nat} (alike : ∀ s ∈ all, s = sizes)
    (some : all ≠ []) : enclosing all = sizes := by
  obtain ⟨s, rest, rfl⟩ := List.exists_cons_of_ne_nil some
  rw [List.forall_mem_cons] at alike
  obtain ⟨rfl, alike⟩ := alike
  have same : List.zipWith max s s = s :=
    zipWith_max_of_le (List.forall₂_same.2 fun n _ => Nat.le_refl n)
  rw [enclosing]
  clear some
  induction rest with
  | nil => rfl
  | cons r rest ih =>
    rw [List.forall_mem_cons] at alike
    rw [List.foldl_cons, alike.1, same, ih alike.2]

namespace Tensor

/-- Tensors with the same shape and values are the same. -/
lemma eq_of_data (shape : t.shape = u.shape) (data : t.data = u.data) : t = u := by
  cases t
  cases u
  cases shape
  cases data
  rfl

/-- A tensor is given by its values at the places of its shape. -/
lemma ofFn_eq [Zero α] {t : Tensor α} {f : List Nat → α}
    (same : ∀ place, Inside t.shape place → f place = t.get place) : ofFn t.shape f = t := by
  refine eq_of_data rfl (Array.ext (by simp [ofFn, t.size_eq]) fun k _ bound => ?_)
  have inside : k < volume t.shape := t.size_eq ▸ bound
  simp [ofFn, same _ (inside_unravel inside), get, ravel_unravel inside, Array.getD, bound]

/-- A tensor padded to its own shape stays as it is. -/
lemma padTo_shape [Zero α] (t : Tensor α) : t.padTo t.shape = t :=
  ofFn_eq fun _ within => if_pos within

/-- Tensors of one shape are mixed as they are. -/
lemma mixed_of_alike [Scalar α] (alike : ∀ t ∈ ts, t.shape = shape) (some : ts ≠ [])
    {weights : List α} (length : weights.length = ts.length) :
    mixed weights ts = .ok (mix weights ts) := by
  obtain ⟨t, rest, rfl⟩ := List.exists_cons_of_ne_nil some
  rw [List.forall_mem_cons] at alike
  have same : (rest.all fun u => u.shape = t.shape) = true := by
    rw [List.all_eq_true]
    exact fun u hu => decide_eq_true ((alike.2 u hu).trans alike.1.symm)
  rw [mixed, if_pos ⟨same, length⟩]

section Neutral

variable [Scalar α] [Scalar.Neutral α]

/-- Adding nothing of a tensor changes nothing. -/
lemma add_scale_zero (same : u.shape = t.shape) : t.add (u.scale 0) = t := by
  have alike : t.shape = (u.scale 0).shape := same.symm
  have sizes : u.data.size = t.data.size := by rw [t.size_eq, u.size_eq, same]
  rw [add, combineAt, dif_pos alike]
  refine eq_of_data rfl (Array.ext ?_ fun k bound _ => ?_)
  · simp [zipWith, scale, map, sizes]
  · simp [zipWith, scale, map, Scalar.Neutral.zero_mul, Scalar.Neutral.add_zero]

/-- Nothing of a tensor adds nothing to another one. -/
lemma scale_zero_add (same : u.shape = t.shape) : (u.scale 0).add t = t := by
  have alike : (u.scale 0).shape = t.shape := same
  have sizes : u.data.size = t.data.size := by rw [t.size_eq, u.size_eq, same]
  rw [add, combineAt, dif_pos alike]
  refine eq_of_data alike (Array.ext ?_ fun k bound _ => ?_)
  · simp [zipWith, scale, map, sizes]
  · simp [zipWith, scale, map, Scalar.Neutral.zero_mul, Scalar.Neutral.zero_add]

/-- A tensor once is the tensor. -/
lemma scale_one (t : Tensor α) : t.scale 1 = t := by
  refine eq_of_data rfl (Array.ext (by simp [scale, map]) fun k _ _ => ?_)
  simp [scale, map, Scalar.Neutral.one_mul]

/-- Adding nothing of some tensors changes nothing. -/
lemma foldl_add_scale_zero (alike : ∀ u ∈ ts, u.shape = t.shape) :
    (ts.map (scale 0)).foldl add t = t := by
  induction ts with
  | nil => rfl
  | cons u rest ih =>
    rw [List.forall_mem_cons] at alike
    rw [List.map_cons, List.foldl_cons, add_scale_zero alike.1, ih alike.2]

omit [Scalar.Neutral α] in
/-- With one weight for all, tensors are all scaled by it. -/
lemma zipWith_scale_replicate (w : α) (ts : List (Tensor α)) :
    List.zipWith scale (List.replicate ts.length w) ts = ts.map (scale w) := by
  induction ts with
  | nil => rfl
  | cons t rest ih =>
    rw [List.length_cons, List.replicate_succ, List.zipWith_cons_cons, ih, List.map_cons]

/-- Of tensors of one shape the one that has all the weight is the mixture. -/
lemma mix_of_vertex (alike : ∀ u ∈ before ++ after, u.shape = t.shape) :
    mix (List.replicate before.length 0 ++ 1 :: List.replicate after.length 0)
      (before ++ t :: after) = t := by
  rw [List.forall_mem_append] at alike
  have parts : List.zipWith scale
      (List.replicate before.length 0 ++ 1 :: List.replicate after.length 0)
      (before ++ t :: after) = before.map (scale 0) ++ t :: after.map (scale 0) := by
    rw [List.zipWith_append (List.length_replicate ..), List.zipWith_cons_cons,
      zipWith_scale_replicate, zipWith_scale_replicate, scale_one]
  -- the sum begins with the first tensor, which may be one without weight or the one that counts
  have last : (after.map (scale 0)).foldl add t = t := foldl_add_scale_zero alike.2
  rw [mix, parts]
  cases before with
  | nil => exact last
  | cons u rest =>
    rw [List.forall_mem_cons] at alike
    have none : (rest.map (scale 0)).foldl add (u.scale 0) = u.scale 0 :=
      foldl_add_scale_zero fun v hv => (alike.1.2 v hv).trans alike.1.1.symm
    change (rest.map (scale 0) ++ t :: after.map (scale 0)).foldl add (u.scale 0) = t
    rw [List.foldl_append, none, List.foldl_cons, scale_zero_add alike.1.1, last]

end Neutral

end Tensor

/-- Tensors of one shape are padded to one shape. -/
lemma align_of_alike [Scalar α] (alike : ∀ t ∈ ts, t.shape = shape) (some : ts ≠ []) :
    align known ts = .ok (alignedSizes known ts,
      ts.map fun t => t.padTo (shape.take 1 ++ alignedSizes known ts)) := by
  have level : leveled ts = .ok ts := by
    obtain ⟨t, rest, rfl⟩ := List.exists_cons_of_ne_nil some
    rw [List.forall_mem_cons] at alike
    refine if_pos (List.all_eq_true.2 fun u hu => decide_eq_true ?_)
    rw [Tensor.rank, Tensor.rank, alike.1, alike.2 u hu]
  have one : (ts.map fun t => t.padTo (t.shape.take 1 ++ alignedSizes known ts)) =
      ts.map fun t => t.padTo (shape.take 1 ++ alignedSizes known ts) :=
    List.map_congr_left fun t ht => by rw [alike t ht]
  rw [align, level, ← one]
  rfl

/-- Tensors of one shape stay as they are where nothing larger is known from before. -/
lemma map_padTo_of_fits [Scalar α] (alike : ∀ t ∈ ts, t.shape = shape) (some : ts ≠ [])
    (fits : Fits known shape) :
    (ts.map fun t => t.padTo (shape.take 1 ++ alignedSizes known ts)) = ts := by
  have enclosed : enclosing (ts.map fun t => t.shape.drop 1) = shape.drop 1 := by
    refine enclosing_of_alike (List.forall_mem_map.2 fun t ht => by rw [alike t ht]) ?_
    exact fun none => some (List.map_eq_nil_iff.1 none)
  have sizes : alignedSizes known ts = shape.drop 1 := by
    cases known with
    | none => exact enclosed
    | some before =>
      simp only [alignedSizes, enclosed]
      split
      next ranks => exact zipWith_max_of_le (fits before rfl ranks)
      next => rfl
  rw [sizes, List.take_append_drop]
  exact (List.map_congr_left fun t ht => alike t ht ▸ t.padTo_shape).trans (List.map_id ts)

/-! ### Sizes that are remembered -/

/-- Shapes behind the first axis lie inside remembered sizes: axis by axis, or written as rows. -/
def Covers (k : List Nat) (shapes : List (List Nat)) : Prop :=
  (∀ s ∈ shapes, List.Forall₂ (· ≤ ·) s k) ∨ ∃ most, k = [most] ∧ ∀ s ∈ shapes, volume s ≤ most

/-- Shapes have one rank. -/
def OneRank (shapes : List (List Nat)) : Prop :=
  ∀ s ∈ shapes, ∀ t ∈ shapes, s.length = t.length

/-- Shapes have one rank, which is not that of remembered sizes. -/
def Forgets (k : List Nat) (shapes : List (List Nat)) : Prop :=
  OneRank shapes ∧ ∀ s ∈ shapes, s.length ≠ k.length

instance (k : List Nat) (shapes : List (List Nat)) : Decidable (Forgets k shapes) :=
  inferInstanceAs (Decidable ((∀ s ∈ shapes, ∀ t ∈ shapes, s.length = t.length) ∧
    ∀ s ∈ shapes, s.length ≠ k.length))

/-- What sizes are settled on for shapes: they cover them, and are the remembered ones unless these
are forgotten. -/
def Settles (known : Option (List Nat)) (shapes : List (List Nat)) (sizes : List Nat) : Prop :=
  Covers sizes shapes ∧ ∀ k ∈ known, sizes = if Forgets k shapes then enclosing shapes else k

section Sizes

variable {s t k : List Nat} {shapes fewer : List (List Nat)} {rank : Nat}

/-- What covers some shapes covers fewer of them. -/
lemma Covers.mono (covers : Covers k shapes) (subset : fewer ⊆ shapes) : Covers k fewer := by
  rcases covers with inside | ⟨most, rfl, inside⟩
  · exact .inl fun s hs => inside s (subset hs)
  · exact .inr ⟨most, rfl, fun s hs => inside s (subset hs)⟩

/-- Sizes below sizes that are below others are below these. -/
lemma forall₂_le_trans (first : List.Forall₂ (· ≤ ·) s t) (second : List.Forall₂ (· ≤ ·) t k) :
    List.Forall₂ (· ≤ ·) s k := by
  induction first generalizing k with
  | nil => exact second
  | cons le _ ih =>
    cases second with
    | cons le' rest => exact .cons (Nat.le_trans le le') (ih rest)

/-- The first sizes are not above the larger ones of two. -/
lemma le_zipWith_max_left (same : s.length = t.length) :
    List.Forall₂ (· ≤ ·) s (List.zipWith max s t) := by
  induction s generalizing t with
  | nil => exact .nil
  | cons n s ih =>
    cases t with
    | nil => cases same
    | cons m t => exact .cons (Nat.le_max_left n m) (ih (Nat.succ.inj same))

/-- The second sizes are not above the larger ones of two. -/
lemma le_zipWith_max_right (same : s.length = t.length) :
    List.Forall₂ (· ≤ ·) t (List.zipWith max s t) := by
  rw [List.zipWith_comm_of_comm fun n m => Nat.max_comm n m]
  exact le_zipWith_max_left same.symm

/-- The larger ones of two are not above what neither is above. -/
lemma zipWith_max_le (first : List.Forall₂ (· ≤ ·) s k) (second : List.Forall₂ (· ≤ ·) t k) :
    List.Forall₂ (· ≤ ·) (List.zipWith max s t) k := by
  induction first generalizing t with
  | nil =>
    cases second
    exact .nil
  | cons le _ ih =>
    cases second with
    | cons le' rest => exact .cons (Nat.max_le.2 ⟨le, le'⟩) (ih rest)

/-- The smallest sizes that contain shapes of one rank contain each of them. -/
lemma le_enclosing (ranks : ∀ s ∈ shapes, s.length = rank) :
    ∀ s ∈ shapes, List.Forall₂ (· ≤ ·) s (enclosing shapes) := by
  have onward : ∀ (rest : List (List Nat)) (acc : List Nat), acc.length = rank →
      (∀ s ∈ rest, s.length = rank) →
      ∀ s ∈ acc :: rest, List.Forall₂ (· ≤ ·) s (rest.foldl (List.zipWith max) acc) := by
    intro rest
    induction rest with
    | nil =>
      intro acc _ _ s mem
      rw [List.mem_singleton.1 mem]
      exact List.forall₂_same.2 fun n _ => Nat.le_refl n
    | cons t rest ih =>
      intro acc len ranks
      rw [List.forall_mem_cons] at ranks
      have same : acc.length = t.length := len.trans ranks.1.symm
      have length : (List.zipWith max acc t).length = rank := by
        rw [List.length_zipWith, ← same, Nat.min_self, len]
      have next := ih _ length ranks.2
      rw [List.forall_mem_cons] at next ⊢
      rw [List.forall_mem_cons]
      exact ⟨forall₂_le_trans (le_zipWith_max_left same) next.1,
        forall₂_le_trans (le_zipWith_max_right same) next.1, next.2⟩
  cases shapes with
  | nil => exact nofun
  | cons s rest =>
    rw [List.forall_mem_cons] at ranks
    exact onward rest s ranks.1 ranks.2

/-- They lie inside all sizes that contain each of them. -/
lemma enclosing_le (some : shapes ≠ []) (each : ∀ s ∈ shapes, List.Forall₂ (· ≤ ·) s k) :
    List.Forall₂ (· ≤ ·) (enclosing shapes) k := by
  obtain ⟨s, rest, rfl⟩ := List.exists_cons_of_ne_nil some
  clear some
  rw [List.forall_mem_cons] at each
  rw [enclosing]
  induction rest generalizing s with
  | nil => exact each.1
  | cons t rest ih =>
    rw [List.forall_mem_cons] at each
    exact ih _ ⟨zipWith_max_le each.1 each.2.1, each.2.2⟩

/-- Shapes of the rank of the sizes lie inside them axis by axis. -/
lemma Covers.inside (covers : Covers k shapes) (ranks : ∀ s ∈ shapes, s.length = k.length) :
    ∀ s ∈ shapes, List.Forall₂ (· ≤ ·) s k := by
  rcases covers with inside | ⟨most, rfl, most⟩
  · exact inside
  · intro s mem
    obtain ⟨n, rfl⟩ := List.length_eq_one_iff.1 (ranks s mem)
    have le := most _ mem
    rw [volume, volume, Nat.mul_one] at le
    exact .cons le .nil

/-- Shapes of several ranks are covered by one size that none of their volumes exceeds. -/
lemma covers_iff_of_ranks (ranks : ¬ OneRank shapes) :
    Covers k shapes ↔ ∃ most, k = [most] ∧ ∀ s ∈ shapes, volume s ≤ most := by
  refine ⟨fun covers => covers.resolve_left fun inside => ranks fun s hs t ht => ?_, .inr⟩
  exact (inside s hs).length_eq.trans (inside t ht).length_eq.symm

/-- Flattened shapes are covered by one size that none of their volumes exceeds. -/
lemma covers_rows_iff (some : shapes ≠ []) : Covers k (shapes.map fun s => [volume s]) ↔
    ∃ most, k = [most] ∧ ∀ s ∈ shapes, volume s ≤ most := by
  simp only [Covers, List.forall_mem_map, volume, Nat.mul_one, List.forall₂_cons_left_iff,
    List.forall₂_nil_left_iff]
  refine ⟨fun covers => covers.elim (fun inside => ?_) id, .inr⟩
  obtain ⟨s, mem⟩ := List.exists_mem_of_ne_nil _ some
  obtain ⟨most, rest, -, rfl, rfl⟩ := inside s mem
  refine ⟨most, rfl, fun s hs => ?_⟩
  obtain ⟨_, _, le, rfl, same⟩ := inside s hs
  cases same
  exact le

end Sizes

/-! ### Aligned tensors -/

/-- Tensors have given shapes behind the first axis. -/
def Shaped (shapes : List (List Nat)) (ts : List (Tensor α)) : Prop :=
  List.Forall₂ (fun s t => ∃ n, t.shape = n :: s) shapes ts

section Aligned

variable {shapes : List (List Nat)} {us padded : List (Tensor α)} {s sizes : List Nat} {n : Nat}

/-- The numbers of each example are a row. -/
lemma Tensor.exists_rows (shape : t.shape = n :: s) :
    ∃ r, t.rows? = some r ∧ r.shape = [n, volume s] ∧ r.data = t.data := by
  rw [Tensor.rows?]
  split
  next none =>
    rw [shape] at none
    cases none
  next m rest same =>
    rw [shape] at same
    cases same
    exact ⟨_, rfl, rfl, rfl⟩

/-- A flattened tensor has its items in rows. -/
lemma Tensor.shape_flattened (shape : t.shape = n :: s) (flat : t.flattened = .ok u) :
    u.shape = [n, volume s] := by
  obtain ⟨rows, found, shape, -⟩ := exists_rows shape
  rw [flattened, found] at flat
  dsimp only at flat
  split at flat
  · exact absurd flat fail_ne_ok
  · exact Except.ok.inj flat ▸ shape

/-- Tensors of given shapes have these behind the batch. -/
lemma Shaped.drop_shape (shaped : Shaped shapes ts) :
    (ts.map fun t => t.shape.drop 1) = shapes := by
  induction shaped with
  | nil => rfl
  | cons shape _ ih =>
    obtain ⟨n, shape⟩ := shape
    rw [List.map_cons, ih, shape]
    rfl

/-- Tensors of one rank need no leveling. -/
lemma Shaped.leveled_eq (shaped : Shaped shapes ts) (ranks : OneRank shapes) :
    leveled ts = .ok ts := by
  cases shaped with
  | nil => rfl
  | cons head rest =>
    obtain ⟨n, head⟩ := head
    refine if_pos (List.all_eq_true.2 fun u hu => decide_eq_true ?_)
    obtain ⟨s, hs, m, shape⟩ := exists_of_mem_forall₂ rest hu
    rw [Tensor.rank, Tensor.rank, shape, head, List.length_cons, List.length_cons,
      ranks s (List.mem_cons_of_mem _ hs) _ (List.mem_cons_self ..)]

/-- Tensors of several ranks are leveled to rows. -/
lemma Shaped.of_leveled (shaped : Shaped shapes ts) (ranks : ¬ OneRank shapes)
    (level : leveled ts = .ok us) : Shaped (shapes.map fun s => [volume s]) us := by
  have flat : ts.mapM Tensor.flattened = .ok us := by
    cases shaped with
    | nil => exact absurd nofun ranks
    | @cons s t shapes ts head rest =>
      obtain ⟨n, head⟩ := head
      refine (if_neg fun all => ranks ?_).symm.trans level
      -- all would have the rank of the first
      have first : ∀ s' ∈ s :: shapes, s'.length = s.length := by
        refine List.forall_mem_cons.2 ⟨rfl, fun s' hs => ?_⟩
        obtain ⟨t', mem, m, shape⟩ := exists_of_mem_forall₂ rest.flip hs
        have same := of_decide_eq_true (List.all_eq_true.1 all t' mem)
        rw [Tensor.rank, Tensor.rank, shape, head, List.length_cons, List.length_cons] at same
        exact Nat.succ.inj same
      exact fun s' hs t' ht => (first s' hs).trans (first t' ht).symm
  rw [mapM_eq_ok] at flat
  rw [Shaped, List.forall₂_map_left_iff]
  clear level ranks
  induction shaped generalizing us with
  | nil =>
    cases flat
    exact .nil
  | cons head _ ih =>
    obtain ⟨n, head⟩ := head
    cases flat with
    | cons first rest => exact .cons ⟨n, Tensor.shape_flattened head first⟩ (ih rest)

/-- Without anything remembered, tensors are aligned to what encloses them. -/
lemma Shaped.alignedSizes_none (shaped : Shaped shapes ts) :
    alignedSizes none ts = enclosing shapes :=
  congrArg enclosing shaped.drop_shape

/-- Tensors are aligned to what is remembered and to what encloses them, if the ranks are the
same. -/
lemma Shaped.alignedSizes_some (shaped : Shaped shapes ts) {k : List Nat} :
    alignedSizes (some k) ts =
      if k.length = (enclosing shapes).length then List.zipWith max k (enclosing shapes)
      else enclosing shapes := by
  simp only [alignedSizes, shaped.drop_shape]

/-- Tensors of one rank settle to sizes that cover what they have been given. -/
lemma Shaped.settles_of_oneRank (shaped : Shaped shapes ts) (some : shapes ≠ [])
    (ranks : OneRank shapes) (covers : ∀ k ∈ known, Covers k shapes) :
    Settles known shapes (alignedSizes known ts) := by
  obtain ⟨s, mem⟩ := List.exists_mem_of_ne_nil _ some
  have rank : ∀ t ∈ shapes, t.length = s.length := fun t ht => ranks t ht s mem
  have anew : Covers (enclosing shapes) shapes := .inl (le_enclosing rank)
  have length : (enclosing shapes).length = s.length := (le_enclosing rank s mem).length_eq.symm
  cases known with
  | none => exact ⟨shaped.alignedSizes_none ▸ anew, nofun⟩
  | some k =>
    have old : Covers k shapes := covers k rfl
    rw [shaped.alignedSizes_some, length]
    split
    next same =>
      have kept : List.zipWith max k (enclosing shapes) = k := by
        rw [List.zipWith_comm_of_comm fun n m => Nat.max_comm n m]
        exact zipWith_max_of_le
          (enclosing_le some (old.inside fun t ht => (rank t ht).trans same.symm))
      rw [kept]
      refine ⟨old, fun k' eq => ?_⟩
      cases eq
      rw [if_neg fun forgets => forgets.2 s mem same.symm]
    next other =>
      refine ⟨anew, fun k' eq => ?_⟩
      cases eq
      rw [if_pos ⟨ranks, fun t ht eq => other (eq.symm.trans (rank t ht))⟩]

/-- What is padded has the sizes that are settled on. -/
lemma Shaped.settles_align [Scalar α] (shaped : Shaped shapes ts) (some : shapes ≠ [])
    (covers : ∀ k ∈ known, Covers k shapes) (aligned : align known ts = .ok (sizes, padded)) :
    Settles known shapes sizes ∧ ∀ u ∈ padded, ∃ n, u.shape = n :: sizes := by
  simp only [align, bind_eq_ok, pure_eq_ok, Prod.mk.injEq] at aligned
  obtain ⟨us, level, rfl, rfl⟩ := aligned
  have padded : ∀ {shapes : List (List Nat)}, Shaped shapes us →
      ∀ u ∈ us.map fun t => t.padTo (t.shape.take 1 ++ alignedSizes known us), ∃ n,
        u.shape = n :: alignedSizes known us := by
    intro shapes shaped
    refine List.forall_mem_map.2 fun u hu => ?_
    obtain ⟨s, -, n, shape⟩ := exists_of_mem_forall₂ shaped hu
    refine ⟨n, ?_⟩
    rw [Tensor.padTo, Tensor.ofFn, shape]
    rfl
  by_cases ranks : OneRank shapes
  · obtain rfl := Except.ok.inj ((shaped.leveled_eq ranks).symm.trans level)
    exact ⟨shaped.settles_of_oneRank some ranks covers, padded shaped⟩
  · have rows := shaped.of_leveled ranks level
    refine ⟨?_, padded rows⟩
    -- rows are of one rank, which is that of what is remembered for them
    have lengths : ∀ s ∈ shapes.map fun s => [volume s], s.length = 1 :=
      List.forall_mem_map.2 fun _ _ => rfl
    simp only [covers_iff_of_ranks ranks, ← covers_rows_iff some] at covers
    obtain ⟨covered, kept⟩ := rows.settles_of_oneRank (some ∘ List.map_eq_nil_iff.1)
      (fun s hs t ht => (lengths s hs).trans (lengths t ht).symm) covers
    refine ⟨(covers_iff_of_ranks ranks).2 ((covers_rows_iff some).1 covered), fun k hk => ?_⟩
    obtain ⟨most, rfl, -⟩ := (covers_rows_iff some).1 (covers k hk)
    obtain ⟨s, mem⟩ := List.exists_mem_of_ne_nil _ some
    rw [if_neg fun forgets => ranks forgets.1, kept _ hk,
      if_neg fun forgets => forgets.2 _ (List.mem_map_of_mem mem) rfl]

end Aligned

end OperatorNet
