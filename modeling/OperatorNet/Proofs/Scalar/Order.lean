import Mathlib.Data.Prod.Lex
import OperatorNet.Proofs.Scalar.Arithmetic

/-!
# The order of numbers

In an order with undefined numbers these are not at most themselves, and compare with nothing. Apart
from them the order is linear but for numbers that are equally large (`Scalar.Sortable`). Ordered
fields are ordered like this, and so are doubles: each of them but the undefined one has a place
(`place?`), and they compare as their places do (`compare_eq`). Doubles also have a number beyond
all finite ones (`Scalar.Unbounded`), and an infinity less itself is the undefined number. Numbers
that are not negative stay so when they are added and stored (`NotNegative.add`,
`NotNegative.unpack_pack`).
-/

namespace OperatorNet.Scalar

/-- The laws of an order in which a number that compares with itself compares with all that do. -/
class Sortable (α : Type) [Scalar α] : Prop where
  le_total {x y : α} : x ≤ x → y ≤ y → x ≤ y ∨ y ≤ x
  le_trans {x y z : α} : x ≤ y → y ≤ z → x ≤ z
  lt_iff_le_not_ge {x y : α} : x < y ↔ x ≤ y ∧ ¬ y ≤ x

/-- Ordered fields can be sorted. -/
lemma sortable_ofField {K : Type} [Field K] [LinearOrder K] (e : Elementary K) :
    @Sortable K (ofField e) :=
  let _ := ofField e
  { le_total := fun _ _ => le_total _ _
    le_trans := le_trans
    lt_iff_le_not_ge := lt_iff_le_not_ge }

section

variable {α : Type} [Scalar α] [Sortable α] {x y z : α}

/-- Nothing is below what is below it. -/
lemma not_lt_of_lt (less : x < y) : ¬ y < x := fun more =>
  (Sortable.lt_iff_le_not_ge.1 less).2 (Sortable.lt_iff_le_not_ge.1 more).1

/-- What lies between two others parts them, if it is defined. -/
lemma lt_or_lt (hx : x ≤ x) (hy : y ≤ y) (less : x < z) : x < y ∨ y < z := by
  obtain ⟨below, notAbove⟩ := Sortable.lt_iff_le_not_ge.1 less
  by_cases first : y ≤ x
  · exact .inr (Sortable.lt_iff_le_not_ge.2 ⟨Sortable.le_trans first below, fun above =>
      notAbove (Sortable.le_trans above first)⟩)
  · rcases Sortable.le_total hx hy with le | le
    · exact .inl (Sortable.lt_iff_le_not_ge.2 ⟨le, first⟩)
    · exact absurd le first

/-- Of two defined scalars one is not above the other. -/
lemma le_of_not_lt (hx : x ≤ x) (hy : y ≤ y) (notLess : ¬ x < y) : y ≤ x := by
  rcases Sortable.le_total hx hy with le | le
  · by_contra other
    exact notLess (Sortable.lt_iff_le_not_ge.2 ⟨le, other⟩)
  · exact le

/-- Neither of two scalars that are the same is below the other. -/
lemma not_lt_of_same (equal : same x y = true) : ¬ x < y ∧ ¬ y < x := by
  obtain ⟨below, above⟩ := of_decide_eq_true equal
  exact ⟨fun less => (Sortable.lt_iff_le_not_ge.1 less).2 above,
    fun more => (Sortable.lt_iff_le_not_ge.1 more).2 below⟩

/-- Numbers that compare with themselves are the same when neither is less. -/
lemma same_iff (hx : x ≤ x) (hy : y ≤ y) : same x y = true ↔ ¬ x < y ∧ ¬ y < x := by
  refine ⟨not_lt_of_same, ?_⟩
  rintro ⟨notLess, notMore⟩
  exact decide_eq_true ⟨le_of_not_lt hy hx notMore, le_of_not_lt hx hy notLess⟩

end

/-! ### Doubles -/

open Float.Model (UnpackedFloat)

/-- Where a double stands among the others: by its sign and kind, then by exponent and mantissa. -/
def place? : UnpackedFloat → Option (Int ×ₗ Int ×ₗ Int)
  | .notANumber => none
  | .infinity .negative => some (toLex (-2, toLex (0, 0)))
  | .finite .negative m e _ => some (toLex (-1, toLex (-e, -m)))
  | .zero _ => some (toLex (0, toLex (0, 0)))
  | .finite .positive m e _ => some (toLex (1, toLex (e, m)))
  | .infinity .positive => some (toLex (2, toLex (0, 0)))

/-- Natural numbers compare as whole ones. -/
lemma compare_natCast (m n : Nat) : compare (m : Int) (n : Int) = compare m n := by
  simp only [Int.compare_eq_ite_lt, Nat.compare_eq_ite_lt, Int.ofNat_lt]

/-- Negation turns comparisons round. -/
lemma compare_neg_neg (m n : Int) : compare (-m) (-n) = compare n m := by
  simp only [Int.compare_eq_ite_lt, Int.neg_lt_neg_iff]

/-- Doubles compare as their places do. -/
lemma compare_eq (x y : UnpackedFloat) :
    x.compare y = Option.map₂ compare (place? x) (place? y) := by
  rcases x with (_ | _) | _ | _ | ⟨_ | _, m, e, _⟩ <;> rcases y with (_ | _)
    | _ | _ | ⟨_ | _, m', e', _⟩
  case finite.negative.finite.negative =>
    change some ((compare e e').then (compare m m')).swap =
      some ((compare (-e) (-e')).then (compare (-m : Int) (-m')))
    rw [Ordering.swap_then, Int.compare_swap, Nat.compare_swap, compare_neg_neg, compare_neg_neg,
      compare_natCast]
  case finite.positive.finite.positive =>
    change some ((compare e e').then (compare m m')) =
      some ((compare e e').then (compare (m : Int) m'))
    rw [compare_natCast]
  -- of other kinds and signs, only these count
  all_goals rfl

variable {x y z : Float}

/-- The place of a double. -/
def spot? (x : Float) : Option (Int ×ₗ Int ×ₗ Int) :=
  place? x.toModel.unpack

/-- A double is below another when its spot on the line is. -/
lemma lt_iff_spot : x < y ↔ ∃ a b, spot? x = some a ∧ spot? y = some b ∧ a < b := by
  change decide (x.toModel < y.toModel) = true ↔ _
  rw [decide_eq_true_eq]
  change (x.toModel.unpack.compare _ == some .lt) = true ↔ _
  rw [beq_iff_eq, compare_eq, Option.map₂_eq_some_iff]
  simp only [compare_lt_iff_lt, Option.mem_def, spot?]

/-- A double is not above another when its spot on the line is not. -/
lemma le_iff_spot : x ≤ y ↔ ∃ a b, spot? x = some a ∧ spot? y = some b ∧ a ≤ b := by
  change decide (x.toModel ≤ y.toModel) = true ↔ _
  rw [decide_eq_true_eq]
  change (x.toModel.unpack.compare _).any (·.isLE) = true ↔ _
  rw [compare_eq, Option.any_eq_true]
  simp only [Option.map₂_eq_some_iff, Option.mem_def, spot?]
  constructor
  · rintro ⟨_, ⟨a, b, ha, hb, rfl⟩, le⟩
    exact ⟨a, b, ha, hb, compare_le_iff_le.1 (Ordering.isLE_iff_ne_gt.1 le)⟩
  · rintro ⟨a, b, ha, hb, le⟩
    exact ⟨_, ⟨a, b, ha, hb, rfl⟩, Ordering.isLE_iff_ne_gt.2 (compare_le_iff_le.2 le)⟩

/-- A double compares with itself unless it is undefined. -/
lemma le_self_iff : x ≤ x ↔ x.isNaN = false := by
  have placed : ∀ u : UnpackedFloat, (∃ a, place? u = some a) ↔ u.isNaN = false := by
    rintro ((_ | _) | _ | _ | ⟨_ | _, m, e, _⟩)
    case notANumber =>
      constructor
      · rintro ⟨a, none⟩
        cases none
      · intro defined
        cases defined
    -- all others have a place
    all_goals exact ⟨fun _ => rfl, fun _ => ⟨_, rfl⟩⟩
  rw [le_iff_spot]
  refine Iff.trans ?_ (placed x.toModel.unpack)
  constructor
  · rintro ⟨a, -, here, -, -⟩
    exact ⟨a, here⟩
  · rintro ⟨a, here⟩
    exact ⟨a, a, here, here, le_rfl⟩

/-- Doubles that compare are not undefined. -/
lemma isNaN_of_le (le : x ≤ y) : x.isNaN = false ∧ y.isNaN = false := by
  obtain ⟨a, b, first, second, -⟩ := le_iff_spot.1 le
  exact ⟨le_self_iff.1 (le_iff_spot.2 ⟨a, a, first, first, le_rfl⟩),
    le_self_iff.1 (le_iff_spot.2 ⟨b, b, second, second, le_rfl⟩)⟩

/-- Doubles have such an order. -/
instance : Sortable Float where
  le_total hx hy := by
    obtain ⟨a, -, ha, -, -⟩ := le_iff_spot.1 hx
    obtain ⟨b, -, hb, -, -⟩ := le_iff_spot.1 hy
    apply (le_total a b).imp <;> intro le <;> apply le_iff_spot.2
    · exact ⟨a, b, ha, hb, le⟩
    · exact ⟨b, a, hb, ha, le⟩
  le_trans first second := by
    obtain ⟨a, b, ha, hb, below⟩ := le_iff_spot.1 first
    obtain ⟨b', c, hb', hc, above⟩ := le_iff_spot.1 second
    obtain rfl : b = b' := Option.some.inj (hb.symm.trans hb')
    exact le_iff_spot.2 ⟨a, c, ha, hc, below.trans above⟩
  lt_iff_le_not_ge {x y} := by
    constructor
    · intro less
      obtain ⟨a, b, ha, hb, less⟩ := lt_iff_spot.1 less
      refine ⟨le_iff_spot.2 ⟨a, b, ha, hb, less.le⟩, fun above => ?_⟩
      obtain ⟨b', a', hb', ha', above⟩ := le_iff_spot.1 above
      obtain rfl : b = b' := Option.some.inj (hb.symm.trans hb')
      obtain rfl : a = a' := Option.some.inj (ha.symm.trans ha')
      exact absurd above less.not_ge
    · rintro ⟨below, other⟩
      obtain ⟨a, b, ha, hb, -⟩ := le_iff_spot.1 below
      apply lt_iff_spot.2
      exact ⟨a, b, ha, hb, lt_of_not_ge fun above => other (le_iff_spot.2 ⟨b, a, hb, ha, above⟩)⟩

/-! ### Infinity -/

/-- The laws of a number beyond all finite ones, also where numbers are rounded. -/
class Unbounded (α : Type) [Scalar α] : Prop where
  le_self {x : α} : isFinite x = true → x ≤ x
  lt_infinity {x : α} : isFinite x = true → x < infinity
  infinity_le : (infinity : α) ≤ infinity
  neg_infinity_le : (-infinity : α) ≤ -infinity
  infinity_sub {x : α} : isFinite x = true → infinity - x = infinity
  sub_infinity {x : α} : isFinite x = true → x - infinity = -infinity
  infinity_div {x : α} : isFinite x = true → 0 < x → infinity / x = infinity
  neg_infinity_div {x : α} : isFinite x = true → 0 < x → -infinity / x = -infinity
  /-- What is made of an infinity less itself compares with nothing. -/
  undefined {x y : α} : ¬ (infinity - infinity) / x ≤ y ∧ ¬ y ≤ (infinity - infinity) / x

/-- Doubles are subtracted by their parts. -/
lemma sub_eq_pack (x y : Float) :
    x - y = .ofModel (.pack (.sub .binary64 x.toModel.unpack y.toModel.unpack)) :=
  rfl

/-- Doubles are divided by their parts. -/
lemma div_eq_pack (x y : Float) :
    x / y = .ofModel (.pack (.div .binary64 x.toModel.unpack y.toModel.unpack)) :=
  rfl

/-- Infinity has the parts of a positive infinity. -/
lemma unpack_infinity : (infinity : Float).toModel.unpack = .infinity .positive :=
  rfl

/-- Minus infinity has the parts of a negative infinity. -/
lemma unpack_neg_infinity : (-infinity : Float).toModel.unpack = .infinity .negative :=
  rfl

/-- A double is finite when it is a zero or has finite parts. -/
lemma isFinite_iff : isFinite x = true ↔ (∃ s, x.toModel.unpack = .zero s) ∨
    ∃ s m e h, x.toModel.unpack = .finite s m e h := by
  change x.toModel.unpack.isFinite = true ↔ _
  rcases x.toModel.unpack with s | _ | s | ⟨s, m, e, h⟩
  case zero => exact ⟨fun _ => .inl ⟨s, rfl⟩, fun _ => rfl⟩
  case finite => exact ⟨fun _ => .inr ⟨s, m, e, h, rfl⟩, fun _ => rfl⟩
  all_goals
    constructor
    · intro finite
      cases finite
    · rintro (⟨_, form⟩ | ⟨_, _, _, _, form⟩) <;> cases form

/-- A finite positive double has finite positive parts. -/
lemma exists_of_pos (finite : isFinite x = true) (pos : 0 < x) :
    ∃ m e h, x.toModel.unpack = .finite .positive m e h := by
  obtain ⟨a, b, zero, there, less⟩ := lt_iff_spot.1 pos
  obtain rfl : toLex (0, toLex (0, 0)) = a := Option.some.inj zero
  rcases isFinite_iff.1 finite with ⟨s, form⟩ | ⟨_ | _, m, e, h, form⟩
  · rw [spot?, form] at there
    obtain rfl := Option.some.inj there
    exact absurd less (lt_irrefl _)
  · rw [spot?, form] at there
    obtain rfl := Option.some.inj there
    exact absurd less (by simp [Prod.Lex.toLex_lt_toLex])
  · exact ⟨m, e, h, form⟩

/-- Doubles have such an infinity. -/
instance : Unbounded Float where
  le_self {x} finite := by
    rw [le_self_iff]
    change x.toModel.unpack.isNaN = false
    rcases isFinite_iff.1 finite with ⟨s, form⟩ | ⟨s, m, e, h, form⟩ <;> rw [form] <;> rfl
  lt_infinity {x} finite := by
    rw [lt_iff_spot]
    rcases isFinite_iff.1 finite with ⟨s, form⟩ | ⟨_ | _, m, e, h, form⟩
    all_goals exact ⟨_, _, by rw [spot?, form]; rfl, rfl, by simp [Prod.Lex.toLex_lt_toLex]⟩
  infinity_le := by decide +kernel
  neg_infinity_le := by decide +kernel
  infinity_sub {x} finite := by
    rw [sub_eq_pack, unpack_infinity]
    rcases isFinite_iff.1 finite with ⟨s, form⟩ | ⟨s, m, e, h, form⟩ <;> rw [form] <;> rfl
  sub_infinity {x} finite := by
    rw [sub_eq_pack, unpack_infinity]
    rcases isFinite_iff.1 finite with ⟨s, form⟩ | ⟨s, m, e, h, form⟩ <;> rw [form] <;> rfl
  infinity_div {x} finite pos := by
    obtain ⟨m, e, h, form⟩ := exists_of_pos finite pos
    rw [div_eq_pack, unpack_infinity, form]
    rfl
  neg_infinity_div {x} finite pos := by
    obtain ⟨m, e, h, form⟩ := exists_of_pos finite pos
    rw [div_eq_pack, unpack_neg_infinity, form]
    rfl
  undefined {x y} := by
    have nowhere : spot? ((infinity - infinity) / x) = none := by
      have kept : ∀ u, UnpackedFloat.div .binary64 .notANumber u = .notANumber := by
        intro u
        cases u <;> rfl
      rw [div_eq_pack, show (infinity - infinity : Float).toModel.unpack =
        .notANumber from rfl, kept]
      rfl
    constructor
    · intro le
      obtain ⟨a, b, there, -⟩ := le_iff_spot.1 le
      rw [nowhere] at there
      cases there
    · intro le
      obtain ⟨a, b, -, there, -⟩ := le_iff_spot.1 le
      rw [nowhere] at there
      cases there

/-! ### Numbers that are not negative -/

open Float.Model.UnpackedFloat

variable {u v : UnpackedFloat}

/-- A double that is not less than zero. -/
inductive NotNegative : UnpackedFloat → Prop where
  | zero (s) : NotNegative (.zero s)
  | finite (m e h) : NotNegative (.finite .positive m e h)
  | infinity : NotNegative (.infinity .positive)

/-- A double is at least zero when its parts are not negative. -/
lemma nonneg_iff : 0 ≤ x ↔ NotNegative x.toModel.unpack := by
  have first : spot? (0 : Float) = some (toLex (0, toLex (0, 0))) := rfl
  rw [le_iff_spot, first, spot?]
  constructor
  · rintro ⟨a, b, own, there, le⟩
    obtain rfl := Option.some.inj own
    rcases form : x.toModel.unpack with (_ | _) | _ | s | ⟨_ | _, m, e, h⟩ <;> rw [form] at there
    case zero => exact .zero s
    case finite.positive => exact .finite m e h
    case infinity.positive => exact .infinity
    case notANumber => cases there
    -- the others are below zero
    all_goals
      obtain rfl := Option.some.inj there
      exact absurd le (by simp [Prod.Lex.toLex_le_toLex])
  · generalize x.toModel.unpack = u
    intro known
    refine ⟨toLex (0, toLex (0, 0)), ?_⟩
    cases known with
    | zero s => exact ⟨_, rfl, rfl, le_rfl⟩
    | finite m e h => exact ⟨_, rfl, rfl, by simp [Prod.Lex.toLex_le_toLex]⟩
    | infinity => exact ⟨_, rfl, rfl, by simp [Prod.Lex.toLex_le_toLex]⟩

/-- What is not negative in either case is not negative. -/
lemma NotNegative.dite {c : Prop} [Decidable c] {a : c → UnpackedFloat} {b : ¬ c → UnpackedFloat}
    (yes : ∀ h, NotNegative (a h)) (no : ∀ h, NotNegative (b h)) :
    NotNegative (if h : c then a h else b h) := by
  by_cases h : c
  · rw [dif_pos h]
    exact yes h
  · rw [dif_neg h]
    exact no h

/-- Packing keeps the sign. -/
lemma unpackSign_packComponents {spec : Float.Model.Format} {sign exponent mantissa} :
    unpackSign (packComponents spec sign exponent mantissa) = sign.toBitVec := by
  ext i hi
  obtain rfl : i = 0 := Nat.lt_one_iff.1 hi
  delta unpackSign packComponents
  simp [BitVec.getLsbD_append, BitVec.getElem_append]

/-- What is packed with a positive sign is not negative when it is unpacked. -/
lemma notNegative_unpack {e : BitVec Float.Model.Format.binary64.exponentBits}
    {m : BitVec Float.Model.Format.binary64.mantissaBitsWithoutImplicit}
    (defined : e = -1#_ → m = 0#_) :
    NotNegative (unpack .binary64 (packComponents .binary64 .positive e m)) := by
  have sign : Sign.ofBitVec (unpackSign (packComponents .binary64 .positive e m)) = .positive := by
    rw [unpackSign_packComponents]
    rfl
  unfold unpack
  dsimp only
  rw [sign]
  refine iteInduction (fun top => ?_) fun _ => iteInduction (fun _ => ?_) fun _ => .finite ..
  · rw [unpackExponent_packComponents] at top
    rw [unpackMantissa_packComponents, if_pos (defined top)]
    exact .infinity
  · exact .dite (fun _ => .zero _) fun _ => .finite ..

/-- What is not negative stays so when it is stored. -/
lemma NotNegative.unpack_pack (known : NotNegative u) :
    NotNegative (unpack .binary64 (pack .binary64 u)) := by
  cases known with
  | zero s => cases s <;> exact .zero _
  | infinity => exact notNegative_unpack fun _ => rfl
  | finite m e h =>
    unfold pack
    dsimp only
    split
    next => exact notNegative_unpack fun _ => rfl
    next fits =>
      split
      next =>
        refine notNegative_unpack fun top => absurd (congrArg BitVec.toNat top) ?_
        rw [BitVec.toNat_ofNat]
        change _ % 2048 ≠ 2047
        change ¬ 2048 ≤ _ + 1 at fits
        omega
      next => exact notNegative_unpack fun top => absurd top (by decide)

/-- Rounding with a positive sign gives nothing negative. -/
lemma notNegative_round (m : Nat) (e : Int) :
    NotNegative (UnpackedFloat.round .binary64 .positive m e) := by
  unfold UnpackedFloat.round UnpackedFloat.roundWithAccuracy
  exact .dite (fun _ => .zero _) fun _ => .finite ..

/-- A sum of parts that are not negative is not negative. -/
lemma NotNegative.add (first : NotNegative u) (second : NotNegative v) :
    NotNegative (UnpackedFloat.add .binary64 u v) := by
  cases first with
  | zero s =>
    cases second with
    | zero t =>
      unfold UnpackedFloat.add
      dsimp only
      split <;> exact .zero _
    | finite m e h => exact .finite m e h
    | infinity => exact .infinity
  | infinity => cases second <;> exact .infinity
  | finite m e h =>
    cases second with
    | zero t => exact .finite m e h
    | infinity => exact .infinity
    | finite m' e' h' =>
      unfold UnpackedFloat.add UnpackedFloat.normalize
      dsimp only
      split
      next less =>
        exact absurd (compare_lt_iff_lt.1 less)
          (Int.not_lt.2 (Int.add_nonneg (Int.natCast_nonneg _) (Int.natCast_nonneg _)))
      next => exact .zero _
      next => exact notNegative_round ..

/-- Rounding does not make sums of doubles negative. -/
instance : Cumulative Float where
  zero_le_zero := le_self_iff.2 rfl
  add_nonneg hx hy := nonneg_iff.2 ((nonneg_iff.1 hx).add (nonneg_iff.1 hy)).unpack_pack

end OperatorNet.Scalar
