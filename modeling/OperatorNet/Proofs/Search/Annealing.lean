import Mathlib.Tactic.Linarith
import Mathlib.Tactic.Ring
import OperatorNet.Proofs.Results
import OperatorNet.Proofs.Scalar.Arithmetic
import OperatorNet.Settings.Schedule

/-!
# Annealing in exact arithmetic

Where numbers are not rounded, those that are given in different forms compare by what they are
(`Number.below_iff`) and are added, multiplied and divided so. A temperature is found on a curve
that falls from the initial to the final one, at the part of the way that is done
(`Schedule.exists_curve`). So it never rises from one step to a later one, and stays between the two
(`Schedule.temperature_le`, `Schedule.temperature_mem`).
-/

namespace OperatorNet

open Scalar

namespace Number

variable {α : Type} [Scalar α] {a b : Number α} {m n : Int}

/-- Whole numbers are compared as such. -/
lemma below_iff_of_whole? (first : a.whole? = some m) (second : b.whole? = some n) :
    a.below b = true ↔ m < n := by
  simp only [below, first, second, decide_eq_true_eq]

/-- The least natural number that is not below a number. -/
def IsCeiling (a : Number α) (n : Nat) : Prop :=
  (whole n).below a = false ∧ ∀ m : Nat, (whole m).below a = false → n ≤ m

/-- A whole number is its own ceiling. -/
lemma isCeiling_of_whole? {n : Nat} (form : a.whole? = some ↑n) : a.IsCeiling n := by
  have below_iff : ∀ m : Nat, (whole m).below a = false ↔ n ≤ m := by
    intro m
    rw [← Bool.not_eq_true, below_iff_of_whole? rfl form, not_lt, Nat.cast_le]
  exact ⟨(below_iff n).2 le_rfl, fun m => (below_iff m).1⟩

/-- Lesser whole numbers are below a number as well. -/
lemma below_of_le (le : m ≤ n) (below : (whole n).below a = true) : (whole m).below a = true := by
  cases a with
  | truth b =>
    rw [below_iff_of_whole? rfl rfl] at below ⊢
    exact le.trans_lt below
  | whole k =>
    rw [below_iff_of_whole? rfl rfl] at below ⊢
    exact le.trans_lt below
  | real x =>
    change wholeBelow n x = true at below
    change wholeBelow m x = true
    unfold wholeBelow at below ⊢
    split at below
    · rw [if_pos ‹_›]
      simp only [Bool.or_eq_true, Bool.and_eq_true, decide_eq_true_eq] at below ⊢
      rcases below with less | ⟨rfl, less⟩
      · exact .inl (le.trans_lt less)
      · exact le.lt_or_eq.imp_right fun same => ⟨same, less⟩
    · rwa [if_neg ‹_›]

/-- No number is above its ceiling. -/
lemma not_below_ceiling (finite : ∀ x, a = .real x → isFinite x = true) (le : a.ceiling ≤ n) :
    (whole n).below a = false := by
  rw [← Bool.not_eq_true]
  intro below
  cases a with
  | truth b =>
    rw [below_iff_of_whole? rfl rfl] at below
    cases b <;> simp [ceiling] at le below <;> omega
  | whole k =>
    rw [below_iff_of_whole? rfl rfl] at below
    exact below.not_ge le
  | real x =>
    change wholeBelow n x = true at below
    rw [ceiling, if_pos (finite x rfl)] at le
    rw [wholeBelow, if_pos (finite x rfl)] at below
    simp only [Bool.or_eq_true, Bool.and_eq_true, decide_eq_true_eq] at below
    omega

/-- A ceiling that counts steps is not above the computed one. -/
lemma IsCeiling.le_ceiling {n : Nat} (ceils : a.IsCeiling n) : n ≤ a.ceiling.toNat := by
  by_cases finite : ∀ x, a = .real x → isFinite x = true
  · exact ceils.2 _ (not_below_ceiling finite (Int.self_le_toNat _))
  · -- what is below one infinite number is any whole number, or none
    simp only [not_forall, exists_prop, Bool.not_eq_true] at finite
    obtain ⟨x, rfl, infinite⟩ := finite
    have none := ceils.1
    change wholeBelow n x = false at none
    refine (ceils.2 0 ?_).trans (Nat.zero_le _)
    change wholeBelow _ x = false
    rw [wholeBelow, if_neg (by simp [infinite])] at none ⊢
    exact none

end Number

variable {K : Type} [Field K] [LinearOrder K]

/-- Whole parts are taken on the side of zero. -/
structure Scalar.Elementary.Truncates (e : Elementary K) : Prop where
  of_nonneg {x : K} : 0 ≤ x → (e.truncate x : K) ≤ x ∧ x < e.truncate x + 1
  of_nonpos {x : K} : x ≤ 0 → x ≤ e.truncate x ∧ (e.truncate x : K) - 1 < x

/-- Powers of a base that is at most one fall, from one to the base while the exponent grows from
zero to one. -/
structure Scalar.Elementary.Decays (e : Elementary K) : Prop where
  pow_zero {r : K} : 0 < r → r ≤ 1 → e.pow r 0 = 1
  pow_one {r : K} : 0 < r → r ≤ 1 → e.pow r 1 = r
  pow_le_pow {r x y : K} : 0 < r → r ≤ 1 → 0 ≤ x → x ≤ y → y ≤ 1 → e.pow r y ≤ e.pow r x

variable {e : Elementary K}

/-- In a field a whole number is cast. -/
lemma Scalar.ofInt_eq_cast (n : Int) : @ofInt K (ofField e) n = n := by
  cases n with
  | ofNat n => exact (Int.cast_natCast n).symm
  | negSucc n => exact (Int.cast_negSucc n).symm

namespace Number

/-- What a number is, in whatever form it is given. -/
def value : Number K → K
  | truth b => if b then 1 else 0
  | whole n => n
  | real x => x

variable {a b c : Number K} {n : Int} {x : K}

omit [LinearOrder K] in
/-- A whole number has its value. -/
lemma value_of_whole? (form : a.whole? = some n) : a.value = n := by
  cases a with
  | truth b => cases b <;> cases form <;> simp [value]
  | whole m => cases form; rfl
  | real x => cases form

omit [Field K] [LinearOrder K] in
/-- A number that is not whole is real. -/
lemma exists_real (form : a.whole? = none) : ∃ x, a = .real x := by
  cases a with
  | real x => exact ⟨x, rfl⟩
  | _ => cases form

/-- Every number has its value in a field. -/
lemma toReal_eq : @toReal K (ofField e) a = .ok a.value := by
  cases a with
  | truth b => rfl
  | whole n => exact congrArg Except.ok (ofInt_eq_cast n)
  | real x => rfl

/-! ### Operations -/

/-- Numbers are combined as their values are, whatever their forms. -/
lemma value_combine {onWhole : Int → Int → Int} {onReal : K → K → K}
    (agree : ∀ m n : Int, ((onWhole m n : Int) : K) = onReal m n)
    (made : @combine K (ofField e) onWhole onReal a b = .ok c) :
    c.value = onReal a.value b.value := by
  unfold combine at made
  split at made
  next m n first second =>
    cases made
    rw [value_of_whole? first, value_of_whole? second, value, agree]
  next =>
    rw [toReal_eq, toReal_eq] at made
    cases made
    rfl

/-- A sum has the sum of the values. -/
lemma value_plus (made : @plus K (ofField e) a b = .ok c) : c.value = a.value + b.value :=
  value_combine Int.cast_add made

/-- A difference has the difference of the values. -/
lemma value_minus (made : @minus K (ofField e) a b = .ok c) : c.value = a.value - b.value :=
  value_combine Int.cast_sub made

/-- A product has the product of the values. -/
lemma value_times (made : @times K (ofField e) a b = .ok c) : c.value = a.value * b.value :=
  value_combine Int.cast_mul made

variable [IsStrictOrderedRing K]

/-- A quotient is the quotient of the values. -/
lemma dividedBy_eq (pos : 0 < b.value) (made : @dividedBy K (ofField e) a b = .ok x) :
    x = a.value / b.value := by
  unfold dividedBy at made
  split at made
  next m n first second =>
    rw [value_of_whole? second, Int.cast_pos] at pos
    cases made
    rw [value_of_whole? first, value_of_whole? second]
    change (m : K) / (n.natAbs : K) = m / n
    rw [Nat.cast_natAbs, abs_of_pos pos]
  next =>
    rw [toReal_eq, toReal_eq] at made
    cases made
    rfl

/-! ### Comparisons -/

variable (law : e.Truncates)

include law

/-- A whole number is below a real one when its value is. -/
lemma wholeBelow_iff : @wholeBelow K (ofField e) n x = true ↔ (n : K) < x := by
  change (decide (n < e.truncate x) || (decide (n = e.truncate x) &&
    decide (@ofInt K (ofField e) (e.truncate x) < x))) = true ↔ _
  rw [Bool.or_eq_true, Bool.and_eq_true, decide_eq_true_eq, decide_eq_true_eq, decide_eq_true_eq,
    ofInt_eq_cast]
  generalize whole : e.truncate x = t
  constructor
  · rintro (less | ⟨rfl, less⟩)
    · have next : (n : K) ≤ t - 1 := by exact_mod_cast Int.le_sub_one_of_lt less
      rcases le_total 0 x with nonneg | nonpos
      · have le := (law.of_nonneg nonneg).1
        rw [whole] at le
        linarith
      · have less := (law.of_nonpos nonpos).2
        rw [whole] at less
        linarith
    · exact less
  · intro less
    rcases le_total 0 x with nonneg | nonpos
    · have above := (law.of_nonneg nonneg).2
      rw [whole] at above
      have le : n ≤ t := Int.lt_add_one_iff.1 (by exact_mod_cast less.trans above)
      rcases le.lt_or_eq with below | rfl
      · exact .inl below
      · exact .inr ⟨rfl, less⟩
    · have above := (law.of_nonpos nonpos).1
      rw [whole] at above
      exact .inl (by exact_mod_cast less.trans_le above)

/-- A real number is below a whole one when its value is. -/
lemma belowWhole_iff : @belowWhole K (ofField e) x n = true ↔ x < n := by
  change (decide (e.truncate x < n) || (decide (e.truncate x = n) &&
    decide (x < @ofInt K (ofField e) (e.truncate x)))) = true ↔ _
  rw [Bool.or_eq_true, Bool.and_eq_true, decide_eq_true_eq, decide_eq_true_eq, decide_eq_true_eq,
    ofInt_eq_cast]
  generalize whole : e.truncate x = t
  constructor
  · rintro (less | ⟨rfl, less⟩)
    · have next : (t : K) + 1 ≤ n := by exact_mod_cast Int.add_one_le_of_lt less
      -- truncation goes towards zero, so its two laws hold on either side of it
      rcases le_total 0 x with nonneg | nonpos
      · have above := (law.of_nonneg nonneg).2
        rw [whole] at above
        linarith
      · have le := (law.of_nonpos nonpos).1
        rw [whole] at le
        linarith
    · exact less
  · intro less
    rcases le_total 0 x with nonneg | nonpos
    · have below := (law.of_nonneg nonneg).1
      rw [whole] at below
      exact .inl (by exact_mod_cast below.trans_lt less)
    · have below := (law.of_nonpos nonpos).2
      rw [whole] at below
      have le : t ≤ n := by
        have : (t : K) < n + 1 := by linarith
        exact Int.lt_add_one_iff.1 (by exact_mod_cast this)
      rcases le.lt_or_eq with apart | rfl
      · exact .inl apart
      · exact .inr ⟨rfl, less⟩

/-- Numbers compare by what they are, in whatever form they are given. -/
lemma below_iff : @below K (ofField e) a b = true ↔ a.value < b.value := by
  cases first : a.whole? with
  | some m =>
    rw [value_of_whole? first]
    cases second : b.whole? with
    | some n =>
      rw [value_of_whole? second, Int.cast_lt]
      exact @below_iff_of_whole? K (ofField e) _ _ _ _ first second
    | none =>
      obtain ⟨y, rfl⟩ := exists_real second
      simp only [below, first, second]
      exact wholeBelow_iff law
  | none =>
    obtain ⟨x, rfl⟩ := exists_real first
    cases second : b.whole? with
    | some n =>
      rw [value_of_whole? second]
      simp only [below, first, second]
      exact belowWhole_iff law
    | none =>
      obtain ⟨y, rfl⟩ := exists_real second
      exact decide_eq_true_iff

/-- A number is at most another when its value is. -/
lemma atMost_iff : @atMost K (ofField e) a b = true ↔ a.value ≤ b.value := by
  cases first : a.whole? with
  | some m =>
    rw [value_of_whole? first]
    cases second : b.whole? with
    | some n =>
      rw [value_of_whole? second, Int.cast_le]
      simp only [atMost, first, second, decide_eq_true_eq]
    | none =>
      obtain ⟨y, rfl⟩ := exists_real second
      simp only [atMost, first, second]
      rw [Bool.and_eq_true, decide_eq_true_eq, and_iff_right (le_refl y),
        Bool.not_eq_true', ← not_lt, ← Bool.not_eq_true, not_iff_not]
      exact belowWhole_iff law
  | none =>
    obtain ⟨x, rfl⟩ := exists_real first
    cases second : b.whole? with
    | some n =>
      rw [value_of_whole? second]
      simp only [atMost, first, second]
      rw [Bool.and_eq_true, decide_eq_true_eq, and_iff_right (le_refl x),
        Bool.not_eq_true', ← not_lt, ← Bool.not_eq_true, not_iff_not]
      exact wholeBelow_iff law
    | none =>
      obtain ⟨y, rfl⟩ := exists_real second
      exact decide_eq_true_iff

/-- The larger number has the larger value. -/
lemma value_larger : (@larger K (ofField e) a b).value = max a.value b.value := by
  unfold larger
  split
  next less => exact (max_eq_right ((below_iff law).1 less).le).symm
  next notLess => exact (max_eq_left (not_lt.1 fun less => notLess ((below_iff law).2 less))).symm

/-- The smaller number has the smaller value. -/
lemma value_smaller : (@smaller K (ofField e) a b).value = min a.value b.value := by
  unfold smaller
  split
  next less => exact (min_eq_right ((below_iff law).1 less).le).symm
  next notLess => exact (min_eq_left (not_lt.1 fun less => notLess ((below_iff law).2 less))).symm

end Number

namespace Schedule

/-- What the initial temperature is. -/
def high (s : @Schedule K (ofField e)) : K :=
  (@start K (ofField e) s).value

/-- What the final temperature is. -/
def low (s : @Schedule K (ofField e)) : K :=
  (@final K (ofField e) s).value

/-- What the number of steps is. -/
def count (s : @Schedule K (ofField e)) : K :=
  (@steps K (ofField e) s).value

/-- A curve that falls from the initial to the final temperature. -/
structure Falls (s : @Schedule K (ofField e)) (curve : K → K) : Prop where
  high : curve 0 = s.high
  low : curve 1 = s.low
  antitone {x y : K} : 0 ≤ x → x ≤ y → y ≤ 1 → curve y ≤ curve x

variable [IsStrictOrderedRing K] {s : @Schedule K (ofField e)} {step : Number K} {part : K}
  (law : e.Truncates)

include law

/-- The lowest temperature is positive. -/
lemma low_pos : 0 < s.low := by
  have pos := (Number.below_iff law).1 (@final_pos K (ofField e) s)
  rwa [Number.value, Int.cast_zero] at pos

/-- The lowest temperature is not above the highest. -/
lemma low_le_high : s.low ≤ s.high :=
  (Number.atMost_iff law).1 (@final_le K (ofField e) s)

/-- What falls by equal amounts falls. -/
lemma falls_linear : s.Falls fun x => s.high + (s.low - s.high) * x := by
  refine ⟨by ring, by ring, fun {x y} _ le _ => ?_⟩
  have slope : s.low - s.high ≤ 0 := sub_nonpos.2 (low_le_high law)
  exact add_le_add_right (mul_le_mul_of_nonpos_left le slope) s.high

/-- What falls by equal factors falls. -/
lemma falls_exponential (decays : e.Decays) :
    s.Falls fun x => s.high * e.pow (s.low / s.high) x := by
  have high : 0 < s.high := (low_pos law).trans_le (low_le_high law)
  have pos : 0 < s.low / s.high := div_pos (low_pos law) high
  have le : s.low / s.high ≤ 1 := (div_le_one high).2 (low_le_high law)
  refine ⟨?_, ?_, fun {x y} nonneg below one => ?_⟩
  · rw [decays.pow_zero pos le, mul_one]
  · rw [decays.pow_one pos le, mul_div_cancel₀ _ high.ne']
  · exact mul_le_mul_of_nonneg_left (decays.pow_le_pow pos le nonneg below one) high.le

/-- The part of the way that is done, when there are several steps. -/
lemma progress_eq (several : 1 < s.count) (done : @progress K (ofField e) s step = .ok part) :
    part = min (max step.value 0) (s.count - 1) / (s.count - 1) := by
  simp only [progress, bind_eq_ok] at done
  obtain ⟨last, less, done⟩ := done
  have end_ : last.value = s.count - 1 := by
    rw [Number.value_minus less, Number.value, Int.cast_one]
    rfl
  have pos : 0 < last.value := by
    rw [end_]
    exact sub_pos.2 several
  rw [Number.dividedBy_eq pos done, Number.value_smaller law, Number.value_larger law, end_,
    Number.value, Int.cast_zero]

/-- With several steps, the temperatures are found on the curve of their kind, at the part of the
way that is done. -/
lemma exists_curve_of_several (several : 1 < s.count)
    (decays : @cooling K (ofField e) s = .exponential → e.Decays) :
    ∃ curve way : K → K, s.Falls curve ∧ Monotone way ∧ (∀ x, 0 ≤ way x ∧ way x ≤ 1) ∧
      ∀ step y, @temperature K (ofField e) s step = .ok y → y.value = curve (way step.value) := by
  have last : 0 < s.count - 1 := sub_pos.2 several
  have more : ¬ @Number.atMost K (ofField e) (@steps K (ofField e) s) (.whole 1) = true := by
    rw [Number.atMost_iff law, Number.value, Int.cast_one]
    exact not_le.2 several
  let way : K → K := fun x => min (max x 0) (s.count - 1) / (s.count - 1)
  have grows : Monotone way := fun x y le =>
    div_le_div_of_nonneg_right (min_le_min_right _ (max_le_max_right _ le)) last.le
  have within : ∀ x, 0 ≤ way x ∧ way x ≤ 1 := fun x =>
    ⟨div_nonneg (le_min (le_max_right x 0) last.le) last.le, (div_le_one last).2 (min_le_right _ _)⟩
  cases kind : @cooling K (ofField e) s with
  | linear =>
    refine ⟨_, way, falls_linear law, grows, within, fun step y made => ?_⟩
    simp only [temperature, if_neg more, kind, bind_eq_ok] at made
    obtain ⟨part, done, slope, less, fall, product, made⟩ := made
    rw [Number.value_plus made, Number.value_times product, Number.value_minus less, Number.value,
      progress_eq law several done]
    rfl
  | exponential =>
    refine ⟨_, way, falls_exponential law (decays kind), grows, within, fun step y made => ?_⟩
    have high : 0 < s.high := (low_pos law).trans_le (low_le_high law)
    simp only [temperature, if_neg more, kind, bind_eq_ok] at made
    obtain ⟨part, done, ratio, divided, made⟩ := made
    rw [Number.value_times made, Number.value, Number.dividedBy_eq high divided,
      progress_eq law several done]
    rfl

/-- With one step or none, all of the way is done in the first step. -/
lemma exists_curve_of_few (few : s.count ≤ 1) :
    ∃ curve way : K → K, s.Falls curve ∧ Monotone way ∧ (∀ x, 0 ≤ way x ∧ way x ≤ 1) ∧
      ∀ step y, @temperature K (ofField e) s step = .ok y → y.value = curve (way step.value) := by
  have less : @Number.atMost K (ofField e) (@steps K (ofField e) s) (.whole 1) = true := by
    rwa [Number.atMost_iff law, Number.value, Int.cast_one]
  refine ⟨_, fun x => if 0 < x then 1 else 0, falls_linear law, fun x y le => ?_, fun x => ?_,
    fun step y made => ?_⟩
  · dsimp only
    split_ifs with first second
    · exact le_rfl
    · exact absurd (first.trans_le le) second
    · exact zero_le_one
    · exact le_rfl
  · dsimp only
    split_ifs <;> simp
  · have begun : @Number.below K (ofField e) (.whole 0) step = true ↔ 0 < step.value := by
      rw [Number.below_iff law, Number.value, Int.cast_zero]
    simp only [temperature, if_pos less, pure_eq_ok] at made
    rw [← made]
    simp only [begun]
    split_ifs
    · change s.low = _
      ring
    · change s.high = _
      ring

/-- Every temperature is found on a curve that falls, at a part of the way that grows with the
step. -/
lemma exists_curve (decays : @cooling K (ofField e) s = .exponential → e.Decays) :
    ∃ curve way : K → K, s.Falls curve ∧ Monotone way ∧ (∀ x, 0 ≤ way x ∧ way x ≤ 1) ∧
      ∀ step y, @temperature K (ofField e) s step = .ok y → y.value = curve (way step.value) := by
  by_cases several : 1 < s.count
  case pos => exact exists_curve_of_several law several decays
  case neg => exact exists_curve_of_few law (not_lt.1 several)

variable {earlier later : Number K} {first second : Number K}
  (decays : @cooling K (ofField e) s = .exponential → e.Decays)

include decays

/-- The temperature never rises from a step to a later one. -/
lemma temperature_le (before : @temperature K (ofField e) s earlier = .ok first)
    (after : @temperature K (ofField e) s later = .ok second) (le : earlier.value ≤ later.value) :
    second.value ≤ first.value := by
  obtain ⟨curve, way, falls, grows, within, eq⟩ := exists_curve law decays
  rw [eq _ _ before, eq _ _ after]
  exact falls.antitone (within _).1 (grows le) (within _).2

/-- The temperature is never below the final one, and never above the initial one. -/
lemma temperature_mem (made : @temperature K (ofField e) s step = .ok first) :
    s.low ≤ first.value ∧ first.value ≤ s.high := by
  obtain ⟨curve, way, falls, -, within, eq⟩ := exists_curve law decays
  obtain ⟨nonneg, one⟩ := within step.value
  rw [eq _ _ made, ← falls.low, ← falls.high]
  exact ⟨falls.antitone nonneg one le_rfl, falls.antitone le_rfl nonneg one⟩

end Schedule

end OperatorNet
