import OperatorNet.Proofs.Scalar.Order
import OperatorNet.Proofs.Search.Contract

/-!
# The swap that is applied

When a draft exceeds the budget, the swaps that compose and recover some of the budget are tried in
turn (`Decoder.Exchanges`). A swap with a finite score comes before one without; of two with finite
scores the one that worsens the score less per unit of budget comes first, and then what ties are
broken by decides (`Exchange.Outranks`). The swap that is applied is the first one that no other
swap outranks, if the draft at hand has a finite score or so has the first swap that is tried
(`Decoder.repair_least`). Else the rate of the first swap is undefined, no rate is ever less than
it, and that swap is applied whatever the others are.
-/

namespace OperatorNet

open Scalar

variable {α : Type} [Scalar α]

/-! ### The order of rows of amounts -/

namespace Amount

/-- An amount is a finite number, or beyond all of them. -/
def Definite : Amount α → Prop
  | finite x => isFinite x = true ∨ x = infinity
  | infinite => True

variable [Sortable α] [Unbounded α] {a b c : Amount α} {as bs cs : List (Amount α)}

omit [Sortable α] in
/-- A definite value compares with itself. -/
lemma Definite.le_self (definite : a.Definite) : a.value ≤ a.value := by
  cases a with
  | infinite => exact Unbounded.infinity_le
  | finite x =>
    rcases definite with finite | rfl
    · exact Unbounded.le_self finite
    · exact Unbounded.infinity_le

/-- No definite value is above infinity. -/
lemma Definite.not_infinity_lt (definite : a.Definite) : ¬ infinity < a.value := by
  cases a with
  | infinite => exact fun less => not_lt_of_lt less less
  | finite x =>
    rcases definite with finite | rfl
    · exact not_lt_of_lt (Unbounded.lt_infinity finite)
    · exact fun less => not_lt_of_lt less less

/-- Definite values are compared as doubles. -/
lemma less_iff (ha : a.Definite) (hb : b.Definite) : less a b = true ↔ a.value < b.value := by
  cases a with
  | infinite => exact ⟨nofun, fun beyond => absurd beyond hb.not_infinity_lt⟩
  | finite x =>
    cases b with
    | finite y => exact less_finite
    | infinite =>
      refine ⟨Unbounded.lt_infinity, fun less => ?_⟩
      rcases ha with finite | rfl
      · exact finite
      · exact absurd less (not_lt_of_lt less)

/-- Definite values are the same when neither is below the other. -/
lemma same_iff (ha : a.Definite) (hb : b.Definite) :
    same a b = true ↔ less a b = false ∧ less b a = false := by
  cases a with
  | infinite =>
    cases b with
    | infinite => exact ⟨fun _ => ⟨rfl, rfl⟩, fun _ => rfl⟩
    | finite y =>
      have defined : Scalar.same y y = true := decide_eq_true ⟨hb.le_self, hb.le_self⟩
      simp [same, less, isInfinite, defined]
  | finite x =>
    cases b with
    | infinite =>
      have defined : Scalar.same x x = true := decide_eq_true ⟨ha.le_self, ha.le_self⟩
      simp [same, less, isInfinite, defined]
    | finite y =>
      rw [Bool.eq_false_iff, Bool.eq_false_iff, ne_eq, ne_eq, less_finite, less_finite]
      exact Scalar.same_iff ha.le_self hb.le_self

/-- Of two definite values only one is below the other. -/
lemma not_less_of_less (ha : a.Definite) (hb : b.Definite) (before : less a b = true) :
    less b a = false := by
  rw [Bool.eq_false_iff, ne_eq, less_iff hb ha]
  exact not_lt_of_lt ((less_iff ha hb).1 before)

/-- What lies between two definite values parts them. -/
lemma less_or_less (ha : a.Definite) (hb : b.Definite) (hc : c.Definite)
    (before : less a c = true) :
    less a b = true ∨ less b c = true := by
  rw [less_iff ha hb, less_iff hb hc]
  exact lt_or_lt ha.le_self hb.le_self ((less_iff ha hc).1 before)

/-- The first place decides, unless the amounts there are the same. -/
lemma precedes_cons (ha : a.Definite) (hb : b.Definite) : precedes (a :: as) (b :: bs) = true ↔
    less a b = true ∨ less b a = false ∧ precedes as bs = true := by
  rw [precedes]
  by_cases equal : same a b = true
  · obtain ⟨notLess, notMore⟩ := (same_iff ha hb).1 equal
    simp [equal, notLess, notMore]
  · rw [if_neg equal]
    rw [same_iff ha hb, not_and, Bool.not_eq_false] at equal
    constructor
    · exact .inl
    · rintro (before | ⟨notMore, -⟩)
      · exact before
      · by_contra notLess
        rw [equal (Bool.eq_false_iff.2 notLess)] at notMore
        cases notMore

/-- Of two rows of definite values only one precedes the other. -/
lemma not_precedes (ha : ∀ a ∈ as, a.Definite) (hb : ∀ b ∈ bs, b.Definite)
    (before : precedes as bs = true) : precedes bs as = false := by
  induction as generalizing bs with
  | nil => cases bs <;> rfl
  | cons a as ih =>
    cases bs with
    | nil => cases before
    | cons b bs =>
      rw [List.forall_mem_cons] at ha hb
      rw [Bool.eq_false_iff, ne_eq, precedes_cons hb.1 ha.1]
      rcases (precedes_cons ha.1 hb.1).1 before with less | ⟨notMore, rest⟩
      · simp [less, not_less_of_less ha.1 hb.1 less]
      · simp [notMore, ih ha.2 hb.2 rest]

/-- What is between two rows of amounts comes after the first or before the last. -/
lemma precedes_or_precedes (ha : ∀ a ∈ as, a.Definite) (hb : ∀ b ∈ bs, b.Definite)
    (hc : ∀ c ∈ cs, c.Definite) (before : precedes as cs = true) :
    precedes as bs = true ∨ precedes bs cs = true := by
  induction as generalizing bs cs with
  | nil =>
    cases cs with
    | nil => cases before
    | cons c cs => cases bs with
      | nil => exact .inr rfl
      | cons b bs => exact .inl rfl
  | cons a as ih =>
    cases cs with
    | nil => cases before
    | cons c cs =>
      cases bs with
      | nil => exact .inr rfl
      | cons b bs =>
        rw [List.forall_mem_cons] at ha hb hc
        rw [precedes_cons ha.1 hb.1, precedes_cons hb.1 hc.1]
        cases first : less a b with
        | true => exact .inl (.inl rfl)
        | false =>
          cases last : less b c with
          | true => exact .inr (.inl rfl)
          | false =>
            -- the amount between is the same as both others, so the rest decides
            rcases (precedes_cons ha.1 hc.1).1 before with less | ⟨notMore, rest⟩
            · have := less_or_less ha.1 hb.1 hc.1 less
              simp [first, last] at this
            · refine (ih ha.2 hb.2 hc.2 rest).imp (fun h => .inr ⟨?_, h⟩) fun h => .inr ⟨?_, h⟩
              · rw [Bool.eq_false_iff]
                intro more
                have := less_or_less hb.1 hc.1 ha.1 more
                simp [last, notMore] at this
              · rw [Bool.eq_false_iff]
                intro more
                have := less_or_less hc.1 ha.1 hb.1 more
                simp [first, notMore] at this

end Amount

/-! ### Exchanges -/

namespace Decoder

namespace Exchange

/-- The choice among exchanges is one of them. -/
lemma exists_of_foldl_choose (base : α) (exchanges : List (Exchange α)) :
    exchanges = [] ∨ ∃ c ∈ exchanges, exchanges.foldl (choose base) none = some (c.swap base) := by
  induction exchanges using List.reverseRecOn with
  | nil => exact .inl rfl
  | append_singleton exchanges t ih =>
    rw [List.foldl_append, List.foldl_cons, List.foldl_nil]
    rcases ih with rfl | ⟨c, mem, chosen⟩
    · exact .inr ⟨t, by simp, rfl⟩
    · rw [chosen, choose]
      split
      · exact .inr ⟨t, by simp, rfl⟩
      · exact .inr ⟨c, by simp [mem], rfl⟩

/-- One swap is to be preferred to another: by a finite score, then by the lower rate, then by what
ties are broken by. -/
def Outranks (base : α) (t u : Exchange α) : Prop :=
  match isFinite t.score, isFinite u.score with
  | true, false => True
  | false, true => False
  | true, true => t.rate base < u.rate base ∨
      same (t.rate base) (u.rate base) = true ∧ Amount.precedes t.ties u.ties = true
  | false, false => Amount.precedes t.ties u.ties = true

/-- One of some swaps is the first of those that no other one outranks. -/
structure Least (base : α) (exchanges : List (Exchange α)) (c : Exchange α) : Prop where
  least : ∀ t ∈ exchanges, ¬ t.Outranks base c
  first : ∃ before after, exchanges = before ++ c :: after ∧ ∀ t ∈ before, c.Outranks base t

/-- Numbers that a swap is compared by do not overflow, and none of them is undefined. -/
structure Tame (base : α) (t : Exchange α) : Prop where
  gain : ∀ g, t.gain = .finite g → isFinite g = true
  rate : isFinite base = true → isFinite t.score = true → isFinite (t.rate base) = true
  ties : ∀ a ∈ t.ties, a.Definite

/-- A swap that recovers a finite amount and has a number as its score, or infinity. -/
structure Sound (base : α) (t : Exchange α) : Prop extends t.Tame base where
  gained : ∃ g, t.gain = .finite g ∧ 0 < g
  score : isFinite t.score = true ∨ t.score = infinity

/-- The rate of a swap is defined. -/
def Rated (base : α) (t : Exchange α) : Prop :=
  isFinite base = true ∨ isFinite t.score = true

variable [Sortable α] [Unbounded α] {base : α} {t u v c : Exchange α}
    {exchanges : List (Exchange α)}

namespace Sound

omit [Sortable α] [Unbounded α] in
/-- An exchange with finite scores has its loss by its gain as rate. -/
lemma rate_eq (sound : t.Sound base) :
    ∃ g, isFinite g = true ∧ 0 < g ∧ t.rate base = (t.score - base) / g := by
  obtain ⟨g, gain, pos⟩ := sound.gained
  have finite := sound.toTame.gain g gain
  refine ⟨g, finite, pos, ?_⟩
  have bounded : (Amount.finite g).isInfinite = false := by
    rw [Amount.isInfinite, finite]
    rfl
  simp only [Exchange.rate, gain, bounded, Bool.false_eq_true, if_false]

omit [Sortable α] in
/-- An exchange that makes a finite score infinite has an infinite rate. -/
lemma rate_eq_infinity (sound : t.Sound base) (finite : isFinite base = true)
    (infinite : t.score = infinity) : t.rate base = infinity := by
  obtain ⟨g, bounded, pos, rate⟩ := sound.rate_eq
  rw [rate, infinite, Unbounded.infinity_sub finite, Unbounded.infinity_div bounded pos]

omit [Sortable α] in
/-- An exchange that makes an infinite score finite has the rate minus infinity. -/
lemma rate_eq_neg_infinity (sound : t.Sound infinity) (finite : isFinite t.score = true) :
    t.rate infinity = -infinity := by
  obtain ⟨g, bounded, pos, rate⟩ := sound.rate_eq
  rw [rate, Unbounded.sub_infinity finite, Unbounded.neg_infinity_div bounded pos]

omit [Sortable α] in
/-- Rates from an infinite score to an infinite one compare with nothing. -/
lemma rate_undefined (sound : t.Sound infinity) (infinite : t.score = infinity) (y : α) :
    ¬ t.rate infinity ≤ y ∧ ¬ y ≤ t.rate infinity := by
  obtain ⟨g, -, -, rate⟩ := sound.rate_eq
  rw [rate, infinite]
  exact Unbounded.undefined

end Sound

omit [Sortable α] in
/-- The rate of an exchange is defined unless both scores are infinite. -/
lemma Sound.rate_le_self (sound : t.Sound base) (number : isFinite base = true ∨ base = infinity)
    (finite : isFinite t.score = true) : t.rate base ≤ t.rate base := by
  rcases number with bounded | rfl
  · exact Unbounded.le_self (sound.toTame.rate bounded finite)
  · rw [sound.rate_eq_neg_infinity finite]
    exact Unbounded.neg_infinity_le

/-- An exchange that is preferred has the lower key, unless the rate of the other one is
undefined. -/
lemma precedes_swap_iff (number : isFinite base = true ∨ base = infinity) (ht : t.Sound base)
    (hc : c.Sound base) (rated : c.Rated base) :
    Amount.precedes (t.swap base).key (c.swap base).key = true ↔ t.Outranks base c := by
  have compare : Amount.precedes (t.swap base).key (c.swap base).key = true ↔
      t.rate base < c.rate base ∨
        same (t.rate base) (c.rate base) = true ∧ Amount.precedes t.ties c.ties = true := by
    rw [swap, swap, Amount.precedes, Amount.same]
    by_cases equal : same (t.rate base) (c.rate base) = true
    · simp [equal, (not_lt_of_same equal).1]
    · simp [equal, Amount.less]
  rw [compare, Outranks]
  cases finite : isFinite t.score with
  | true =>
    cases bounded : isFinite c.score with
    | true => exact Iff.rfl
    | false =>
      -- a finite rate against an infinite one
      have given := rated.resolve_right (by simp [bounded])
      rw [hc.rate_eq_infinity given (hc.score.resolve_left (by simp [bounded]))]
      exact iff_true_intro (.inl (Unbounded.lt_infinity (ht.toTame.rate given finite)))
  | false =>
    have infinite := ht.score.resolve_left (by simp [finite])
    cases bounded : isFinite c.score with
    | true =>
      refine iff_false_intro ?_
      rcases number with given | rfl
      · have less := Unbounded.lt_infinity (hc.toTame.rate given bounded)
        rw [ht.rate_eq_infinity given infinite]
        rintro (more | ⟨equal, -⟩)
        · exact not_lt_of_lt less more
        · exact (not_lt_of_same equal).2 less
      · have undefined := (ht.rate_undefined infinite (c.rate infinity)).1
        rintro (less | ⟨equal, -⟩)
        · exact undefined (Sortable.lt_iff_le_not_ge.1 less).1
        · exact undefined (of_decide_eq_true equal).1
    | false =>
      have given := rated.resolve_right (by simp [bounded])
      have never : ¬ (infinity : α) < infinity := fun less => not_lt_of_lt less less
      rw [ht.rate_eq_infinity given infinite,
        hc.rate_eq_infinity given (hc.score.resolve_left (by simp [bounded]))]
      simp [same, Unbounded.infinity_le, never]

/-- Two exchanges do not outrank each other. -/
lemma Outranks.asymm (ht : t.Sound base) (hu : u.Sound base) (outranks : t.Outranks base u) :
    ¬ u.Outranks base t := by
  unfold Outranks at outranks ⊢
  cases finite : isFinite t.score with
  | true =>
    cases bounded : isFinite u.score with
    | true =>
      simp only [finite, bounded] at outranks ⊢
      rcases outranks with less | ⟨equal, ties⟩
      · rintro (more | ⟨equal, -⟩)
        · exact not_lt_of_lt less more
        · exact (not_lt_of_same equal).2 less
      · rintro (more | ⟨-, after⟩)
        · exact (not_lt_of_same equal).2 more
        · rw [Amount.not_precedes ht.toTame.ties hu.toTame.ties ties] at after
          cases after
    | false => exact not_false
  | false =>
    cases bounded : isFinite u.score with
    | true => simp [finite, bounded] at outranks
    | false =>
      simp only [finite, bounded] at outranks ⊢
      simp [Amount.not_precedes ht.toTame.ties hu.toTame.ties outranks]

/-- What is between two exchanges comes after the first or before the last. -/
lemma Outranks.or (number : isFinite base = true ∨ base = infinity) (ht : t.Sound base)
    (hu : u.Sound base) (hv : v.Sound base) (outranks : t.Outranks base v) :
    t.Outranks base u ∨ u.Outranks base v := by
  have rated := fun {w : Exchange α} (sound : w.Sound base) (finite : isFinite w.score = true) =>
    sound.rate_le_self number finite
  unfold Outranks at outranks ⊢
  cases first : isFinite t.score with
  | true =>
    cases between : isFinite u.score with
    | false => exact .inl trivial
    | true =>
      cases last : isFinite v.score with
      | false => exact .inr trivial
      | true =>
        simp only [first, last] at outranks ⊢
        rcases outranks with less | ⟨equal, ties⟩
        · exact (lt_or_lt (rated ht first) (rated hu between) less).imp .inl .inl
        · by_cases below : t.rate base < u.rate base
          · exact .inl (.inl below)
          by_cases above : u.rate base < v.rate base
          · exact .inr (.inl above)
          -- all three rates are the same, so what ties are broken by decides
          obtain ⟨notLess, notMore⟩ := not_lt_of_same equal
          have notBelow : ¬ u.rate base < t.rate base := fun less =>
            (lt_or_lt (rated hu between) (rated hv last) less).elim above notMore
          have notAbove : ¬ v.rate base < u.rate base := fun less =>
            (lt_or_lt (rated hv last) (rated ht first) less).elim notMore below
          exact (Amount.precedes_or_precedes ht.toTame.ties hu.toTame.ties hv.toTame.ties ties).imp
            (fun h => .inr ⟨(same_iff (rated ht first) (rated hu between)).2 ⟨below, notBelow⟩, h⟩)
            fun h => .inr ⟨(same_iff (rated hu between) (rated hv last)).2 ⟨above, notAbove⟩, h⟩
  | false =>
    cases last : isFinite v.score with
    | true => simp [first, last] at outranks
    | false =>
      cases between : isFinite u.score with
      | true => exact .inr trivial
      | false =>
        simp only [first, last] at outranks ⊢
        exact Amount.precedes_or_precedes ht.toTame.ties hu.toTame.ties hv.toTame.ties outranks

omit [Sortable α] [Unbounded α] in
/-- What outranks something has a defined rate. -/
lemma Outranks.rated (outranks : t.Outranks base c) (rated : c.Rated base) : t.Rated base := by
  refine rated.imp id fun bounded => ?_
  cases finite : isFinite t.score with
  | true => rfl
  | false => simp [Outranks, finite, bounded] at outranks

namespace Least

/-- An exchange that outranks the least one of all before it is the least one now. -/
lemma append_better (number : isFinite base = true ∨ base = infinity)
    (sound : ∀ u ∈ exchanges ++ [t], u.Sound base) (mem : c ∈ exchanges)
    (least : Least base exchanges c) (better : t.Outranks base c) :
    Least base (exchanges ++ [t]) t := by
  obtain ⟨all, now⟩ := List.forall_mem_append.1 sound
  rw [List.forall_mem_singleton] at now
  have above : ∀ u ∈ exchanges, t.Outranks base u := fun u hu =>
    (better.or number now (all u hu) (all c mem)).resolve_right (least.least u hu)
  constructor
  · rw [List.forall_mem_append, List.forall_mem_singleton]
    exact ⟨fun u hu => (above u hu).asymm now (all u hu), fun self => self.asymm now now self⟩
  · exact ⟨exchanges, [], rfl, above⟩

omit [Sortable α] [Unbounded α] in
/-- The least exchange stays so when what comes after does not outrank it. -/
lemma append_other (least : Least base exchanges c) (other : ¬ t.Outranks base c) :
    Least base (exchanges ++ [t]) c := by
  obtain ⟨before, after, rfl, first⟩ := least.first
  constructor
  · intro u mem
    rcases List.mem_append.1 mem with earlier | now
    · exact least.least u earlier
    · exact List.mem_singleton.1 now ▸ other
  · exact ⟨before, after ++ [t], by simp, first⟩

end Least

/-- Where rates are defined from the first exchange on, the first one of the best is chosen. -/
lemma exists_least (number : isFinite base = true ∨ base = infinity)
    (sound : ∀ t ∈ exchanges, t.Sound base) (rated : ∀ t ∈ exchanges.head?, t.Rated base) :
    exchanges = [] ∨ ∃ c ∈ exchanges, exchanges.foldl (choose base) none = some (c.swap base) ∧
      c.Rated base ∧ Least base exchanges c := by
  induction exchanges using List.reverseRecOn with
  | nil => exact .inl rfl
  | append_singleton exchanges t ih =>
    have now := sound t (by simp)
    rw [List.foldl_append, List.foldl_cons, List.foldl_nil]
    have first : ∀ u ∈ exchanges.head?, u.Rated base := fun u hu =>
      rated u (by rw [List.head?_append, hu]; rfl)
    rcases ih (fun u hu => sound u (by simp [hu])) first with rfl | ⟨c, mem, chosen, fair, least⟩
    · refine .inr ⟨t, by simp, rfl, rated t (by simp), ?_, [], [], rfl, nofun⟩
      intro u hu
      obtain rfl := List.mem_singleton.1 hu
      exact fun self => self.asymm now now self
    · have before := sound c (by simp [mem])
      have decides := precedes_swap_iff number now before fair
      rw [chosen, choose]
      cases better : Amount.precedes (t.swap base).key (c.swap base).key with
      | true =>
        have outranks := decides.1 better
        exact .inr ⟨t, by simp, rfl, outranks.rated fair,
          least.append_better number sound mem outranks⟩
      | false =>
        have other := mt decides.2 (Bool.eq_false_iff.1 better)
        exact .inr ⟨c, by simp [mem], rfl, fair, least.append_other other⟩

/-- Where the rate of the first exchange is undefined, that one is chosen. -/
lemma foldl_choose_of_not_rated (number : isFinite base = true ∨ base = infinity)
    (sound : t.Sound base) (unrated : ¬ t.Rated base) :
    exchanges.foldl (choose base) (some (t.swap base)) = some (t.swap base) := by
  rw [Rated, not_or] at unrated
  obtain rfl := number.resolve_left unrated.1
  have infinite := sound.score.resolve_left unrated.2
  have last : ∀ u : Exchange α,
      Amount.precedes (u.swap infinity).key (t.swap infinity).key = false := by
    intro u
    have undefined := (sound.rate_undefined infinite (u.rate infinity)).2
    have different : same (u.rate infinity) (t.rate infinity) = false :=
      decide_eq_false fun both => undefined both.1
    have notLess : ¬ u.rate infinity < t.rate infinity := fun less =>
      undefined (Sortable.lt_iff_le_not_ge.1 less).1
    simp [swap, Amount.precedes, Amount.same, Amount.less, different, notLess]
  induction exchanges with
  | nil => rfl
  | cons u rest ih =>
    rw [List.foldl_cons, choose, last u]
    exact ih

end Exchange

/-! ### What is tried, and what is applied -/

variable {d : Decoder α} {s : Supergraph α} {st st' st₁ st₂ : Decoding α} {x y start : Draft α}
  {sort : Selection → Prop} {base : α} {l : List (Selection × Data Float)}
  {exchanges : List (Exchange α)} {next : Selection × Data Float} {t : Exchange α}

/-- A neighbour of a draft composes and recovers some of the budget, and its exchange is the given
one. -/
structure Tries (d : Decoder α) (s : Supergraph α) (x : Draft α) (next : Selection × Data Float)
    (t : Exchange α) : Prop where
  selection : t.draft.selection = next.1
  composes : d.Composes s t.draft
  recovers : d.Recovers x t.draft
  gain : t.gain = d.recovered x.prices t.draft.prices
  score : d.scorer t.draft.network = .ok t.score
  ties : d.tieValues s t.draft.network next.2 = .ok t.ties

/-- The exchanges for some neighbours of a draft, in their order; there are none for those that do
not compose or recover nothing. -/
inductive Exchanges (d : Decoder α) (s : Supergraph α) (x : Draft α) :
    List (Selection × Data Float) → List (Exchange α) → Prop
  | nil : Exchanges d s x [] []
  | misfit {l ts next} : Exchanges d s x l ts → (∀ y, y.selection = next.1 → ¬ d.Composes s y) →
      Exchanges d s x (l ++ [next]) ts
  | idle {l ts next y} : Exchanges d s x l ts → y.selection = next.1 → d.Composes s y →
      ¬ d.Recovers x y → Exchanges d s x (l ++ [next]) ts
  | tried {l ts next t} : Exchanges d s x l ts → d.Tries s x next t →
      Exchanges d s x (l ++ [next]) (ts ++ [t])

/-- Each exchange was tried for a neighbour. -/
lemma Exchanges.exists_of_mem (tried : d.Exchanges s x l exchanges) (mem : t ∈ exchanges) :
    ∃ next ∈ l, d.Tries s x next t := by
  induction tried with
  | nil => cases mem
  | misfit _ _ ih =>
    obtain ⟨next, there, tries⟩ := ih mem
    exact ⟨next, List.mem_append_left _ there, tries⟩
  | idle _ _ _ _ ih =>
    obtain ⟨next, there, tries⟩ := ih mem
    exact ⟨next, List.mem_append_left _ there, tries⟩
  | @tried _ _ last _ _ tries ih =>
    rcases List.mem_append.1 mem with before | now
    · obtain ⟨next, there, tries⟩ := ih before
      exact ⟨next, List.mem_append_left _ there, tries⟩
    · obtain rfl := List.mem_singleton.1 now
      exact ⟨last, List.mem_append_right _ (List.mem_singleton.2 rfl), tries⟩

/-- One more neighbour is tried. -/
lemma betterSwap_ends_exchanges (total : ∀ g, ∃ v, d.scorer g = .ok v) (agrees : d.Agrees sort st)
    (distinguished : Distinguished sort) {T : α} (heat : st.heat = .ok T)
    (swap : st.graph.Swap T x.selection next.1) (sorted : sort next.1)
    (follows : d.Follows sort st st') (tried : d.Exchanges st.graph x l exchanges) :
    Ends (d.betterSwap x base (exchanges.foldl (Exchange.choose base) none) next) st'
      (fun best st₁ => d.Follows sort st st₁ ∧ ∃ all, d.Exchanges st.graph x (l ++ [next]) all ∧
        best = all.foldl (Exchange.choose base) none)
      (fun e st₁ => d.Follows sort st st₁ ∧ ∃ f, e = .fault f ∧ d.Obstacle st x.selection f) := by
  apply betterSwap_ends_of_trial total heat swap sorted follows
  case misfit => exact fun none => ⟨exchanges, tried.misfit none, rfl⟩
  case idle => exact fun y same composes idle => ⟨exchanges, tried.idle same composes idle, rfl⟩
  case tried =>
    intro t st₁ trial
    have value := trial.follows.scorer_eq_ok agrees distinguished trial.composes
      (trial.selection ▸ sorted) trial.score
    refine ⟨_, tried.tried ⟨trial.selection, trial.composes, trial.recovers, trial.gain, value,
      trial.ties⟩, ?_⟩
    rw [List.foldl_append]
    rfl

/-- What is recovered from a finite overage is finite. -/
lemma exists_of_recovered (finite : (d.budget.overage x.prices).isInfinite = false) :
    ∃ g, d.recovered x.prices y.prices = .finite g := by
  rw [recovered]
  dsimp only
  rw [finite]
  split
  · exact ⟨0, rfl⟩
  · rw [if_neg (by decide)]
    split <;> exact ⟨_, rfl⟩

/-- Exchanges are sound when the overage is finite, scores are numbers or infinity, and nothing
overflows. -/
lemma Tries.sound (tries : d.Tries s x next t)
    (finite : (d.budget.overage x.prices).isInfinite = false)
    (values : ∀ g, ∃ v, d.scorer g = .ok v ∧ (isFinite v = true ∨ v = infinity))
    (tame : t.Tame base) : t.Sound base where
  toTame := tame
  gained := by
    obtain ⟨g, recovered⟩ := exists_of_recovered (y := t.draft) finite
    have gain : t.gain = .finite g := tries.gain.trans recovered
    have bounded : (Amount.finite g).isInfinite = false := by
      rw [Amount.isInfinite, tame.gain g gain]
      rfl
    have recovers := tries.recovers
    rw [Recovers, recovered, bounded] at recovers
    exact ⟨g, gain, Amount.less_finite.1 (recovers.resolve_right (by decide))⟩
  score := by
    obtain ⟨v, value, number⟩ := values t.draft.network
    obtain rfl := Except.ok.inj (tries.score.symm.trans value)
    exact number

/-- The best swap is the one that is chosen of all exchanges. -/
lemma bestSwap_ends_exchanges (total : ∀ g, ∃ v, d.scorer g = .ok v) (agrees : d.Agrees sort st)
    (distinguished : Distinguished sort) (closed : Closed sort st)
    (composes : d.Composes st.graph x) (sorted : sort x.selection)
    (follows : d.Follows sort st st') :
    Ends (d.bestSwap x) st'
      (fun best st₁ => d.Follows sort st st₁ ∧ ∃ base T l, st.heat = .ok T ∧
        st.graph.neighbours T x.selection = .ok l ∧ d.scorer x.network = .ok base ∧
        ∃ exchanges, d.Exchanges st.graph x l exchanges ∧
          best = exchanges.foldl (Exchange.choose base) none)
      (fun e st₁ => d.Follows sort st st₁ ∧ ∃ f, e = .fault f ∧ d.Obstacle st x.selection f) := by
  refine bestSwap_ends_of_steps total composes sorted follows
    (fun base done best => d.scorer x.network = .ok base ∧
      ∃ exchanges, d.Exchanges st.graph x done exchanges ∧
        best = exchanges.foldl (Exchange.choose base) none) ?_ ?_
  · intro base st₁ follows₁ known
    exact ⟨follows₁.scorer_eq_ok agrees distinguished composes sorted known, [], .nil, rfl⟩
  · rintro base T best st₁ next done heat swap follows₁ ⟨value, exchanges, tried, rfl⟩
    refine (betterSwap_ends_exchanges total agrees distinguished heat swap
      (closed T _ _ heat swap sorted) follows₁ tried).mono (fun best st₂ ends => ?_) fun _ _ h => h
    exact ⟨ends.1, value, ends.2⟩

/-- Drafts that repairing comes to by one swap after the other, each with the state in which the
next swap is looked for. -/
inductive Reaches (d : Decoder α) (start : Draft α) (st : Decoding α) : Draft α → Decoding α → Prop
  | start : Reaches d start st start st
  | swapped {x : Draft α} {best st₁ st₂} : Reaches d start st x st₁ →
      d.budget.satisfiedBy x.prices = false → (d.bestSwap x).run st₁ = (.ok (some best), st₂) →
      Reaches d start st best.draft st₂

/-- A repair goes from drafts that are reached to drafts that are reached. -/
lemma reaches_of_repairWithin {fuel swaps n : Nat} (reaches : d.Reaches start st x st₁)
    (run : (d.repairWithin fuel swaps x).run st₁ = (.ok (y, n), st₂)) :
    d.Reaches start st y st₂ := by
  induction fuel generalizing x swaps st₁ with
  | zero =>
    unfold repairWithin at run
    cases satisfied : d.budget.satisfiedBy x.prices with
    | true =>
      rw [if_pos satisfied] at run
      cases run
      exact reaches
    | false =>
      rw [if_neg (by simp [satisfied]), run_bind] at run
      rcases found : (d.bestSwap x).run st₁ with ⟨_ | _ | swap, st₂⟩ <;> rw [found] at run
        <;> cases run
  | succ fuel ih =>
    unfold repairWithin at run
    cases satisfied : d.budget.satisfiedBy x.prices with
    | true =>
      rw [if_pos satisfied] at run
      cases run
      exact reaches
    | false =>
      rw [if_neg (by simp [satisfied]), run_bind] at run
      rcases found : (d.bestSwap x).run st₁ with ⟨_ | _ | swap, st₂⟩ <;> rw [found] at run
      · cases run
      · cases run
      · exact ih (reaches.swapped satisfied found) run

/-- What repairing comes to composes and is proper. -/
lemma Reaches.invariant (total : ∀ g, ∃ v, d.scorer g = .ok v) (orderly : st.graph.Orderly)
    (agrees : d.Agrees st.graph.Proper st) (composes : d.Composes st.graph start)
    (proper : st.graph.Proper start.selection) (reaches : d.Reaches start st x st₁) :
    d.Composes st.graph x ∧ st.graph.Proper x.selection ∧ d.Follows st.graph.Proper st st₁ := by
  have closed : Closed st.graph.Proper st := fun _ _ _ _ swap proper =>
    proper.swap orderly.settled swap
  induction reaches with
  | start => exact ⟨composes, proper, .refl st⟩
  | @swapped x best st₁ st₂ _ _ run ih =>
    obtain ⟨composes, proper, follows⟩ := ih
    have ends :=
      bestSwap_ends_exchanges total agrees distinguished_proper closed composes proper follows
    obtain ⟨follows₂, base, T, l, heat, listed, -, exchanges, tried, chosen⟩ := ends.of_ok run
    rcases Exchange.exists_of_foldl_choose base exchanges with rfl | ⟨c, mem, found⟩
    · cases chosen
    obtain rfl : best = c.swap base := Option.some.inj (chosen.trans found)
    obtain ⟨next, there, tries⟩ := tried.exists_of_mem mem
    refine ⟨tries.composes, ?_, follows₂⟩
    have swap := Supergraph.swap_of_mem_neighbours listed there
    exact tries.selection ▸ proper.swap orderly.settled swap

/-- Repairing looks for the best swap in every round, for every supergraph, every budget, and every
scorer with finite or infinite scores. In a round with a finite overage all neighbours are tried,
unless a fault breaks that off, and a swap is applied if there is an exchange at all. It is the
first one that no other one outranks, if the score of the draft at hand is finite or that of the
first exchange is; else it is the first one. -/
theorem repair_least [Sortable α] [Unbounded α] (d : Decoder α)
    (values : ∀ g, ∃ v, d.scorer g = .ok v ∧ (isFinite v = true ∨ v = infinity)) (st : Decoding α)
    (orderly : st.graph.Orderly) (agrees : d.Agrees st.graph.Proper st) (start : Draft α)
    (composes : d.Composes st.graph start) (proper : st.graph.Proper start.selection) :
    (∀ y n st', (d.repair start).run st = (.ok (y, n), st') → d.Reaches start st y st') ∧
    ∀ x st₁, d.Reaches start st x st₁ → (d.budget.overage x.prices).isInfinite = false →
      (∃ f st₂, (d.bestSwap x).run st₁ = (.error (.fault f), st₂) ∧ d.Obstacle st x.selection f) ∨
      ∃ best st₂ T l base exchanges, (d.bestSwap x).run st₁ = (.ok best, st₂) ∧ st.heat = .ok T ∧
        st.graph.neighbours T x.selection = .ok l ∧ d.scorer x.network = .ok base ∧
        d.Exchanges st.graph x l exchanges ∧ (best = none ↔ exchanges = []) ∧
        ∀ swap, best = some swap → (∀ t ∈ exchanges, t.Tame base) →
          ∃ c ∈ exchanges, swap.draft = c.draft ∧
            ((∀ t ∈ exchanges.head?, t.Rated base) ∧ Exchange.Least base exchanges c ∨
              (∀ t ∈ exchanges.head?, ¬ t.Rated base) ∧ exchanges.head? = some c) := by
  have total : ∀ g, ∃ v, d.scorer g = .ok v := fun g => (values g).imp fun _ h => h.1
  refine ⟨fun y n st' run => ?_, fun x st₁ reaches finite => ?_⟩
  · rw [repair, run_bind] at run
    exact reaches_of_repairWithin .start run
  -- drafts that a repair reaches come with the invariant that the search for a swap needs
  have closed : Closed st.graph.Proper st := fun _ _ _ _ swap proper =>
    proper.swap orderly.settled swap
  obtain ⟨composes, proper, follows⟩ := reaches.invariant total orderly agrees composes proper
  have ends :=
    bestSwap_ends_exchanges total agrees distinguished_proper closed composes proper follows
  rcases run : (d.bestSwap x).run st₁ with ⟨e | best, st₂⟩
  · obtain ⟨-, f, rfl, obstacle⟩ := ends.of_error run
    exact .inl ⟨f, st₂, rfl, obstacle⟩
  obtain ⟨-, base, T, l, heat, listed, value, exchanges, tried, rfl⟩ := ends.of_ok run
  refine .inr ⟨_, st₂, T, l, base, exchanges, rfl, heat, listed, value, tried, ?_, ?_⟩
  · rcases Exchange.exists_of_foldl_choose base exchanges with rfl | ⟨c, mem, found⟩
    · exact iff_of_true rfl rfl
    · rw [found]
      exact iff_of_false nofun (List.ne_nil_of_mem mem)
  -- the first exchange decides: if its rate is undefined no later one is compared with it
  · intro swap chosen tame
    have sound : ∀ t ∈ exchanges, t.Sound base := fun t mem =>
      have ⟨_, _, tries⟩ := tried.exists_of_mem mem
      tries.sound finite values (tame t mem)
    have number : isFinite base = true ∨ base = infinity := by
      obtain ⟨v, same, number⟩ := values x.network
      obtain rfl := Except.ok.inj (value.symm.trans same)
      exact number
    cases exchanges with
    | nil => cases chosen
    | cons t rest =>
      by_cases rated : t.Rated base
      · have fair : ∀ u ∈ (t :: rest).head?, u.Rated base := fun u hu => Option.some.inj hu ▸ rated
        rcases Exchange.exists_least number sound fair with none | ⟨c, mem, found, -, least⟩
        · cases none
        · obtain rfl : swap = c.swap base := Option.some.inj (chosen.symm.trans found)
          exact ⟨c, mem, rfl, .inl ⟨fair, least⟩⟩
      · have kept : rest.foldl (Exchange.choose base) (some (t.swap base)) = some (t.swap base) :=
          Exchange.foldl_choose_of_not_rated number (sound t (List.mem_cons_self ..)) rated
        obtain rfl : swap = t.swap base := Option.some.inj (chosen.symm.trans kept)
        exact ⟨t, List.mem_cons_self .., rfl, .inr ⟨fun u hu => Option.some.inj hu ▸ rated, rfl⟩⟩


/-- A neighbour gives one exchange. -/
lemma Tries.unique {u : Exchange α} (ht : d.Tries s x next t) (hu : d.Tries s x next u) :
    t = u := by
  obtain ⟨y, gain, score, ties⟩ := t
  obtain ⟨z, gain', score', ties'⟩ := u
  obtain rfl : y = z := ht.composes.unique hu.composes (ht.selection.trans hu.selection.symm)
  obtain rfl : gain = gain' := ht.gain.trans hu.gain.symm
  obtain rfl : score = score' := Except.ok.inj (ht.score.symm.trans hu.score)
  obtain rfl : ties = ties' := Except.ok.inj (ht.ties.symm.trans hu.ties)
  rfl

/-- A neighbour that gives an exchange is among those tried. -/
lemma Exchanges.mem (tried : d.Exchanges s x l exchanges) (there : next ∈ l)
    (tries : d.Tries s x next t) : t ∈ exchanges := by
  induction tried with
  | nil => cases there
  | misfit _ none ih =>
    rcases List.mem_append.1 there with before | now
    · exact ih before
    · obtain rfl := List.mem_singleton.1 now
      exact absurd tries.composes (none _ tries.selection)
  | idle _ same composes useless ih =>
    rcases List.mem_append.1 there with before | now
    · exact ih before
    · obtain rfl := List.mem_singleton.1 now
      obtain rfl := composes.unique tries.composes (same.trans tries.selection.symm)
      exact absurd tries.recovers useless
  | tried _ tries' ih =>
    rcases List.mem_append.1 there with before | now
    · exact List.mem_append_left _ (ih before)
    · obtain rfl := List.mem_singleton.1 now
      exact List.mem_append_right _ (List.mem_singleton.2 (tries.unique tries'))

/-! ### Three operators for one position -/

namespace Exchange.Sample

/-- An operator that gives a feature at given costs. -/
def feature (name : String) (cost flops : Float) : Operator Float :=
  { name, inTypes := [Decoder.Sample.typeOf "path" (.symbol "X")]
    outType := Decoder.Sample.typeOf "feature" (.ofNat 2), differentiable := false
    invariance := .empty, stability := none, cost := .ofList [("cost", cost), ("flops", flops)]
    params := .empty, adapter := false, executor := none }

/-- The first operator is cheap, but needs much work. -/
def candidates : List (Operator Float) :=
  [feature "a" 1 9, feature "b" 2 1, feature "c" 3 1]

/-- The network with one position. -/
def graph : Supergraph Float :=
  { catalog := (Catalog.ofKinds ["path", "feature"] "cost").extend candidates (by decide)
    inputType := Decoder.Sample.typeOf "path" (.ofNat 3)
    outputType := Decoder.Sample.typeOf "feature" (.symbol "K"), depth := .whole 1
    positions := [{ id := 0, stage := 1, inputs := [none]
                    outType := Decoder.Sample.typeOf "feature" (.ofNat 2), candidates
                    state := .masked, logits := .row [], chosen := none }]
    exits := [0], routeLogits := .row [0] }

/-- The settings of a search that does not draw. -/
def settings : Settings Float where
  weightRate := .ok (.whole 0)
  logitRate := .ok (.whole 0)
  batchSize := .all
  headScale := .ok 0
  logitScale := .ok (.whole 0)
  schedule :=
    { start := .whole 1, final := .whole 1, steps := .whole 1, cooling := .linear
      final_pos := by decide +kernel, final_le := by decide +kernel }
  pruneThreshold := 0
  pruneEvery := .whole 1
  warmupSteps := .ok (.whole 0)
  penalty := .ok 0
  maskOverBudget := false
  maxFanIn := .whole 3
  maxSeconds := none
  ridge := .ok 0
  insertFixed := true
  tieBreak := [.cost, .catalogOrder]
  metricKinds := .none
  objective := .null

/-- A decoder by whose lights a network has a finite score if it has one of the given operators. -/
def decoder (good : List String) : Decoder Float where
  scorer g := .ok (if g.nodes.any fun n => good.contains n.name then 1 else infinity)
  budget :=
    { limits := .ofList [("flops", 2)]
      positive := by
        change ∀ p ∈ [("flops", (2 : Float))], 0 < p.2
        simpa using (by decide +kernel : (0 : Float) < 2) }
  settings
  params _ _ := .ok .empty
  networkId := "decoded"

/-- The selection of one operator. -/
def alone (name : String) : Selection :=
  ⟨some (.id 0), [(.id 0, .text name)]⟩

/-- The draft of one operator, if it composes. -/
def composed (good : List String) (name : String) : Option (Draft Float) :=
  ((decoder good).draft? graph (alone name)).toOption.join

/-- A draft that is found composes its selection. -/
lemma composes_of_composed {good : List String} {name : String} {x : Draft Float}
    (found : composed good name = some x) :
    x.selection = alone name ∧ (decoder good).Composes graph x := by
  unfold composed at found
  cases eq : (decoder good).draft? graph (alone name) with
  | error f =>
    rw [eq] at found
    cases found
  | ok made =>
    rw [eq] at found
    obtain rfl : made = some x := found
    exact draft?_eq_some.1 eq

/-- Each network has a score that is finite or infinite. -/
lemma scores (good : List String) (g : Network Float) :
    ∃ v, (decoder good).scorer g = .ok v ∧ (isFinite v = true ∨ v = infinity) := by
  refine ⟨_, rfl, ?_⟩
  split
  · exact .inl (by decide +kernel)
  · exact .inr rfl

/-- The network is orderly. -/
lemma orderly_graph : graph.Orderly where
  ascending := by decide
  settled p mem := by
    obtain rfl := List.mem_singleton.1 mem
    exact Position.settled_of_chosen_eq_none rfl

/-- A selection of one candidate is proper. -/
lemma proper_alone {name : String} (mem : name ∈ ["a", "b", "c"]) : graph.Proper (alone name) where
  places := ⟨0, by decide, [0], by with_unfolding_all rfl, rfl, rfl⟩
  offered q hq := by
    obtain rfl := List.mem_singleton.1 hq
    have known : ∀ n ∈ ["a", "b", "c"], ∃ op ∈ candidates, n = op.name := by decide
    obtain ⟨op, there, rfl⟩ := known name mem
    exact ⟨_, op, rfl, there, rfl⟩

/-- The neighbours of the first candidate are the two others. -/
lemma neighbours_alone (T : Float) :
    graph.neighbours T (alone "a") = .ok (["b", "c"].map fun name => (alone name, .text name)) :=
  rfl

/-- The exchange of an operator, for a draft that is left. -/
def exchange (good : List String) (x : Draft Float) (name : String) : Option (Exchange Float) := do
  let y ← composed good name
  let score ← ((decoder good).scorer y.network).toOption
  let ties ← ((decoder good).tieValues graph y.network (.text name)).toOption
  return { draft := y, gain := (decoder good).recovered x.prices y.prices, score, ties }

/-- Whether an exchange can be seen to be tame. -/
def calm (base : Float) (t : Exchange Float) : Bool :=
  (match t.gain with
    | .finite g => isFinite g
    | .infinite => true) && (!isFinite t.score || isFinite (t.rate base)) &&
  t.ties.all fun a => match a with
    | .finite x => isFinite x
    | .infinite => true

/-- An exchange that is checked to be calm is tame. -/
lemma tame_of_calm {base : Float} {t : Exchange Float} (quiet : calm base t = true) :
    t.Tame base := by
  simp only [calm, Bool.and_eq_true, List.all_eq_true] at quiet
  obtain ⟨⟨gain, rate⟩, ties⟩ := quiet
  refine ⟨fun g eq => ?_, fun _ finite => ?_, fun a mem => ?_⟩
  · rw [eq] at gain
    exact gain
  · rw [finite] at rate
    exact rate
  · have := ties a mem
    cases a with
    | finite x => exact .inl this
    | infinite => trivial

/-- An exchange that is found is one that is tried. -/
lemma tries_of_exchange {good : List String} {x : Draft Float} {name : String} {t : Exchange Float}
    (found : exchange good x name = some t) (gains : Amount.less (.finite 0) t.gain = true) :
    (decoder good).Tries graph x (alone name, .text name) t := by
  unfold exchange at found
  simp only [Option.bind_eq_bind, Option.bind_eq_some_iff, Option.pure_def,
    Option.some.injEq] at found
  obtain ⟨y, drafted, score, scored, ties, tied, rfl⟩ := found
  obtain ⟨selection, composes⟩ := composes_of_composed drafted
  exact ⟨selection, composes, .inl gains, rfl, toOption_eq_some.1 scored, toOption_eq_some.1 tied⟩

end Exchange.Sample

open Exchange.Sample in
/-- A draft is left for one with a finite score, though the first swap leads to an infinite one. -/
theorem repair_least_feature :
    let d := decoder ["a", "c"]
    let st := d.start graph
    let x := (composed ["a", "c"] "a").get (by decide +kernel)
    (∀ g, ∃ v, d.scorer g = .ok v ∧ (isFinite v = true ∨ v = infinity)) ∧ st.graph.Orderly ∧
      d.Agrees st.graph.Proper st ∧ d.Composes st.graph x ∧ st.graph.Proper x.selection ∧
        d.Reaches x st x st ∧
      (d.budget.overage x.prices).isInfinite = false ∧
      ∃ swap st₁ T l base exchanges, (d.bestSwap x).run st = (.ok (some swap), st₁) ∧
        st.heat = .ok T ∧
        st.graph.neighbours T x.selection = .ok l ∧ d.scorer x.network = .ok base ∧
        d.Exchanges st.graph x l exchanges ∧ (∀ t ∈ exchanges, t.Tame base) ∧
        ∃ c ∈ exchanges, swap.draft = c.draft ∧ (∀ t ∈ exchanges.head?, t.Rated base) ∧
          Exchange.Least base exchanges c := by
  intro d st x
  obtain ⟨selection, composes⟩ :=
    composes_of_composed (Option.some_get _ : some x = composed ["a", "c"] "a").symm
  have proper : st.graph.Proper x.selection := selection ▸ proper_alone (by decide)
  have finite : (d.budget.overage x.prices).isInfinite = false := by decide +kernel
  refine ⟨scores _, orderly_graph, agrees_of_fresh rfl, composes, proper, .start, finite, ?_⟩
  -- the search for a swap is computed once; what it found is then read off the general theorem
  have applied : (((d.bestSwap x).run st).1.toOption.join).isSome = true := by decide +kernel
  rcases (repair_least d (scores _) st orderly_graph (agrees_of_fresh rfl) x composes proper).2 x st
    .start finite with
    ⟨f, st₁, run, -⟩ | ⟨best, st₁, T, l, base, exchanges, run, heat, listed, value, tried, -, least⟩
  · rw [run] at applied
    cases applied
  cases best with
  | none =>
    rw [run] at applied
    cases applied
  | some swap =>
    have given : d.scorer x.network = .ok 1 := congrArg Except.ok (if_pos (by decide +kernel))
    obtain rfl := Except.ok.inj (given.symm.trans value)
    have each : ∀ name ∈ ["b", "c"], ((exchange ["a", "c"] x name).any fun u =>
        calm 1 u && Amount.less (.finite 0) u.gain) = true := by decide +kernel
    -- both neighbours are among those that were checked to be calm
    have tame : ∀ t ∈ exchanges, t.Tame 1 := by
      intro t mem
      obtain ⟨next, there, tries⟩ := tried.exists_of_mem mem
      rw [selection] at listed
      rw [← Except.ok.inj ((neighbours_alone T).symm.trans listed)] at there
      obtain ⟨name, among, rfl⟩ := List.mem_map.1 there
      obtain ⟨u, found, both⟩ := (Option.any_eq_true _ _).1 (each name among)
      rw [Bool.and_eq_true] at both
      obtain rfl := tries.unique (tries_of_exchange found both.2)
      exact tame_of_calm both.1
    obtain ⟨c, mem, same, ⟨fair, first⟩ | ⟨unrated, -⟩⟩ := least swap rfl tame
    · exact ⟨swap, st₁, T, l, 1, exchanges, run, heat, listed, value, tried, tame, c, mem,
        same, fair, first⟩
    · cases exchanges with
      | nil => cases mem
      | cons t rest => exact absurd (.inl (by decide +kernel)) (unrated t rfl)

open Exchange.Sample in
/-- From an infinite score the first swap is applied, which leads to an infinite score again, and
not the other one, which leads to a finite score. -/
theorem repair_not_least :
    let d := decoder ["c"]
    let st := d.start graph
    let x := (composed ["c"] "a").get (by decide +kernel)
    (∀ g, ∃ v, d.scorer g = .ok v ∧ (isFinite v = true ∨ v = infinity)) ∧ st.graph.Orderly ∧
      d.Agrees st.graph.Proper st ∧ d.Composes st.graph x ∧ st.graph.Proper x.selection ∧
      d.budget.satisfiedBy x.prices = false ∧ (d.budget.overage x.prices).isInfinite = false ∧
      ∃ swap st₁ T l base exchanges, (d.bestSwap x).run st = (.ok (some swap), st₁) ∧
        st.heat = .ok T ∧
        st.graph.neighbours T x.selection = .ok l ∧ d.scorer x.network = .ok base ∧
        d.Exchanges st.graph x l exchanges ∧
        ¬ ∃ c ∈ exchanges, swap.draft = c.draft ∧ Exchange.Least base exchanges c := by
  intro d st x
  obtain ⟨selection, composes⟩ :=
    composes_of_composed (Option.some_get _ : some x = composed ["c"] "a").symm
  have proper : st.graph.Proper x.selection := selection ▸ proper_alone (by decide)
  have closed : Closed st.graph.Proper st := fun _ _ _ _ swap proper =>
    proper.swap orderly_graph.settled swap
  have ends := bestSwap_ends_exchanges (fun g => (scores ["c"] g).imp fun _ h => h.1)
    (agrees_of_fresh rfl)
    distinguished_proper closed composes proper (.refl st)
  -- a swap is applied, and it leads to an infinite score
  have applied : (((d.bestSwap x).run st).1.toOption.join.any fun swap =>
      (d.scorer swap.draft.network).toOption.any fun v => !isFinite v) = true := by decide +kernel
  rcases run : (d.bestSwap x).run st with ⟨e | _ | swap, st₁⟩ <;> rw [run] at applied
  · cases applied
  · cases applied
  obtain ⟨-, base, T, l, heat, listed, value, exchanges, tried, -⟩ := ends.of_ok run
  refine ⟨scores ["c"], orderly_graph, agrees_of_fresh rfl, composes,
    proper, by decide +kernel, by decide +kernel, swap,
    st₁, T, l, base, exchanges, rfl, heat, listed, value, tried, ?_⟩
  rintro ⟨c, mem, same, least⟩
  -- the exchange of the last operator has a finite score
  let u := (exchange ["c"] x "c").get (by decide +kernel)
  have tries : d.Tries graph x (alone "c", .text "c") u :=
    tries_of_exchange (Option.some_get _).symm (by decide +kernel)
  have there : (alone "c", .text "c") ∈ l := by
    rw [selection] at listed
    rw [← Except.ok.inj ((neighbours_alone T).symm.trans listed)]
    exact List.mem_cons_of_mem _ (List.mem_singleton.2 rfl)
  have better : isFinite u.score = true := by decide +kernel
  have worse : isFinite c.score = false := by
    obtain ⟨next, -, tries'⟩ := tried.exists_of_mem mem
    change ((d.scorer swap.draft.network).toOption.any fun v => !isFinite v) = true at applied
    rw [same, show d.scorer c.draft.network = .ok c.score from tries'.score] at applied
    exact Bool.eq_false_of_not_eq_true' applied
  refine least.least u (tried.mem there tries) ?_
  simp [Exchange.Outranks, better, worse]

end Decoder

end OperatorNet
