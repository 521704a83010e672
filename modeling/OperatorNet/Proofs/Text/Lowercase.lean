import OperatorNet.Proofs.Text.Characters
import OperatorNet.Text.Lowercase

/-!
# Lower case and blanks

Lower-casing only makes characters that it leaves alone (`isLower_of_mem_lowerFrom`), so a second
time it changes nothing (`lower_lower`). It makes no blanks either, so a text that is trimmed stays
trimmed (`trimmed_lower_trimmed`).
-/

namespace OperatorNet.Text

namespace LowerRun

/-- Whether a number is the code point of one of the letters of a run. -/
def covers (r : LowerRun) (n : Nat) : Bool :=
  r.first ≤ n && n ≤ r.last && (n - r.first) % r.step == 0

/-- The code point that the first letter of a run becomes. -/
def low (r : LowerRun) : Nat :=
  (r.first + r.shift).toNat

/-- The code point that the last letter of a run becomes. -/
def high (r : LowerRun) : Nat :=
  (r.last + r.shift).toNat

/-- Whether the letters of a run become none that lie between two code points. -/
def misses (r : LowerRun) (first last : Nat) : Bool :=
  Nat.blt r.high first || Nat.blt last r.low

/-- Whether the letters of a run become other letters than those of a second run: they lie before it
or behind it, or in between. -/
def avoids (r q : LowerRun) : Bool :=
  r.misses q.first q.last ||
    ((Nat.beq r.step 2 || Nat.beq r.first r.last) && Nat.beq q.step 2 &&
      decide (0 ≤ r.first + r.shift) && decide ((r.first + r.shift - q.first) % 2 = 1))

/-- A run that misses an interval moves no character into it. -/
lemma not_between_of_misses {r : LowerRun} {first last : Nat} (misses : r.misses first last)
    {n : Nat} (covers : r.covers n) :
    ¬ (first ≤ (n + r.shift).toNat ∧ (n + r.shift).toNat ≤ last) := by
  simp only [LowerRun.misses, LowerRun.covers, low, high, Bool.or_eq_true, Bool.and_eq_true,
    decide_eq_true_eq, Nat.blt_eq] at misses covers
  omega

/-- A run that avoids another one moves no character into it. -/
lemma not_covers_of_avoids {r q : LowerRun} (avoids : r.avoids q) {n : Nat} (covers : r.covers n) :
    ¬ q.covers (n + r.shift).toNat := by
  intro covered
  rw [LowerRun.avoids, Bool.or_eq_true] at avoids
  rcases avoids with misses | between
  · refine not_between_of_misses misses covers ?_
    simp only [LowerRun.covers, Bool.and_eq_true, decide_eq_true_eq] at covered
    exact covered.1
  · simp only [LowerRun.covers, Bool.or_eq_true, Bool.and_eq_true, decide_eq_true_eq, beq_iff_eq,
      Nat.beq_eq] at between covers covered
    obtain ⟨⟨⟨step, step'⟩, nonneg⟩, odd⟩ := between
    rw [step'] at covered
    rcases step with two | single
    · rw [two] at covers
      omega
    · omega

end LowerRun

/-- No run moves a character into a run. -/
lemma avoids_of_mem : ∀ r ∈ lowerRuns, ∀ q ∈ lowerRuns, r.avoids q := by
  have all : (lowerRuns.all fun r => lowerRuns.all r.avoids) = true := by decide +kernel
  simpa only [List.all_eq_true] using all

/-- What no letter becomes: blanks, and the capital letters that are dealt with by themselves. -/
def keptOut : Intervals :=
  (0x1c, 0x1f) :: (0x130, 0x130) :: (0x3a3, 0x3a3) :: whiteIntervals

/-- No run moves a character into what is kept out. -/
lemma misses_of_mem : ∀ r ∈ lowerRuns, ∀ i ∈ keptOut, r.misses i.1 i.2 := by
  have all : (lowerRuns.all fun r => keptOut.all fun i => r.misses i.1 i.2) = true := by
    decide +kernel
  simpa only [List.all_eq_true] using all

/-- Blanks are kept out. -/
lemma holds_keptOut_of_isBlank {c : Char} (blank : isBlank c) : keptOut.holds c := by
  rw [isBlank, isWhite, Intervals.holds, Bool.or_eq_true] at blank
  rw [keptOut, Intervals.holds, List.any_cons, List.any_cons, List.any_cons]
  rcases blank with white | separator
  · rw [white, Bool.or_true, Bool.or_true, Bool.or_true]
  · rw [separator, Bool.true_or]

/-- A character made from a number has this code point, or zero where there is no such character. -/
lemma toNat_ofNat_or (n : Nat) : (Char.ofNat n).toNat = n ∨ (Char.ofNat n).toNat = 0 := by
  by_cases valid : n.isValidChar
  · left
    rw [Char.ofNat, dif_pos valid]
    rfl
  · right
    rw [Char.ofNat, dif_neg valid]
    rfl

/-- A letter in lower case is itself, or it comes from a run and is neither kept out nor a letter of
a run. -/
lemma lowerChar_cases (c : Char) :
    ((∀ q ∈ lowerRuns, ¬ q.covers c.toNat) ∧ lowerChar c = c) ∨
      (∀ q ∈ lowerRuns, ¬ q.covers (lowerChar c).toNat) ∧ ¬ keptOut.holds (lowerChar c) := by
  unfold lowerChar
  split
  next r found =>
    have mem := List.mem_of_find?_eq_some found
    have covers : r.covers c.toNat := by
      have passed := List.find?_some found
      exact passed
    refine .inr ?_
    rw [Intervals.holds_iff]
    rcases toNat_ofNat_or (c.toNat + r.shift).toNat with same | zero
    · rw [same]
      refine ⟨fun q hq => LowerRun.not_covers_of_avoids (avoids_of_mem r mem q hq) covers, ?_⟩
      rintro ⟨i, hi, between⟩
      exact LowerRun.not_between_of_misses (misses_of_mem r mem i hi) covers between
    · rw [zero]
      exact ⟨by decide +kernel, by decide⟩
  next none => exact .inl ⟨List.find?_eq_none.1 none, rfl⟩

/-- A character that lower-casing leaves alone wherever it stands. -/
structure IsLower (c : Char) : Prop where
  fixed : ∀ q ∈ lowerRuns, ¬ q.covers c.toNat
  notSigma : c ≠ 'Σ'
  notDotted : c ≠ 'İ'

/-- Lower characters stay. -/
lemma IsLower.lowerChar_eq {c : Char} (isLower : IsLower c) : lowerChar c = c := by
  have none : (lowerRuns.find? fun r =>
      r.first ≤ c.toNat && c.toNat ≤ r.last && (c.toNat - r.first) % r.step == 0) = none :=
    List.find?_eq_none.2 isLower.fixed
  rw [lowerChar, none]

/-- A character is lowered to a lower one, and only blanks to blanks. -/
lemma isLower_lowerChar {c : Char} (notSigma : c ≠ 'Σ') (notDotted : c ≠ 'İ') :
    IsLower (lowerChar c) ∧ (isBlank (lowerChar c) → isBlank c) := by
  rcases lowerChar_cases c with ⟨fixed, same⟩ | ⟨fixed, out⟩
  · rw [same]
    exact ⟨⟨fixed, notSigma, notDotted⟩, fun blank => blank⟩
  · refine ⟨⟨fixed, fun sigma => ?_, fun dotted => ?_⟩, fun blank => ?_⟩
    · rw [sigma] at out
      exact out (by decide)
    · rw [dotted] at out
      exact out (by decide)
    · exact absurd (holds_keptOut_of_isBlank blank) out

/-- What one character becomes, at a place where a sigma is a final one or not. -/
def lowered (final : Bool) (c : Char) : List Char :=
  if c = 'Σ' then [if final then 'ς' else 'σ']
  else if c = 'İ' then ['i', '\u0307']
  else [lowerChar c]

/-- A text in lower case is made of what its characters become. -/
lemma lowerFrom_cons (before : List Char) (c : Char) (rest : List Char) :
    lowerFrom before (c :: rest) =
      lowered (meetsCased before && !meetsCased rest) c ++ lowerFrom (c :: before) rest :=
  rfl

/-- No character is lowered to nothing. -/
lemma lowered_ne_nil (final : Bool) (c : Char) : lowered final c ≠ [] := by
  unfold lowered
  split
  · exact List.cons_ne_nil _ _
  · split <;> exact List.cons_ne_nil _ _

/-- Only empty text is lowered to nothing. -/
lemma lowerFrom_eq_nil {before cs : List Char} (none : lowerFrom before cs = []) : cs = [] := by
  cases cs with
  | nil => rfl
  | cons c rest =>
    rw [lowerFrom_cons, List.append_eq_nil_iff] at none
    exact absurd none.1 (lowered_ne_nil _ c)

/-- What a character is lowered to is lower, and only blanks give blanks. -/
lemma isLower_of_mem_lowered {final : Bool} {c x : Char} (mem : x ∈ lowered final c) :
    IsLower x ∧ (isBlank x → isBlank c) := by
  unfold lowered at mem
  split at mem
  next =>
    have cases : x = 'ς' ∨ x = 'σ' := by
      rw [List.mem_singleton] at mem
      cases final
      · exact .inr mem
      · exact .inl mem
    rcases cases with rfl | rfl
    · exact ⟨⟨by decide +kernel, by decide, by decide⟩, fun blank => absurd blank (by decide)⟩
    · exact ⟨⟨by decide +kernel, by decide, by decide⟩, fun blank => absurd blank (by decide)⟩
  next notSigma =>
    split at mem
    next =>
      rw [List.mem_cons, List.mem_singleton] at mem
      rcases mem with rfl | rfl
      · exact ⟨⟨by decide +kernel, by decide, by decide⟩, fun blank => absurd blank (by decide)⟩
      · exact ⟨⟨by decide +kernel, by decide, by decide⟩, fun blank => absurd blank (by decide)⟩
    next notDotted =>
      rw [List.mem_singleton] at mem
      subst mem
      exact isLower_lowerChar notSigma notDotted

/-- Lowered text is lower. -/
lemma isLower_of_mem_lowerFrom {before cs : List Char} {x : Char} (mem : x ∈ lowerFrom before cs) :
    IsLower x := by
  induction cs generalizing before with
  | nil => cases mem
  | cons c rest ih =>
    rw [lowerFrom_cons, List.mem_append] at mem
    rcases mem with own | later
    · exact (isLower_of_mem_lowered own).1
    · exact ih later

/-- Lower text stays as it is. -/
lemma lowerFrom_eq_self {before cs : List Char} (all : ∀ c ∈ cs, IsLower c) :
    lowerFrom before cs = cs := by
  induction cs generalizing before with
  | nil => rfl
  | cons c rest ih =>
    have first := all c (List.mem_cons_self ..)
    rw [lowerFrom_cons, lowered, if_neg first.notSigma, if_neg first.notDotted, first.lowerChar_eq,
      ih fun x hx => all x (List.mem_cons_of_mem _ hx)]
    rfl

/-- Lower case is lower case already. -/
theorem lower_lower (s : String) : lower (lower s) = lower s := by
  unfold lower
  rw [String.toList_ofList, lowerFrom_eq_self fun c hc => isLower_of_mem_lowerFrom hc]

/-- Lowered text begins with a blank only if the text does. -/
lemma blank_of_head?_lowerFrom {before cs : List Char} {x : Char}
    (mem : x ∈ (lowerFrom before cs).head?) (blank : isBlank x) : ∃ c ∈ cs.head?, isBlank c := by
  cases cs with
  | nil => cases mem
  | cons c rest =>
    refine ⟨c, rfl, ?_⟩
    rw [lowerFrom_cons, List.head?_append] at mem
    cases first : (lowered (meetsCased before && !meetsCased rest) c).head? with
    | none => exact absurd (List.head?_eq_none_iff.1 first) (lowered_ne_nil _ c)
    | some y =>
      rw [first] at mem
      cases mem
      exact (isLower_of_mem_lowered (List.mem_of_mem_head? first)).2 blank

/-- The last character of a text in lower case comes from the last one. -/
lemma blank_of_getLast?_lowerFrom {before cs : List Char} {x : Char}
    (mem : x ∈ (lowerFrom before cs).getLast?) (blank : isBlank x) :
    ∃ c ∈ cs.getLast?, isBlank c := by
  induction cs generalizing before with
  | nil => cases mem
  | cons c rest ih =>
    rw [lowerFrom_cons, List.getLast?_append] at mem
    cases last : (lowerFrom (c :: before) rest).getLast? with
    | some y =>
      rw [last] at mem
      cases mem
      obtain ⟨d, hd, blank'⟩ := ih last
      exact ⟨d, by rw [List.getLast?_cons, hd]; rfl, blank'⟩
    | none =>
      rw [last] at mem
      have own := (isLower_of_mem_lowered (List.mem_of_getLast? mem)).2 blank
      rw [lowerFrom_eq_nil (List.getLast?_eq_none_iff.1 last)]
      exact ⟨c, rfl, own⟩

/-- Bare text is bare when it is lowered. -/
lemma Bare.lowerFrom {cs : List Char} (bare : Bare isBlank cs) (before : List Char) :
    Bare isBlank (lowerFrom before cs) := by
  constructor
  · intro x mem blank
    obtain ⟨c, hc, blank'⟩ := blank_of_head?_lowerFrom mem blank
    exact bare.first c hc blank'
  · intro x mem blank
    obtain ⟨c, hc, blank'⟩ := blank_of_getLast?_lowerFrom mem blank
    exact bare.last c hc blank'

/-- Trimmed text that is lowered needs no more trimming. -/
lemma trimmed_lower_trimmed (s : String) : trimmed (lower (trimmed s)) = lower (trimmed s) := by
  have bare := (bare_trimBy isBlank s.toList).lowerFrom []
  rw [trimmed, lower, trimmed, String.toList_ofList, String.toList_ofList, trim, trim,
    bare.trimBy_eq]

end OperatorNet.Text
