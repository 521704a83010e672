import Mathlib.Data.List.DropRight
import OperatorNet.Dim.Text

/-!
# Characters at the ends and inside of texts

Trimming gives rows without the trimmed characters at their ends, and leaves such rows alone
(`bare_trimBy`, `Bare.trimBy_eq`). The characters of symbols and of decimal numbers are neither
blank nor marks between pieces.
-/

namespace OperatorNet.Text

/-- A row without a dropped character at either end. -/
structure Bare (drops : Char → Bool) (cs : List Char) : Prop where
  first : ∀ c ∈ cs.head?, ¬ drops c
  last : ∀ c ∈ cs.getLast?, ¬ drops c

/-- Trimming drops from the front and from the back. -/
lemma trimBy_eq_rdropWhile (drops : Char → Bool) (cs : List Char) :
    trimBy drops cs = (cs.dropWhile drops).rdropWhile drops :=
  rfl

/-- Trimmed text is bare. -/
lemma bare_trimBy (drops : Char → Bool) (cs : List Char) : Bare drops (trimBy drops cs) := by
  rw [trimBy_eq_rdropWhile]
  constructor
  · intro c mem
    have same : (cs.dropWhile drops).head? = some c := by
      obtain ⟨tail, whole⟩ := List.rdropWhile_prefix drops (l := cs.dropWhile drops)
      rw [← whole, List.head?_append, mem]
      rfl
    have first := List.head?_dropWhile_not drops cs
    rw [same] at first
    exact Bool.eq_false_iff.1 first
  · intro c mem
    obtain ⟨nonempty, rfl⟩ := List.mem_getLast?_eq_getLast mem
    exact List.rdropWhile_last_not drops _ nonempty

/-- Bare text stays as it is when it is trimmed. -/
lemma Bare.trimBy_eq {drops : Char → Bool} {cs : List Char} (bare : Bare drops cs) :
    trimBy drops cs = cs := by
  have front : cs.dropWhile drops = cs := by
    cases cs with
    | nil => rfl
    | cons c rest => exact List.dropWhile_cons_of_neg (bare.first c rfl)
  rw [trimBy_eq_rdropWhile, front, List.rdropWhile_eq_self_iff]
  exact fun nonempty => bare.last _ (List.getLast?_eq_getLast_of_ne_nil nonempty)

/-- Text without anything to drop is bare. -/
lemma bare_of_forall {drops : Char → Bool} {cs : List Char} (all : ∀ c ∈ cs, ¬ drops c) :
    Bare drops cs :=
  ⟨fun c mem => all c (List.mem_of_mem_head? mem), fun c mem => all c (List.mem_of_getLast? mem)⟩

/-- What holds of the first code points holds of the letters, digits and marks among them. -/
lemma of_toNat_lt {P : Char → Prop} {bound : Nat} (all : ∀ n < bound, P (Char.ofNat n)) {c : Char}
    (small : c.toNat < bound) : P c := by
  have known := all c.toNat small
  rwa [Char.ofNat_toNat] at known

/-- Letters and digits have low codes. -/
lemma toNat_lt_of_isAlphanum {c : Char} (alphanum : c.isAlphanum) : c.toNat < 128 := by
  have ranges : (decide (c.val ≥ 65 ∧ c.val ≤ 90) || (c.val ≥ 97 && c.val ≤ 122) ||
      (c.val ≥ 48 && c.val ≤ 57)) = true :=
    alphanum
  simp only [Bool.or_eq_true, Bool.and_eq_true, decide_eq_true_eq, ge_iff_le,
    UInt32.le_iff_toNat_le] at ranges
  have value : c.val.toNat = c.toNat := rfl
  rw [value] at ranges
  rcases ranges with (⟨-, upper⟩ | ⟨-, lower⟩) | ⟨-, digit⟩
  · exact Nat.lt_of_le_of_lt upper (by decide)
  · exact Nat.lt_of_le_of_lt lower (by decide)
  · exact Nat.lt_of_le_of_lt digit (by decide)

/-- The characters of names have low codes. -/
lemma toNat_lt_of_isSymbolRest {c : Char} (rest : isSymbolRest c) : c.toNat < 128 := by
  simp only [isSymbolRest, Bool.or_eq_true, decide_eq_true_eq] at rest
  rcases rest with ((alphanum | rfl) | rfl) | rfl
  · exact toNat_lt_of_isAlphanum alphanum
  all_goals decide

/-- What a name may begin with it may have further on. -/
lemma isSymbolRest_of_isSymbolStart {c : Char} (start : isSymbolStart c) : isSymbolRest c := by
  simp only [isSymbolStart, isSymbolRest, Char.isAlphanum, Bool.or_eq_true] at start ⊢
  rcases start with alpha | underscore
  · exact .inl (.inl (.inl (.inl alpha)))
  · exact .inl (.inl (.inr underscore))

/-- The characters of names are no blanks and no plus signs. -/
lemma plain_of_isSymbolRest {c : Char} (rest : isSymbolRest c) : ¬ isBlank c ∧ c ≠ '+' := by
  have all : ∀ n < 128, isSymbolRest (Char.ofNat n) →
      ¬ isBlank (Char.ofNat n) ∧ Char.ofNat n ≠ '+' := by
    decide +kernel
  exact of_toNat_lt (P := fun c => isSymbolRest c → ¬ isBlank c ∧ c ≠ '+') all
    (toNat_lt_of_isSymbolRest rest) rest

/-- No name begins with a digit. -/
lemma not_isDigit_of_isSymbolStart {c : Char} (start : isSymbolStart c) : ¬ isDigit c := by
  have all : ∀ n < 128, isSymbolStart (Char.ofNat n) → ¬ isDigit (Char.ofNat n) := by
    decide +kernel
  exact of_toNat_lt (P := fun c => isSymbolStart c → ¬ isDigit c) all
    (toNat_lt_of_isSymbolRest (isSymbolRest_of_isSymbolStart start)) start

/-- The digits that numbers are written with stand for their numbers, and are neither blank nor
marks of any kind. -/
lemma plain_of_isDigit {c : Char} (digit : c.isDigit) :
    decimalValue? c = some (c.toNat - '0'.toNat) ∧ ¬ isBlank c ∧ c ≠ '+' ∧ c ≠ '-' ∧ c ≠ '_' := by
  have all : ∀ n < 128, (Char.ofNat n).isDigit →
      decimalValue? (Char.ofNat n) = some ((Char.ofNat n).toNat - '0'.toNat) ∧
        ¬ isBlank (Char.ofNat n) ∧ Char.ofNat n ≠ '+' ∧ Char.ofNat n ≠ '-' ∧
          Char.ofNat n ≠ '_' := by
    decide +kernel
  have alphanum : c.isAlphanum := by
    rw [Char.isAlphanum, digit, Bool.or_true]
  exact of_toNat_lt (P := fun c => c.isDigit → decimalValue? c = some (c.toNat - '0'.toNat) ∧
    ¬ isBlank c ∧ c ≠ '+' ∧ c ≠ '-' ∧ c ≠ '_') all (toNat_lt_of_isAlphanum alphanum) digit

end OperatorNet.Text
