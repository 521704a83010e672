/-!
# Words

Whole numbers that fit 64 bits with a sign. Arithmetic on words keeps the lower 64 bits of its
result: `wrap` is what is kept of a whole number. It always fits (`fits_wrap`).
-/

namespace OperatorNet

/-- The magnitude of the least word, which is one more than that of the greatest. -/
def wordBound : Nat :=
  Nat.pow 2 63

/-- A whole number of 64 bits. -/
structure Word where
  toInt : Int
  lower : -(wordBound : Int) ≤ toInt
  upper : toInt < wordBound
  deriving DecidableEq

namespace Word

/-- Whether a whole number fits a word. -/
def fits (n : Int) : Bool :=
  -(wordBound : Int) ≤ n && n < (wordBound : Int)

/-- A whole number fits a word when it is within the bounds. -/
theorem fits_iff {n : Int} : fits n = true ↔ -(wordBound : Int) ≤ n ∧ n < wordBound := by
  rw [fits, Bool.and_eq_true, decide_eq_true_iff, decide_eq_true_iff]

/-- The whole number in bounds with the same lower 64 bits. -/
def wrap (n : Int) : Int :=
  n.bmod (2 * wordBound)

/-- What is kept of a whole number fits a word. -/
theorem fits_wrap (n : Int) : fits (wrap n) = true := by
  have h : 0 < 2 * wordBound := by decide
  have low := Int.le_bmod (x := n) h
  have high := Int.bmod_lt (x := n) h
  rw [Int.natCast_mul] at low high
  exact fits_iff.2 ⟨by unfold wrap; omega, by unfold wrap; omega⟩

/-- The word with the lower 64 bits of a whole number. -/
def ofInt (n : Int) : Word :=
  ⟨wrap n, (fits_iff.1 (fits_wrap n)).1, (fits_iff.1 (fits_wrap n)).2⟩

/-- The word that a whole number is, if it fits. -/
def ofInt? (n : Int) : Option Word :=
  if fits n then some (ofInt n) else none

/-- The least word. -/
def least : Word :=
  ofInt (-(wordBound : Int))

instance : Zero Word := ⟨ofInt 0⟩
instance : Add Word := ⟨fun a b => ofInt (a.toInt + b.toInt)⟩
instance : Sub Word := ⟨fun a b => ofInt (a.toInt - b.toInt)⟩
instance : Mul Word := ⟨fun a b => ofInt (a.toInt * b.toInt)⟩

/-- The magnitude of a word; that of the least one is itself. -/
def magnitude (a : Word) : Word :=
  if a.toInt < 0 then ofInt (-a.toInt) else a

/-- Whether the second of two words is the larger one. -/
def less (a b : Word) : Bool :=
  a.toInt < b.toInt

/-- The larger of two words. -/
def larger (a b : Word) : Word :=
  if less a b then b else a

end Word

end OperatorNet
