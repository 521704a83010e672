/-!
# Classes of characters

A property of characters is tabulated as a list of closed intervals of code points, in increasing
order. The one question asked of such a table is membership.

Blanks are the characters of Unicode white space around a number, and the four ASCII separators as
well around any other text; `trimBy` cuts a class of characters from both ends and leaves the inside
alone. A decimal digit of any script stands for one of the numbers 0 to 9; each script has its ten
digits in a row, so the table lists the zeros. Other digit characters, such as superscripts, look
like digits but are not used positionally: they are digits without a decimal value.
-/

namespace OperatorNet.Text

/-- A table of closed intervals of code points. -/
abbrev Intervals := List (Nat × Nat)

/-- `t.holds c` says that the code point of `c` lies in one of the intervals. -/
def Intervals.holds (t : Intervals) (c : Char) : Bool :=
  t.any fun i => i.1 ≤ c.toNat && c.toNat ≤ i.2

/-- Membership is membership in some interval. -/
theorem Intervals.holds_iff (t : Intervals) (c : Char) :
    t.holds c = true ↔ ∃ i ∈ t, i.1 ≤ c.toNat ∧ c.toNat ≤ i.2 := by
  simp [Intervals.holds]

/-! ### Blanks -/

/-- Unicode white space. -/
def whiteIntervals : Intervals :=
  [(0x9, 0xd), (0x20, 0x20), (0x85, 0x85), (0xa0, 0xa0), (0x1680, 0x1680), (0x2000, 0x200a),
   (0x2028, 0x2029), (0x202f, 0x202f), (0x205f, 0x205f), (0x3000, 0x3000)]

/-- A white space character. -/
def isWhite (c : Char) : Bool :=
  whiteIntervals.holds c

/-- A character that trimming removes: white space, or one of the separators `0x1c` to `0x1f`. -/
def isBlank (c : Char) : Bool :=
  isWhite c || (0x1c ≤ c.toNat && c.toNat ≤ 0x1f)

/-- The text without the characters of a class at its two ends. -/
def trimBy (drops : Char → Bool) (cs : List Char) : List Char :=
  (((cs.dropWhile drops).reverse).dropWhile drops).reverse

/-- The text without the blanks at its two ends. -/
def trim (cs : List Char) : List Char :=
  trimBy isBlank cs

/-- The text of a string without the blanks at its two ends. -/
def trimmed (s : String) : String :=
  String.ofList (trim s.toList)

/-- White space is blank. -/
theorem isBlank_of_isWhite (c : Char) (h : isWhite c = true) : isBlank c = true := by
  simp [isBlank, h]

/-! ### Digits -/

/-- The code points of the digit zero of every script. -/
def decimalZeros : List Nat :=
  [0x30, 0x660, 0x6f0, 0x7c0, 0x966, 0x9e6, 0xa66, 0xae6, 0xb66, 0xbe6, 0xc66, 0xce6, 0xd66,
   0xde6, 0xe50, 0xed0, 0xf20, 0x1040, 0x1090, 0x17e0, 0x1810, 0x1946, 0x19d0, 0x1a80, 0x1a90,
   0x1b50, 0x1bb0, 0x1c40, 0x1c50, 0xa620, 0xa8d0, 0xa900, 0xa9d0, 0xa9f0, 0xaa50, 0xabf0,
   0xff10, 0x104a0, 0x10d30, 0x11066, 0x110f0, 0x11136, 0x111d0, 0x112f0, 0x11450, 0x114d0,
   0x11650, 0x116c0, 0x11730, 0x118e0, 0x11950, 0x11c50, 0x11d50, 0x11da0, 0x16a60, 0x16ac0,
   0x16b50, 0x1d7ce, 0x1d7d8, 0x1d7e2, 0x1d7ec, 0x1d7f6, 0x1e140, 0x1e2f0, 0x1e950, 0x1fbf0]

/-- Digit characters without positional use: superscripts, subscripts, circled digits. -/
def plainDigitIntervals : Intervals :=
  [(0xb2, 0xb3), (0xb9, 0xb9), (0x1369, 0x1371), (0x19da, 0x19da), (0x2070, 0x2070),
   (0x2074, 0x2079), (0x2080, 0x2089), (0x2460, 0x2468), (0x2474, 0x247c), (0x2488, 0x2490),
   (0x24ea, 0x24ea), (0x24f5, 0x24fd), (0x24ff, 0x24ff), (0x2776, 0x277e), (0x2780, 0x2788),
   (0x278a, 0x2792), (0x10a40, 0x10a43), (0x10e60, 0x10e68), (0x11052, 0x1105a),
   (0x1f100, 0x1f10a)]

/-- The number from 0 to 9 that a decimal digit of any script stands for. -/
def decimalValue? (c : Char) : Option Nat :=
  (decimalZeros.find? fun z => z ≤ c.toNat && c.toNat < z + 10).map (c.toNat - ·)

/-- A digit of any kind, positional or not. -/
def isDigit (c : Char) : Bool :=
  (decimalValue? c).isSome || plainDigitIntervals.holds c

/-- The number written by a row of decimal digits, most significant first. -/
def natOfDigits? (cs : List Char) : Option Nat :=
  cs.foldl (fun acc c => do return 10 * (← acc) + (← decimalValue? c)) (some 0)

/-- The most digits of a whole number in a text. -/
def longestNumeral : Nat :=
  4300

/-- The least number that has more digits than that, as a power of a power, which is quick to
compute. -/
def unwritable : Nat :=
  Nat.pow (Nat.pow 10 100) (longestNumeral / 100)

/-- The wording for a whole number with more digits than that, where `count` says how many. -/
def tooManyDigits (count : Option Nat) : String :=
  "Exceeds the limit (4300 digits) for integer string conversion"
    ++ ((count.map fun n => ": value has " ++ toString n ++ " digits").getD "")
    ++ "; use sys.set_int_max_str_digits() to increase the limit"

end OperatorNet.Text
