import OperatorNet.Decimal.Read

/-!
# Numbers given as texts

A declaration may give a number as a text. A whole number is written as JSON writes it, or becomes
so when white space, a plus sign, leading zeros, a fraction of zeros and grouping underscores are
taken away. A real number is an ASCII numeral, with underscores only as a last resort.
-/

namespace OperatorNet

open OperatorNet.Text

/-- What a text says as a whole number. -/
inductive WholeText where
  | number (n : Int)
  /-- More characters than a whole number may have. -/
  | tooLong
  | unreadable
  deriving DecidableEq

/-- The most characters of a whole number, its sign included. -/
def longestWhole : Nat :=
  4300

/-- A digit that may begin a whole number of several digits. -/
def isLeadingDigit (c : Char) : Bool :=
  '1' ≤ c && c ≤ '9'

/-- Reads a whole number as JSON writes it: a minus sign or none, and no zero in front. -/
def readCanonical (cs : List Char) : WholeText :=
  let negative := cs.head? = some '-'
  let body := if negative then cs.drop 1 else cs
  let digits := body.takeWhile Char.isDigit
  if body = ['0'] then .number 0
  else if !isLeadingDigit (body.headD ' ') then .unreadable
  else if longestWhole < digits.length + if negative then 1 else 0 then .tooLong
  else if digits.length < body.length then .unreadable
  else match natOfDigits? digits with
    | some n => .number (if negative then -n else n)
    | none => .unreadable

/-- What is left of a number behind leading zeros, the last of which is `zero`; underscores count as
zeros here. -/
def behindZeros (zero : Char) : List Char → Option (List Char)
  | [] => some [zero]
  | c :: rest =>
    if c = '0' || c = '_' then behindZeros c rest
    else if c = '-' || isLeadingDigit c then some (c :: rest)
    else if c = '.' then some (zero :: c :: rest)
    else none

/-- A number without leading zeros; a text that begins in no way a number begins is refused. -/
def dropZeros : List Char → Option (List Char)
  | [] => none
  | c :: rest =>
    if c = '0' then behindZeros c rest
    else if c = '-' || isLeadingDigit c then some (c :: rest)
    else none

/-- A number without a fraction of zeros. -/
def dropZeroFraction (cs : List Char) : List Char :=
  let zeros := (cs.dropWhile (· ≠ '.')).drop 1
  if !zeros.isEmpty && zeros.all (· = '0') then cs.takeWhile (· ≠ '.') else cs

/-- A number without its underscores, none of which may stand at an end or beside another one. -/
def ungrouped? (cs : List Char) : Option (List Char) :=
  if cs.head? = some '_' || cs.getLast? = some '_' || (cs.zip (cs.drop 1)).contains ('_', '_') then
    none
  else some (cs.filter (· ≠ '_'))

/-- A number without a sign and without all that JSON would not write. A sign is allowed only
behind leading zeros. -/
def cleanWhole? (cs : List Char) : Option (List Char) := do
  let kept := dropZeroFraction (← dropZeros cs)
  return (ungrouped? kept).getD kept

/-- The number on the other side of zero. -/
def WholeText.negated : WholeText → WholeText
  | number n => number (-n)
  | other => other

/-- Reads a whole number that JSON would not write in this way. -/
def readLoose (cs : List Char) : WholeText :=
  let read := fun (body : List Char) => ((cleanWhole? body).map readCanonical).getD .unreadable
  match trimBy isWhite cs with
  | '+' :: '-' :: _ | '-' :: '-' :: _ => .unreadable
  | '+' :: body => read body
  | '-' :: body => if body.contains '-' then .unreadable else (read body).negated
  | body => read body

/-- Reads a whole number. -/
def readWhole (s : String) : WholeText :=
  match readCanonical s.toList with
  | .unreadable => readLoose s.toList
  | known => known

/-- Reads a numeral that is written with ASCII characters and without underscores. -/
def readNumeral? (cs : List Char) : Option Float :=
  if cs.all fun c => c.toNat < 0x80 && c ≠ '_' then Decimal.readPlain? cs else none

/-- Reads a real number. -/
def readReal? (s : String) : Option Float :=
  readNumeral? (trimBy isWhite s.toList) <|> (ungrouped? s.toList).bind readNumeral?

end OperatorNet
