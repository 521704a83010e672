/-!
# Tokens of JSON text

A JSON text is cut into brackets, separators, quoted texts and bare words (numbers and the three
names). The cutter is a machine that takes one character at a time, so its run is a fold.
-/

namespace OperatorNet.Json

/-- A piece of JSON text. -/
inductive Token where
  | openList
  | closeList
  | openMapping
  | closeMapping
  | comma
  | colon
  | quoted (s : String)
  | word (cs : List Char)
  deriving DecidableEq

/-- Joins a high and a low half of a code point that follow each other. -/
def joinHalves : List Nat → List Nat
  | hi :: lo :: rest =>
    if 0xd800 ≤ hi ∧ hi < 0xdc00 ∧ 0xdc00 ≤ lo ∧ lo < 0xe000 then
      (0x10000 + (hi - 0xd800) * 0x400 + (lo - 0xdc00)) :: joinHalves rest
    else hi :: joinHalves (lo :: rest)
  | short => short

/-- The string of code units in reverse order. -/
def stringOfUnits (units : List Nat) : String :=
  String.ofList ((joinHalves units.reverse).map Char.ofNat)

/-- Where the cutter stands; pieces in progress are held in reverse. -/
inductive Mode where
  | between
  | inWord (cs : List Char)
  | inText (units : List Nat)
  | escaped (units : List Nat)
  | hex (units : List Nat) (left value : Nat)
  deriving DecidableEq

/-- The token of a single punctuation mark. -/
def mark? : Char → Option Token
  | '[' => some .openList
  | ']' => some .closeList
  | '{' => some .openMapping
  | '}' => some .closeMapping
  | ',' => some .comma
  | ':' => some .colon
  | _ => none

/-- The character that a one-letter escape stands for. -/
def escape? : Char → Option Char
  | 'n' => some '\n'
  | 't' => some '\t'
  | 'r' => some '\r'
  | 'b' => some '\x08'
  | 'f' => some '\x0c'
  | '"' => some '"'
  | '\\' => some '\\'
  | '/' => some '/'
  | _ => none

/-- The value of a hexadecimal digit. -/
def hexValue? (c : Char) : Option Nat :=
  if '0' ≤ c ∧ c ≤ '9' then some (c.toNat - 48)
  else if 'a' ≤ c ∧ c ≤ 'f' then some (c.toNat - 87)
  else if 'A' ≤ c ∧ c ≤ 'F' then some (c.toNat - 55)
  else none

/-- The blanks of JSON text. -/
def isSpace (c : Char) : Bool :=
  c = ' ' || c = '\n' || c = '\t' || c = '\r'

/-- The cutter: a mode and the tokens found so far in reverse. -/
structure Cutter where
  mode : Mode
  found : List Token

/-- Takes one character between tokens. -/
def Cutter.start (found : List Token) (c : Char) : Cutter :=
  if isSpace c then ⟨.between, found⟩
  else match mark? c with
    | some t => ⟨.between, t :: found⟩
    | none => if c = '"' then ⟨.inText [], found⟩ else ⟨.inWord [c], found⟩

/-- Takes one character. -/
def Cutter.step (s : Cutter) (c : Char) : Option Cutter :=
  match s.mode with
  | .between => some (.start s.found c)
  | .inWord cs =>
    if isSpace c || (mark? c).isSome || c = '"' then
      some (.start (.word cs.reverse :: s.found) c)
    else some { s with mode := .inWord (c :: cs) }
  | .inText units =>
    if c = '"' then some ⟨.between, .quoted (stringOfUnits units) :: s.found⟩
    else if c = '\\' then some { s with mode := .escaped units }
    else some { s with mode := .inText (c.toNat :: units) }
  | .escaped units =>
    if c = 'u' then some { s with mode := .hex units 4 0 }
    else (escape? c).map fun e => { s with mode := .inText (e.toNat :: units) }
  | .hex units left value =>
    (hexValue? c).map fun d =>
      let value := 16 * value + d
      if left ≤ 1 then { s with mode := .inText (value :: units) }
      else { s with mode := .hex units (left - 1) value }

/-- The tokens of a text, unless a quoted text is broken or not closed. -/
def tokens? (cs : List Char) : Option (List Token) := do
  let s ← cs.foldlM Cutter.step ⟨.between, []⟩
  match s.mode with
  | .between => return s.found.reverse
  | .inWord w => return (Token.word w.reverse :: s.found).reverse
  | _ => none

end OperatorNet.Json
