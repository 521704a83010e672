import OperatorNet.Data.Key
import OperatorNet.Decimal.Read

/-!
# Settings written in blocks

A settings text has one entry per line, `key: value`, and nests by indentation. Lists are written
line by line behind dashes, or between brackets. A number sign at the start of a line or behind a
gap begins a comment. Keys are read the way single values are, so a key need not be a text. Only
spaces and tabs are gaps; all other blanks belong to the values.
-/

namespace OperatorNet.Block

open OperatorNet.Text

/-- A line that holds something: its indentation and its text. -/
structure Line where
  indent : Nat
  text : List Char

/-- A character between values. -/
def isGap (c : Char) : Bool :=
  c = ' ' || c = '\t'

/-- A character that ends a line. -/
def isLineEnd (c : Char) : Bool :=
  c = '\n' || c = '\r' || c = '\u0085' || c = '\u2028' || c = '\u2029'

/-- The text without the gaps at its two ends. -/
def trim (cs : List Char) : List Char :=
  trimBy isGap cs

/-- The text without a mark of its encoding in front. -/
def dropMark : List Char → List Char
  | '\ufeff' :: rest => rest
  | cs => cs

/-- The text of a line up to a comment, where `previous` is the character before it. -/
def dropComment (previous : Char) : List Char → List Char
  | [] => []
  | c :: rest => if c = '#' ∧ isGap previous then [] else c :: dropComment c rest

/-- The lines of a text. -/
def splitLines : List Char → List (List Char)
  | [] => [[]]
  | c :: rest =>
    if isLineEnd c then [] :: splitLines rest
    else match splitLines rest with
      | line :: lines => (c :: line) :: lines
      | [] => [[c]]

/-- The lines that hold something. -/
def lines (s : String) : List Line :=
  ((splitLines (dropMark s.toList)).map fun cs =>
    let kept := dropComment ' ' cs
    ⟨(kept.takeWhile (· = ' ')).length, trim kept⟩).filter fun l =>
      !l.text.isEmpty && l.text ≠ ['-', '-', '-']

/-- The parts between commas. -/
def splitCommas : List Char → List (List Char)
  | [] => [[]]
  | c :: rest =>
    if c = ',' then [] :: splitCommas rest
    else match splitCommas rest with
      | part :: parts => (c :: part) :: parts
      | [] => [[c]]

/-- Digits and underscores that group them. -/
def isGrouped (cs : List Char) : Bool :=
  cs.all fun c => c.isDigit || c = '_'

/-- Digits, possibly grouped by underscores behind the first one. -/
def isNumeral (cs : List Char) : Bool :=
  (cs.headD ' ').isDigit && isGrouped cs

/-- Whether a text is written like a real number: with a point, with a sign only before a digit, and
with a sign in the power of ten if there is one. -/
def isRealNumeral (cs : List Char) : Bool :=
  let body := (Decimal.splitSign cs).2
  let (whole, fraction, power) := Decimal.splitParts body
  body.contains '.'
    && (if whole.isEmpty then body = cs && isNumeral fraction
      else isNumeral whole && isGrouped fraction)
    && match power with
      | none => true
      | some p =>
        (p.headD ' ' = '-' || p.headD ' ' = '+') && !(p.drop 1).isEmpty
          && (p.drop 1).all Char.isDigit

/-- The whole number that digits stand for in a base, if all of them are below the base. -/
def wholeInBase? (base : Nat) (cs : List Char) : Option Nat :=
  let digits := (cs.filter (· ≠ '_')).map fun c =>
    if c.isDigit then c.toNat - '0'.toNat else (c.toLower.toNat + 10) - 'a'.toNat
  let written := cs.all fun c => c = '_' || c.isDigit || ('a' ≤ c.toLower && c.toLower ≤ 'f')
  if written && !digits.isEmpty && digits.all (· < base) then
    some (digits.foldl (fun acc d => base * acc + d) 0)
  else none

/-- The parts between colons. -/
def splitColons (cs : List Char) : List (List Char) :=
  cs.foldr (fun c parts =>
    match c, parts with
    | ':', _ => [] :: parts
    | c, part :: rest => (c :: part) :: rest
    | c, [] => [[c]]) [[]]

/-- Whether a text is a number of minutes or seconds below sixty. -/
def isSixtieth (cs : List Char) : Bool :=
  cs.all Char.isDigit && (cs.length = 1 || (cs.length = 2 && cs.headD ' ' ≤ '5'))

/-- The whole number of parts in base sixty: a numeral with no leading zero, and parts below
sixty. -/
def sixties? (cs : List Char) : Option Nat :=
  match splitColons cs with
  | first :: part :: rest =>
    if isNumeral first && first.head? ≠ some '0' && (part :: rest).all isSixtieth then
      (part :: rest).foldl (fun acc p => do return 60 * (← acc) + (← wholeInBase? 10 p))
        (wholeInBase? 10 first)
    else none
  | _ => none

/-- The whole number that a text without a sign is written like: behind a leading zero the digits
are octal, or binary or hexadecimal behind a letter that says so. -/
def unsignedNumeral? (body : List Char) : Option Nat :=
  match body with
  | '0' :: 'b' :: digits => wholeInBase? 2 digits
  | '0' :: 'x' :: digits => wholeInBase? 16 digits
  | _ =>
    if isNumeral body then wholeInBase? (if body.head? = some '0' then 8 else 10) body
    else sixties? body

/-- The whole number that a text is written like. -/
def wholeNumeral? (cs : List Char) : Option Int :=
  let (negative, body) := Decimal.splitSign cs
  (unsignedNumeral? body).map fun n => if negative then -(n : Int) else n

/-- The real number of parts in base sixty, the last of which has a point. -/
def realSixties? (cs : List Char) : Option Float := do
  let (negative, body) := Decimal.splitSign cs
  let parts := splitColons body
  let first ← parts.head?
  let last ← parts.getLast?
  let minutes := (parts.drop 1).dropLast
  let (whole, point) := (last.takeWhile (· ≠ '.'), last.dropWhile (· ≠ '.'))
  if parts.length ≤ 1 || !isNumeral first || !minutes.all isSixtieth || !isSixtieth whole
    || point.isEmpty || !isGrouped (point.drop 1) then none
  let numbers ← parts.mapM fun p => Decimal.readPlain? (p.filter (· ≠ '_'))
  let (total, _) := numbers.reverse.foldl (fun (acc : Float × Float) x =>
    (acc.1 + x * acc.2, acc.2 * 60.0)) (0.0, 1.0)
  return if negative then -total else total

/-- The words for numbers that are not finite. -/
def wordNumeral? : String → Option Float
  | ".inf" | ".Inf" | ".INF" | "+.inf" | "+.Inf" | "+.INF" => some (1.0 / 0.0)
  | "-.inf" | "-.Inf" | "-.INF" => some (-(1.0 / 0.0))
  | ".nan" | ".NaN" | ".NAN" => some (0.0 / 0.0)
  | _ => none

/-- A text without its outer quotes, if it has any. -/
def unquote (cs : List Char) : Option String :=
  match cs with
  | q :: rest =>
    if (q = '"' || q = '\'') && rest.getLast? = some q then some (String.ofList rest.dropLast)
    else none
  | [] => none

/-- A single value. -/
def scalar (cs : List Char) : Data Float :=
  let s := String.ofList cs
  if ["", "~", "null", "Null", "NULL"].contains s then .null
  else if ["true", "True", "TRUE", "yes", "Yes", "YES", "on", "On", "ON"].contains s then .bool true
  else if ["false", "False", "FALSE", "no", "No", "NO", "off", "Off", "OFF"].contains s then
    .bool false
  else
    match wholeNumeral? cs, wordNumeral? s with
    | some n, _ => .int n
    | none, some x => .real x
    | none, none =>
      let real := if isRealNumeral cs then
        Decimal.readNumber? (String.ofList (cs.filter (· ≠ '_'))) else none
      match real <|> realSixties? cs with
      | some x => .real x
      | none => .text ((unquote cs).getD s)

/-- What a settings text or a part of it holds; keys are single values. -/
inductive Node where
  | value (d : Data Float)
  | list (items : List Node)
  | mapping (fields : List (Data Float × Node))

namespace Node

mutual

/-- The document of a node; keys are turned into texts. -/
def toData : Node → Data Float
  | value d => d
  | list items => .list (itemsData items)
  | mapping fields => .mapping (fieldsData fields)

/-- The documents of several nodes. -/
def itemsData : List Node → List (Data Float)
  | [] => []
  | n :: rest => toData n :: itemsData rest

/-- The documents of several fields. -/
def fieldsData : List (Data Float × Node) → List (String × Data Float)
  | [] => []
  | (key, n) :: rest => (key.shown, toData n) :: fieldsData rest

end

end Node

/-- The trimmed items between commas; nothing need come behind the last comma. -/
def itemsOf (cs : List Char) : List (List Char) :=
  let parts := (splitCommas cs).map trim
  if parts.getLast? = some [] then parts.dropLast else parts

/-- A value on one line: a list between brackets, an empty mapping, or a single value. -/
def inline (cs : List Char) : Node :=
  if cs.head? = some '[' ∧ cs.getLast? = some ']' then
    .list ((itemsOf (cs.drop 1).dropLast).map fun p => .value (scalar p))
  else if cs.head? = some '{' ∧ cs.getLast? = some '}' then .mapping []
  else .value (scalar cs)

/-- Splits a line at the colon behind its key. -/
def splitKey : List Char → Option (List Char × List Char)
  | [] => none
  | ':' :: [] => some ([], [])
  | c :: rest =>
    if c = ':' ∧ (rest.headD ' ') = ' ' then some ([], trim rest)
    else (splitKey rest).map fun p => (c :: p.1, p.2)

/-- Whether a line is an item of a list. -/
def Line.isItem (l : Line) : Bool :=
  l.text = ['-'] || l.text.take 2 = ['-', ' ']

/-- Whether a line belongs to the entry that the line `l` begins. -/
def belongs (l next : Line) : Bool :=
  l.indent < next.indent || (l.indent = next.indent && next.isItem && !l.isItem)

/-- What comes of the entries of a block, from left to right. -/
inductive Entries where
  | none
  | items (ns : List Node)
  | fields (fs : List (Data Float × Node))

/-- The node of entries. -/
def Entries.toNode : Entries → Node
  | .none => .value .null
  | .items ns => .list ns
  | .fields fs => .mapping fs

/-- Adds an item at the front. -/
def Entries.consItem (n : Node) : Entries → Entries
  | .items ns => .items (n :: ns)
  | _ => .items [n]

/-- Adds a field at the front; a later field with the same key gives its value. -/
def Entries.consField (key : Data Float) (n : Node) : Entries → Entries
  | .fields fs => .fields ((key, (Keyed.get? fs key).getD n) :: Keyed.erase fs key)
  | _ => .fields [(key, n)]

/-- Reads the entries of a block. -/
def entries : List Line → Entries
  | [] => .none
  | l :: rest =>
    let inner := rest.takeWhile (belongs l)
    let after := entries (rest.dropWhile (belongs l))
    let nested := if inner.isEmpty then .value .null else (entries inner).toNode
    if l.isItem then
      let d := trim (l.text.drop 1)
      after.consItem (if d.isEmpty then nested else inline d)
    else
      match splitKey l.text with
      | some (key, []) => after.consField (scalar (trim key)) nested
      | some (key, value) => after.consField (scalar (trim key)) (inline value)
      | none => after
termination_by ls => ls.length
decreasing_by
  · exact Nat.lt_succ_of_le (List.dropWhile_sublist _).length_le
  · exact Nat.lt_succ_of_le (List.takeWhile_sublist _).length_le

/-- What a settings text holds; a single line may also be a value without a key. -/
def read (s : String) : Node :=
  match lines s with
  | [l] => if l.isItem || (splitKey l.text).isSome then (entries [l]).toNode else inline l.text
  | ls => (entries ls).toNode

end OperatorNet.Block
