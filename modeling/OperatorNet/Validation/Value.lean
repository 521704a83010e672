import OperatorNet.Validation.Check
import OperatorNet.Validation.Number
import OperatorNet.Word

/-!
# Values of declared forms

Texts are taken as they are. Numbers and truth values may also be given by texts that read as such,
and by each other where nothing is lost. Lists, mappings and records check their parts.
-/

namespace OperatorNet.Check

open OperatorNet.Text OperatorNet.Decimal

/-- The fields of a mapping. -/
abbrev Fields := List (String × Data Float)

/-- A text. -/
def text : Data Float → Check String
  | .text s => accepted s
  | _ => flawed .notText

/-- The double nearest to a whole number, which is infinite for a number beyond all doubles. -/
def floatOfInt (n : Int) : Float :=
  nearest (decide (n < 0)) n.natAbs 0

/-- A real number. -/
def number : Data Float → Check Float
  | .int n => if (floatOfInt n).isFinite then accepted (floatOfInt n) else flawed .notNumber
  | .bool b => accepted (if b then 1.0 else 0.0)
  | .real x => accepted x
  | .text s =>
    match readReal? s with
    | some x => accepted x
    | none => flawed .unreadableNumber
  | _ => flawed .notNumber

/-- The whole number that a double is, if it is one. -/
def wholeOfFloat? (x : Float) : Option Int :=
  match Binary.ofFloat? x with
  | some b =>
    if b.numerator % b.denominator = 0 then
      let size := b.numerator / b.denominator
      some (if b.negative then -size else size)
    else none
  | none => none

/-- Whether a double stands for a word; the least word does not count. -/
def isWholeWord (n : Int) : Bool :=
  Word.fits n && n ≠ Word.least.toInt

/-- A whole number. -/
def whole : Data Float → Check Int
  | .int n => accepted n
  | .bool b => accepted (if b then 1 else 0)
  | .real x =>
    if !x.isFinite then flawed .infiniteWhole
    else match wholeOfFloat? x with
      | some n => if isWholeWord n then accepted n else flawed .oversizedWhole
      | none => flawed .fractional
  | .text s =>
    match readWhole s with
    | .number n => accepted n
    | .tooLong => flawed .oversizedWhole
    | .unreadable => flawed .unreadableWhole
  | _ => flawed .notWhole

/-- Texts that stand for truth. -/
def truthWords : List String :=
  ["1", "on", "t", "true", "y", "yes"]

/-- Texts that stand for falsehood. -/
def falseWords : List String :=
  ["0", "off", "f", "false", "n", "no"]

/-- A truth value. -/
def truth : Data Float → Check Bool
  | .bool b => accepted b
  | .int n =>
    if n = 1 then accepted true
    else if n = 0 then accepted false
    else flawed (if Word.fits n then .unreadableTruth else .notTruth)
  | .real x =>
    if x == 1.0 then accepted true
    else if x == 0.0 then accepted false
    else flawed (if ((wholeOfFloat? x).map isWholeWord).getD false then .unreadableTruth
      else .notTruth)
  | .text s =>
    let w := String.ofList (s.toList.map Char.toLower)
    if truthWords.contains w then accepted true
    else if falseWords.contains w then accepted false
    else flawed .unreadableTruth
  | _ => flawed .notTruth

/-- A value that may be absent or null. -/
def optional {β : Type} (inner : Data Float → Check β) : Data Float → Check (Option β)
  | .null => accepted none
  | d => (inner d).map some

/-- A list whose items have a declared form. -/
def list {β : Type} (item : Data Float → Check β) : Data Float → Check (List β)
  | .list items => all (items.mapIdx fun i d => (item d).under (toString i))
  | _ => flawed .notList

/-- A mapping whose values have a declared form. -/
def mapping {β : Type} (value : Data Float → Check β) : Data Float → Check (List (String × β))
  | .mapping fields => all (fields.map fun p => ((value p.2).under p.1).map fun b => (p.1, b))
  | _ => flawed .notMapping

/-- Any value. -/
def anything (d : Data Float) : Check (Data Float) :=
  accepted d

/-- The first of several names of a field that is in use. -/
def usedName? (fields : Fields) (names : List String) : Option String :=
  names.find? fun n => (fetch n fields).isSome

/-- A field with several names, the first of which is reported when the field is missing. -/
def field {β : Type} (fields : Fields) (names : List String) (read : Data Float → Check β)
    (absent : Option β) : Check β :=
  match usedName? fields names with
  | some n => (read ((fetch n fields).getD .null)).under n
  | none =>
    match absent with
    | some b => accepted b
    | none => (flawed .missing).under (names.headD "")

/-- A field that must be there. -/
def required {β : Type} (fields : Fields) (name : String) (read : Data Float → Check β) : Check β :=
  field fields [name] read none

/-- A field with a default. -/
def withDefault {β : Type} (fields : Fields) (name : String) (read : Data Float → Check β)
    (absent : β) : Check β :=
  field fields [name] read (some absent)

/-- Refuses every key that is no name of a field in use. -/
def noOthers (fields : Fields) (names : List (List String)) : Check Unit :=
  let used := names.filterMap (usedName? fields)
  (all ((fields.filter fun p => !used.contains p.1).map fun p =>
    (flawed .unknownKey : Check Unit).under p.1)).map fun _ => ()

/-- A record with a given name. -/
def record {β : Type} (name : String) (read : Fields → Check β) : Data Float → Check β
  | .mapping fields => read fields
  | _ => flawed (.notRecord name)

end OperatorNet.Check
