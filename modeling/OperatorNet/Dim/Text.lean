import OperatorNet.Data.Literal
import OperatorNet.Decimal.Read
import OperatorNet.Dim.Basic

/-!
# Dimension terms

A dimension is written as a number, as a symbol, or as a sum of pieces joined by `+`. Reading trims
the pieces, adds the numbers and counts the symbols, so two writings of one sum give one dimension;
`toTerm` writes the canonical form back.
-/

namespace OperatorNet

/-- Why a term is not a dimension. -/
inductive DimError where
  /-- The value is neither a whole number nor a text. -/
  | notATerm (value : Data Float)
  | negative (n : Int)
  /-- A piece is empty, or neither a number nor a symbol. -/
  | malformed (term : String)
  /-- A piece holds digit characters that are not decimal digits. -/
  | notDecimal (piece : String)
  /-- A piece begins with more digits than a number may have. -/
  | tooManyDigits (count : Nat)
  /-- A sum of numbers with more digits than can be written. -/
  | unwritable

namespace DimError

/-- The wording of an error. -/
def message : DimError → String
  | notATerm value => "Invalid dimension term " ++ value.literal
  | negative n => "Dimension must be non-negative, got " ++ toString n
  | malformed term => "Invalid dimension expression " ++ Text.quoted term
  | notDecimal piece => Decimal.notAnInteger piece
  | tooManyDigits count => Text.tooManyDigits (some count)
  | unwritable => Text.tooManyDigits none

end DimError

/-- A written dimension: a number where that is enough, else a text. -/
inductive Term where
  | number (n : Nat)
  | text (s : String)
  deriving DecidableEq

namespace Term

/-- A term as a document. -/
def toData {α : Type} : Term → Data α
  | number n => .int n
  | text s => .text s

/-- The text of a term. -/
def toText : Term → String
  | number n => toString n
  | text s => s

/-- A term as shown inside a message. -/
def literal : Term → String
  | number n => toString n
  | text s => Text.quoted s

end Term

/-- The pieces between the marks `+`. -/
def splitPlus : List Char → List (List Char)
  | [] => [[]]
  | c :: rest =>
    if c = '+' then [] :: splitPlus rest
    else match splitPlus rest with
      | piece :: pieces => (c :: piece) :: pieces
      | [] => [[c]]

/-- A character that may begin a symbol. -/
def isSymbolStart (c : Char) : Bool :=
  c.isAlpha || c = '_'

/-- A character that may follow in a symbol. -/
def isSymbolRest (c : Char) : Bool :=
  c.isAlphanum || c = '_' || c = '#' || c = '\''

/-- The names that symbols may have. -/
def isSymbolName : List Char → Bool
  | [] => false
  | c :: rest => isSymbolStart c && rest.all isSymbolRest

namespace Dim

/-- Adds one trimmed piece of a sum. -/
def addPiece (term : String) (d : Dim) (piece : List Char) : Except DimError Dim :=
  if piece.all Text.isDigit then
    let digits := Decimal.leadingDigits (String.ofList piece)
    if Text.longestNumeral < digits then .error (.tooManyDigits digits)
    else match Text.natOfDigits? piece with
      | some n => .ok (d.addNat n)
      | none => .error (.notDecimal (String.ofList piece))
  else if isSymbolName piece then
    .ok (d.addSymbol (String.ofList piece) 1 Nat.one_pos)
  else .error (.malformed term)

/-- Reads a sum. -/
def parse (term : String) : Except DimError Dim :=
  let pieces := (splitPlus term.toList).map Text.trim
  if pieces.any (·.isEmpty) then .error (.malformed term)
  else pieces.foldlM (addPiece term) (ofNat 0)

/-- Reads a term given as a document. -/
def ofData : Data Float → Except DimError Dim
  | .int n => if n < 0 then .error (.negative n) else .ok (ofNat n.toNat)
  | .text s => parse s
  | value => .error (.notATerm value)

/-- The pieces of the canonical sum. -/
def pieces (d : Dim) : List String :=
  d.terms.flatMap (fun p => List.replicate p.2 p.1) ++
    if d.const = 0 then [] else [toString d.const]

/-- The canonical writing. -/
def toTerm (d : Dim) : Term :=
  if d.isConcrete then .number d.const
  else .text ("+".intercalate d.pieces)

/-- Whether the canonical writing has no number that is too long to be written. -/
def isWritable (d : Dim) : Bool :=
  d.const < Text.unwritable

/-- Whether there is a canonical writing: a number, or a text that can be written. -/
def hasTerm (d : Dim) : Bool :=
  d.isConcrete || d.isWritable

/-- The dimension, if it has a canonical writing. -/
def written (d : Dim) : Except DimError Dim :=
  if d.hasTerm then .ok d else .error .unwritable

/-- The text of the canonical writing. -/
def toText (d : Dim) : String :=
  d.toTerm.toText

/-- The document of a dimension: what it is made of, how it is written, and what kind it is. -/
def toData {α : Type} (d : Dim) : Data α :=
  .mapping [("coeffs", .list (d.terms.map fun p => .list [.text p.1, .int p.2])),
    ("const", .int d.const), ("term", d.toTerm.toData), ("symbols", .texts d.symbols),
    ("concrete", .bool d.isConcrete), ("symbol", .bool d.symbol?.isSome)]

end Dim

end OperatorNet
