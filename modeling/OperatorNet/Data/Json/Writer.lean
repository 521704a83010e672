import OperatorNet.Data.Basic
import OperatorNet.Decimal.Shortest
import OperatorNet.Sorting
import OperatorNet.Text.Quoted

/-!
# Writing JSON text

The canonical text of a document: ASCII only, one blank after a comma and after a colon, and the
keys of every mapping in code point order. Equal contents give equal texts.
-/

namespace OperatorNet.Json

/-- The escape of one 16-bit unit. -/
def unitEscape (n : Nat) : List Char :=
  '\\' :: 'u' :: Text.hexPadded 4 n

/-- One character of a quoted text. -/
def writeChar (c : Char) : List Char :=
  if c = '"' then ['\\', '"']
  else if c = '\\' then ['\\', '\\']
  else if c = '\n' then ['\\', 'n']
  else if c = '\r' then ['\\', 'r']
  else if c = '\t' then ['\\', 't']
  else if c = '\x08' then ['\\', 'b']
  else if c = '\x0c' then ['\\', 'f']
  else if 0x20 ≤ c.toNat ∧ c.toNat < 0x7f then [c]
  else if c.toNat < 0x10000 then unitEscape c.toNat
  else
    unitEscape (0xd800 + (c.toNat - 0x10000) / 0x400) ++
      unitEscape (0xdc00 + (c.toNat - 0x10000) % 0x400)

/-- A text between double quotes. -/
def writeText (s : String) : String :=
  String.ofList ('"' :: s.toList.flatMap writeChar ++ ['"'])

/-- Numbers in JSON text. -/
def numberStyle : Decimal.Style :=
  { Decimal.plain with infinity := "Infinity", notANumber := "NaN" }

/-- Entries in code point order of their keys. -/
def sortKeys {ν : Type} (entries : List (String × ν)) : List (String × ν) :=
  sortBy (fun a b => decide (a.1 < b.1)) entries

mutual

/-- The canonical text of a document. -/
def write : Data Float → String
  | .null => "null"
  | .bool b => if b then "true" else "false"
  | .int n => toString n
  | .real x => numberStyle.write x
  | .text s => writeText s
  | .list items => "[" ++ ", ".intercalate (writeItems items) ++ "]"
  | .mapping fields =>
    let entries := (sortKeys (writeFields fields)).map fun e => writeText e.1 ++ ": " ++ e.2
    "\x7b" ++ ", ".intercalate entries ++ "\x7d"

/-- The canonical texts of the items of a list. -/
def writeItems : List (Data Float) → List String
  | [] => []
  | d :: rest => write d :: writeItems rest

/-- The keys of a mapping with the canonical texts of their values. -/
def writeFields : List (String × Data Float) → List (String × String)
  | [] => []
  | (key, d) :: rest => (key, write d) :: writeFields rest

end

end OperatorNet.Json
