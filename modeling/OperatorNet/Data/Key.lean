import OperatorNet.Data.Literal
import OperatorNet.Scalar

/-!
# Keys

What values are looked up by. Numbers of all forms are the same key when they are equal, and a text
is never the same key as a number. Lists and mappings are no keys.
-/

namespace OperatorNet

/-- A value to look up by. -/
inductive Key where
  | nothing
  | whole (n : Int)
  /-- A real number that is not whole, by its shortest writing. -/
  | fraction (writing : String)
  | text (s : String)
  deriving DecidableEq

namespace Data

/-- The key of a real number. -/
def keyOfReal (x : Float) : Key :=
  let n := truncateFloat x
  if x.isFinite && Scalar.same (Scalar.ofInt n) x then .whole n
  else .fraction (Decimal.plain.write x)

/-- The key that a value is. -/
def key? : Data Float → Option Key
  | .null => some .nothing
  | .bool b => some (.whole (if b then 1 else 0))
  | .int n => some (.whole n)
  | .real x => some (keyOfReal x)
  | .text s => some (.text s)
  | .list _ | .mapping _ => none

/-- The whole number that a value is as a key. -/
def id? (d : Data Float) : Option Int :=
  match d.key? with
  | some (.whole n) => some n
  | _ => none

end Data

/-- The values whose keys have not come before, in their order; none if one of them is no key. -/
def distinctKeys? (values : List (Data Float)) : Option (List (Data Float)) :=
  values.foldlM
    (fun acc d => do
      let k ← d.key?
      return if acc.any (·.key? = some k) then acc else acc ++ [d])
    []

/-- Entries whose keys are kept in the form in which they came first. -/
abbrev Keyed (β : Type) := List (Data Float × β)

namespace Keyed

variable {β : Type}

/-- The value under a key. -/
def get? (entries : Keyed β) (key : Data Float) : Option β :=
  (entries.find? fun p => p.1.key? = key.key?).map Prod.snd

/-- Puts a value under a key; a key that is there already keeps its form and its place. -/
def insert (entries : Keyed β) (key : Data Float) (value : β) : Keyed β :=
  if entries.any fun p => p.1.key? = key.key? then
    entries.map fun p => if p.1.key? = key.key? then (p.1, value) else p
  else entries ++ [(key, value)]

/-- Drops what is under a key. -/
def erase (entries : Keyed β) (key : Data Float) : Keyed β :=
  entries.filter fun p => p.1.key? ≠ key.key?

/-- The mapping with all keys as texts. -/
def toData (write : β → Data Float) (entries : Keyed β) : Data Float :=
  .mapping (entries.foldl (fun acc p => put p.1.shown (write p.2) acc) [])

end Keyed

end OperatorNet
