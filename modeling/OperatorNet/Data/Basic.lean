import OperatorNet.Table

/-!
# Documents

The values that declarations, networks and settings are exchanged as: nothing, truth values, whole
and real numbers, texts, lists, and mappings from texts in a definite order. The real numbers are a
parameter.
-/

namespace OperatorNet

/-- A document over real numbers `α`. -/
inductive Data (α : Type) where
  | null
  | bool (b : Bool)
  | int (n : Int)
  | real (x : α)
  | text (s : String)
  | list (items : List (Data α))
  | mapping (fields : List (String × Data α))
  deriving Inhabited

namespace Data

variable {α : Type}

/-- The field of a mapping with a given key. -/
def field? (d : Data α) (key : String) : Option (Data α) :=
  match d with
  | .mapping fields => fetch key fields
  | _ => none

/-- The item of a list at a given place. -/
def item? (d : Data α) (i : Nat) : Option (Data α) :=
  match d with
  | .list items => items[i]?
  | _ => none

/-- The text of a value that is one. -/
def text? : Data α → Option String
  | .text s => some s
  | _ => none

/-- The document with every real number replaced. -/
def mapReals (f : α → Data α) : Data α → Data α
  | .real x => f x
  | .list items => .list (mapRealsOfItems f items)
  | .mapping fields => .mapping (mapRealsOfFields f fields)
  | d => d
where
  /-- The items of a list with every real number replaced. -/
  mapRealsOfItems (f : α → Data α) : List (Data α) → List (Data α)
    | [] => []
    | d :: rest => mapReals f d :: mapRealsOfItems f rest
  /-- The fields of a mapping with every real number replaced. -/
  mapRealsOfFields (f : α → Data α) : List (String × Data α) → List (String × Data α)
    | [] => []
    | (key, d) :: rest => (key, mapReals f d) :: mapRealsOfFields f rest

/-- A list of texts. -/
def texts (names : List String) : Data α :=
  .list (names.map .text)

end Data

end OperatorNet
