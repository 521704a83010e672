import OperatorNet.PortType.Basic
import OperatorNet.Sorting

/-!
# Types up to the names of symbols

Numbering the symbols of a type by first occurrence gives a key that does not depend on their names.
-/

namespace OperatorNet

/-- A type with numbers for symbols. -/
structure SignatureKey where
  kind : String
  shape : List (List (Nat × Nat) × Nat)
  metric : String
  group : TagSet
  deriving DecidableEq

/-- Numbered terms in increasing order. -/
def sortNumbered (l : List (Nat × Nat)) : List (Nat × Nat) :=
  sortBy (fun p q => decide (p.1 < q.1 ∨ (p.1 = q.1 ∧ p.2 < q.2))) l

/-- The symbols seen so far, extended by the symbols of a dimension that are new. -/
def extendSeen (seen : List String) (d : Dim) : List String :=
  d.symbols.foldl (fun acc s => if s ∈ acc then acc else acc ++ [s]) seen

/-- A dimension with the places of its symbols among those seen. -/
def numbered (seen : List String) (d : Dim) : List (Nat × Nat) × Nat :=
  (sortNumbered (d.terms.map fun p => (seen.idxOf p.1, p.2)), d.const)

/-- The numbered forms of dimensions read from left to right. -/
def numberedShape (seen : List String) : List Dim → List (List (Nat × Nat) × Nat)
  | [] => []
  | d :: rest =>
    let seen := extendSeen seen d
    numbered seen d :: numberedShape seen rest

/-- The key of a type. -/
def PortType.signatureKey (t : PortType) : SignatureKey :=
  { kind := t.kind, shape := numberedShape [] t.shape, metric := t.metric, group := t.group }

/-- The document of a key. -/
def SignatureKey.toData {α : Type} (k : SignatureKey) : Data α :=
  .list [.text k.kind,
    .list (k.shape.map fun d =>
      .list [.list (d.1.map fun p => .list [.int p.1, .int p.2]), .int d.2]),
    .text k.metric, .texts k.group.tags]

/-- The document of all that is known about a type. -/
def PortType.summary {α : Type} (t : PortType) : Data α :=
  .mapping [("type", t.toData), ("str", .text t.toText), ("symbols", .texts t.symbols.tags),
    ("concrete", .bool t.isConcrete), ("key", t.signatureKey.toData)]

end OperatorNet
