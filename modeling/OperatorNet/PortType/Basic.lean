import OperatorNet.Dim.Text
import OperatorNet.PortType.TagSet

/-!
# Types of ports

What flows along an edge of a network: a kind, a dimension per axis, the name of the metric by which
values are compared, and the tags of the transformations that the values are invariant under.

Every use of an operator has symbols of its own: a suffix is joined to each of them by a number
sign. Symbols may also be replaced by given terms, which are read only where their symbol occurs.
-/

namespace OperatorNet

/-- The type of a value in a network. -/
structure PortType where
  kind : String
  shape : List Dim
  metric : String
  group : TagSet
  deriving DecidableEq, Inhabited

namespace PortType

/-- Applies a function to every dimension. -/
def mapDims (f : Dim → Dim) (t : PortType) : PortType :=
  { t with shape := t.shape.map f }

/-- Every symbol replaced by a dimension. -/
def substitute (f : String → Dim) (t : PortType) : PortType :=
  t.mapDims (Dim.substitute f)

/-- The symbols of all dimensions. -/
def symbols (t : PortType) : TagSet :=
  .ofList (t.shape.flatMap Dim.symbols)

/-- A type without symbols. -/
def isConcrete (t : PortType) : Bool :=
  t.symbols.tags.isEmpty

/-- The text of a type: kind, axes, metric, and tags if there are any. -/
def toText (t : PortType) : String :=
  let group :=
    if t.group.tags.isEmpty then "" else "<" ++ ",".intercalate t.group.tags ++ ">"
  let shape := ", ".intercalate (t.shape.map Dim.toText)
  t.kind ++ "[" ++ shape ++ "]\x7b" ++ t.metric ++ "\x7d" ++ group

/-- Whether the text of a type has no number that is too long to be written. -/
def isWritable (t : PortType) : Bool :=
  t.shape.all Dim.isWritable

/-- Whether every dimension has a canonical writing. -/
def hasTerms (t : PortType) : Bool :=
  t.shape.all Dim.hasTerm

/-- The document of a type. -/
def toData {α : Type} (t : PortType) : Data α :=
  .mapping [("kind", .text t.kind), ("shape", .list (t.shape.map fun d => d.toTerm.toData)),
    ("metric", .text t.metric), ("group", .texts t.group.tags)]

end PortType

/-! ### Renaming symbols -/

/-- The local name of a symbol. -/
def freshName (suffix s : String) : String :=
  s ++ "#" ++ suffix

namespace PortType

/-- The type with local names for all symbols. -/
def freshen (suffix : String) (t : PortType) : PortType :=
  t.substitute fun s => .symbol (freshName suffix s)

/-- The local name of every symbol of the given types, in order of first use. -/
def freshNames (types : List PortType) (suffix : String) : List (String × String) :=
  (Table.ofList ((types.flatMap (·.symbols.tags)).map fun s => (s, freshName suffix s))).entries

/-- One dimension with its symbols replaced by given terms; other symbols stay. -/
def replaceDim (terms : List (String × Data Float)) (d : Dim) : Except DimError Dim :=
  d.terms.foldlM
    (fun acc p => do
      let replacement ← Dim.ofData ((fetch p.1 terms).getD (.text p.1))
      return acc + replacement.scale p.2)
    (Dim.ofNat d.const)

/-- The type with its symbols replaced by given terms. -/
def replace (terms : List (String × Data Float)) (t : PortType) : Except DimError PortType := do
  return { t with shape := ← t.shape.mapM (replaceDim terms) }

end PortType

end OperatorNet
