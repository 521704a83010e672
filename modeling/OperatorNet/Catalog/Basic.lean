import OperatorNet.Operator.Basic
import OperatorNet.PortType.Read

/-!
# Catalogs

A catalog holds the operators that networks are made of, each under its own name, with the kinds of
types and the named types they may use. Beside the operators it keeps an index of their names by the
kinds of their inputs and their output, which registration brings up to date after the operators.

A catalog is changed in place: what a call has changed before it ends with a fault stays changed
(`Cataloguing`). Registration checks the signature and refuses what does not pass. A frozen catalog
does not change any more; more operators give a new frozen catalog.
-/

namespace OperatorNet

variable {α : Type}

/-- The kinds of inputs and the kind of an output. -/
abbrev KindKey := List String × String

/-- The kinds of the inputs and of the output of an operator. -/
def Operator.kindKey (op : Operator α) : KindKey :=
  (op.inTypes.map (·.kind), op.outType.kind)

/-- Names of operators by their kinds. -/
abbrev KindIndex := Table KindKey (List String)

namespace KindIndex

/-- The names that are entered under given kinds. -/
def namesAt (index : KindIndex) (key : KindKey) : List String :=
  (index.get? key).getD []

/-- Enters the name of an operator, once. -/
def enter (index : KindIndex) (op : Operator α) : KindIndex :=
  let names := index.namesAt op.kindKey
  index.insert op.kindKey (if op.name ∈ names then names else names ++ [op.name])

end KindIndex

/-- Puts an operator in the place of the one with its name, or else at the end. -/
def storeIn (ops : List (Operator α)) (op : Operator α) : List (Operator α) :=
  if op.name ∈ ops.map (·.name) then ops.map fun a => if a.name = op.name then op else a
  else ops ++ [op]

/-- Storing keeps names distinct. -/
theorem nodup_storeIn {ops : List (Operator α)} (distinct : (ops.map (·.name)).Nodup)
    (op : Operator α) : ((storeIn ops op).map (·.name)).Nodup := by
  unfold storeIn
  split
  next =>
    have names : (ops.map fun a => if a.name = op.name then op else a).map (·.name) =
        ops.map (·.name) := by
      rw [List.map_map]
      refine List.map_congr_left fun a _ => ?_
      change (if a.name = op.name then op else a).name = a.name
      split
      next same => exact same.symm
      next => rfl
    rw [names]
    exact distinct
  next new =>
    rw [List.map_append, List.nodup_append]
    refine ⟨distinct, by simp, ?_⟩
    intro a ha b hb
    simp only [List.map_cons, List.map_nil, List.mem_singleton] at hb
    rintro rfl
    exact new (hb ▸ ha)

/-- Operators by distinct names, in order of registration, an index of their names, and the
vocabulary of their types. -/
structure Catalog (α : Type) where
  kinds : TagSet
  aliases : Table String PortType
  registered : List (Operator α)
  distinct : (registered.map (·.name)).Nodup
  index : KindIndex
  sortMetric : String
  frozen : Bool

/-- The kinds every catalog knows unless it is given others. -/
def defaultKinds : List String :=
  ["path", "sequence", "spectrum", "feature", "vector", "diagram", "barcode", "pointcloud", "image",
    "graph_signal", "measure"]

namespace Catalog

/-- A catalog without operators and named types. -/
def ofKinds (kinds : List String) (sortMetric : String) : Catalog α :=
  { kinds := .ofList (kinds.map normalizeTag), aliases := .empty, registered := [],
    distinct := .nil, index := .empty, sortMetric := sortMetric, frozen := false }

/-- Succeeds unless the catalog is frozen. -/
def checkOpen (c : Catalog α) : Except Fault Unit :=
  if c.frozen then fail .frozen else .ok ()

/-- The catalog, not to be changed any more. -/
def freeze (c : Catalog α) : Catalog α :=
  { c with frozen := true }

/-- Succeeds if a type that is to be named is of a known kind. -/
def checkNamed (c : Catalog α) (name : String) (t : PortType) : Except Fault Unit :=
  if t.kind ∈ c.kinds then .ok () else fail (.aliasFlaw name (.unknownKind t.kind))

/-- The type that a document describes, where flaws are blamed on the name it is for. -/
def describedType (name : String) (d : Data Float) : Except Fault PortType :=
  match Check.portType d with
  | .accepted t => .ok t
  | .refused issues =>
    fail (.aliasFlaw name (.description ((issues.head?.map (·.flaw)).getD .missing)))
  | .brokenDown => fail .wrongForm

/-- The type with a given name, or of a given kind with no axes. -/
def resolveName (c : Catalog α) (name owner : String) : Except Fault PortType :=
  match c.aliases.get? name with
  | some t => .ok t
  | none =>
    let kind := normalizeTag name
    if kind ∈ c.kinds then
      if kind.isEmpty then fail (.invalid [⟨["kind"], .emptyTag⟩])
      else .ok { kind, shape := [], metric := "l2", group := .empty }
    else fail (.signature owner (.unknownReference name))

/-- Checks the slots of an operator from place `i` on; those listed in `untyped` have no type. -/
def checkSlots (c : Catalog α) (name : String) (untyped : List Nat) (i : Nat) :
    List PortType → Except Fault Unit
  | [] => .ok ()
  | t :: rest =>
    if i ∈ untyped then fail (.signature name (.untypedSlot i))
    else if t.kind ∈ c.kinds then c.checkSlots name untyped (i + 1) rest
    else fail (.signature name (.unknownKind t.kind))

/-- Checks that an operator can be registered; the slots listed in `untyped` have no type. -/
def checkSignature [Scalar α] (c : Catalog α) (op : Operator α) (untyped : List Nat) :
    Except Fault Unit := do
  if op.arity < 1 then fail (.signature op.name .noInput)
  c.checkSlots op.name untyped 0 op.types
  if op.adapter ∧ op.arity ≠ 1 then fail (.signature op.name .adapterArity)
  match op.cost.entries.find? fun p => p.2 < 0 with
  | some p => fail (.signature op.name (.negativeCost p.1))
  | none => pure ()
  if (op.stability.map fun s => decide (s < 0)).getD false then
    fail (.signature op.name .negativeStability)

/-- The registered operator with a given name. -/
def find? (c : Catalog α) (name : String) : Option (Operator α) :=
  c.registered.find? (·.name = name)

/-- Whether an operator with a given name is registered. -/
def contains (c : Catalog α) (name : String) : Bool :=
  name ∈ c.registered.map (·.name)

/-- Succeeds unless an operator with a given name is registered. -/
def checkNew (c : Catalog α) (name : String) : Except Fault Unit :=
  if c.contains name then fail (.duplicate name) else .ok ()

/-- Stores an operator under its name. -/
def store (c : Catalog α) (op : Operator α) : Catalog α :=
  { c with registered := storeIn c.registered op, distinct := nodup_storeIn c.distinct op }

end Catalog

/-- A call on the catalog at hand; what it has changed outlives a fault. -/
abbrev Cataloguing (α : Type) :=
  ExceptT Fault (StateM (Catalog α))

namespace Cataloguing

variable {β : Type}

/-- The catalog that a call leaves; with a fault it is given up. -/
def on (x : Cataloguing α β) (c : Catalog α) : Except Fault (Catalog α) :=
  match x.run c with
  | (.ok _, c') => .ok c'
  | (.error f, _) => .error f

/-- A result that changes nothing. -/
def lift (x : Except Fault β) : Cataloguing α β :=
  ExceptT.mk (pure x)

/-- What a call ends with, to go on from also after a fault. -/
def caught (x : Cataloguing α β) : Cataloguing α (Except Fault β) :=
  ExceptT.mk (Except.ok <$> x.run)

/-- Adds a kind. -/
def registerKind (kind : String) : Cataloguing α PUnit := do
  lift (← get).checkOpen
  modify fun c => { c with kinds := c.kinds.insert (normalizeTag kind) }

/-- Names a type of a known kind. -/
def nameType (name : String) (t : PortType) : Cataloguing α PUnit := do
  lift (← get).checkOpen
  lift ((← get).checkNamed name t)
  modify fun c => { c with aliases := c.aliases.insert name t }

/-- Names the type that a document describes. -/
def defineType (name : String) (d : Data Float) : Cataloguing α PUnit := do
  lift (← get).checkOpen
  nameType name (← lift (Catalog.describedType name d))

/-- Registers an operator of which some slots may lack a type: it is stored, and then its name is
entered into the index. -/
def register [Scalar α] (op : Operator α) (untyped : List Nat) : Cataloguing α PUnit := do
  lift (← get).checkOpen
  lift ((← get).checkNew op.name)
  lift ((← get).checkSignature op untyped)
  modify fun c => c.store op
  modify fun c => { c with index := c.index.enter op }

end Cataloguing

namespace Catalog

/-- The catalog with another kind. -/
def registerKind (c : Catalog α) (kind : String) : Except Fault (Catalog α) :=
  (Cataloguing.registerKind kind).on c

/-- The catalog with another named type. -/
def nameType (c : Catalog α) (name : String) (t : PortType) : Except Fault (Catalog α) :=
  (Cataloguing.nameType name t).on c

/-- The catalog with another named type, by its document. -/
def defineType (c : Catalog α) (name : String) (d : Data Float) : Except Fault (Catalog α) :=
  (Cataloguing.defineType name d).on c

/-- A catalog with some named types and without operators. -/
def start (kinds : List String) (aliases : List (String × PortType)) (sortMetric : String) :
    Except Fault (Catalog α) :=
  aliases.foldlM (fun c p => c.nameType p.1 p.2) (ofKinds kinds sortMetric)

/-- The catalog with another operator, of which some slots may lack a type. -/
def registerDraft [Scalar α] (c : Catalog α) (op : Operator α) (untyped : List Nat) :
    Except Fault (Catalog α) :=
  (Cataloguing.register op untyped).on c

/-- The catalog with another operator. -/
def register [Scalar α] (c : Catalog α) (op : Operator α) : Except Fault (Catalog α) :=
  c.registerDraft op []

/-- The catalog with further operators, registered from left to right. -/
def registerAll [Scalar α] (c : Catalog α) (ops : List (Operator α)) :
    Except Fault (Catalog α) :=
  ops.foldlM register c

end Catalog

end OperatorNet
