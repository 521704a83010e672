import OperatorNet.Network.Construction

/-!
# Networks under construction

The calls of a network that is built in place: what a call has changed before it ends with a fault
stays changed. Slots are fed on bindings of the call's own, and everything that the call adds is put
into the network together. The types of the nodes are brought up to date after that, one node after
the other, until one of them holds a number that is too long to be written.

Reasons are put into words where they arise, so a number in one of them may be too long as well.
-/

namespace OperatorNet

namespace Network

variable {α : Type}

/-- `findAdapter`, where the reasons why adapters do not fit are put into words. -/
def tryAdapters (suffix : String) (b : Bindings) (actual expected : PortType) :
    List (Operator α) → Except Fault (Option (Operator α × PortType × Bindings))
  | [] => .ok none
  | a :: rest => do
    let input := (← a.firstInput).freshen suffix
    let out := a.outType.freshen suffix
    match ← worded (b.unifySlots [(input, actual), (expected, out)]) with
    | .ok b' => return some (a, out, b')
    | .error _ => tryAdapters suffix b actual expected rest

/-- `feed`, where the reasons why slots cannot be fed directly are put into words. -/
def stage (g : Network α) (adapters : List (Operator α)) (slot : Nat) (b : Bindings)
    (suffixes : Nat) : List (PortType × Int) → Except Fault (List (Feed α) × Bindings × Nat)
  | [] => .ok ([], b, suffixes)
  | (expected, source) :: rest => do
    let actual := (← g.node source).template
    match ← worded (b.unify expected actual) with
    | .ok b' =>
      let (feeds, b'', s) ← g.stage adapters (slot + 1) b' suffixes rest
      return (.direct source :: feeds, b'', s)
    | .error reason =>
      match ← tryAdapters (toString suffixes) b actual expected adapters with
      | some (a, type, b') =>
        let (feeds, b'', s) ← g.stage adapters (slot + 1) b' (suffixes + 1) rest
        return (.adapted a source type :: feeds, b'', s)
      | none =>
        .error (SlotError.fault {
          slot, expected := some (b.resolveType expected), actual := some (b.resolveType actual),
          node := none, reason := .mismatch reason })

end Network

/-- A call on the network at hand; what it has changed outlives a fault. -/
abbrev Edit (α : Type) :=
  ExceptT Fault (StateM (Network α))

namespace Edit

variable {α : Type}

/-- What an edit gives and the network that it leaves, where the network is given up with a
fault. -/
def on {β : Type} (x : Edit α β) (g : Network α) : Except Fault (β × Network α) :=
  match x.run g with
  | (.ok b, g') => .ok (b, g')
  | (.error f, _) => .error f

/-- A result that changes nothing. -/
def lift {β : Type} (x : Except Fault β) : Edit α β :=
  ExceptT.mk (pure x)

/-- What a dimension stands for; its symbols are noted. -/
def resolveDim (d : Dim) : Edit α Dim := do
  modify fun g => { g with bindings := g.bindings.meet d.symbols }
  let g ← get
  lift ((g.bindings.resolve d).written.mapError (.of ∘ .dimension))

/-- What a type stands for, axis by axis. -/
def resolveType (t : PortType) : Edit α PortType := do
  return { t with shape := ← t.shape.mapM resolveDim }

/-- Brings the known types of all nodes up to date, one after the other. -/
def refresh : Edit α PUnit := do
  let g ← get
  g.nodes.forM fun n => do
    let resolved ← resolveType n.template
    modify fun g => g.modify n.id fun n => { n with resolved }

/-- Adds an input whose type uses the symbols of the network. -/
def addInput (name : String) (type : PortType) : Edit α Int := do
  let g ← get
  if (g.nodes.filter fun n => n.id ∈ g.inputIds).any (·.name = name) then
    throw (.of (.duplicateInput name))
  let resolved ← resolveType type
  modify fun g =>
    let node : Node α :=
      { id := g.nextId, name, operator := none, inputs := [], template := type, resolved,
        params := some .empty, inserted := false }
    { g with
      nodes := g.nodes ++ [node], nextId := g.nextId + 1, inputIds := g.inputIds ++ [g.nextId] }
  return g.nextId

/-- Puts a use of an operator into the network, behind the adapters that feed it. -/
def commit (op : Operator α) (feeds : List (Network.Feed α)) (b : Bindings) (suffixes : Nat)
    (params : Params α) : Edit α Int := do
  let suffix := toString (← get).suffixes
  let inputs ← modifyGet fun g => g.place feeds
  let id := (← get).nextId
  let type := op.outType.freshen suffix
  let node : Node α :=
    { id, name := op.name, operator := some op, inputs := inputs.map .id, template := type,
      resolved := type, params := some params, inserted := false }
  modify fun g => { g with nodes := g.nodes ++ [node], nextId := id + 1, suffixes, bindings := b }
  refresh
  return id

/-- Adds a use of an operator that reads from the nodes that references stand for. -/
def addNode [Scalar α] (c : Catalog α) (op : Operator α) (refs : List (Data Float))
    (params : Params α) : Edit α Int := do
  let g ← get
  let sources ← lift (refs.mapM g.locateRef)
  if sources.length ≠ op.arity then
    throw (.of (.slot {
      slot := min sources.length op.arity, expected := none, actual := none, node := none,
      reason := .arity op.name op.arity sources.length }))
  let slots := (op.inTypes.map (·.freshen (toString g.suffixes))).zip sources
  let (feeds, b, suffixes) ← lift (g.stage c.adapters 0 g.bindings (g.suffixes + 1) slots)
  commit op feeds b suffixes params

/-- Chooses the output. -/
def setOutput (ref : Data Float) : Edit α Int := do
  let g ← get
  let id ← lift (g.locateRef ref)
  modify fun g => { g with outputId := some id }
  return id

end Edit

end OperatorNet
