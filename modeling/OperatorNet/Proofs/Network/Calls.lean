import Mathlib.Data.List.Induction
import OperatorNet.Proofs.Catalog.Reachable
import OperatorNet.Proofs.Network.Growth

/-!
# Sequences of calls

A network is built from the network without nodes by calls that add an input, add a use of an
operator or choose the output. A call that ends with a fault leaves the network as it was, and all
that a call that succeeds can do is said once (`does_of_attempt`). It leaves a network well built,
and the slots that it adds are known beforehand (`WellBuilt.attempt`).
-/

namespace OperatorNet.Network

variable {α : Type}

/-- An operator that is given, or looked up by its name. -/
inductive OperatorRef (α : Type) where
  | given (op : Operator α)
  | named (name : String)

/-- A call that builds. -/
inductive Call (α : Type) where
  | input (name : String) (type : PortType)
  | node (op : OperatorRef α) (sources : List Int) (params : Params α)
  | output (id : Int)

variable [Scalar α]

/-- The operator that is meant. -/
def OperatorRef.lookup (c : Catalog α) : OperatorRef α → Except Fault (Operator α)
  | .given op => .ok op
  | .named name => c.get name

/-- The network after a call that succeeds. -/
def attempt (c : Catalog α) (g : Network α) : Call α → Except Fault (Network α)
  | .input name type => do return (← g.addInput name type).2
  | .node op sources params => do return (← g.addNode c (← op.lookup c) sources params).2
  | .output id => g.setOutput id

/-- What a call that succeeds has done. -/
inductive Call.Does (c : Catalog α) (g : Network α) : Call α → Network α → Prop where
  | input {name : String} {type : PortType} {id : Int} {g' : Network α}
      (added : g.addInput name type = .ok (id, g')) : Does c g (.input name type) g'
  | node {op : OperatorRef α} {o : Operator α} {sources : List Int} {params : Params α} {id : Int}
      {g' : Network α} (found : op.lookup c = .ok o)
      (added : g.addNode c o sources params = .ok (id, g')) : Does c g (.node op sources params) g'
  | output {id : Int} {g' : Network α} (set : g.setOutput id = .ok g') : Does c g (.output id) g'

/-- The network after a call, whether it succeeds or not. -/
def call (c : Catalog α) (g : Network α) (step : Call α) : Network α :=
  match g.attempt c step with
  | .ok g' => g'
  | .error _ => g

/-- The network after some calls, one after the other. -/
def build (c : Catalog α) (id : String) (calls : List (Call α)) : Network α :=
  calls.foldl (call c) (empty id)

/-- The slots of a new use of an operator, those of the adapters that it needs first. -/
def useSlots (g : Network α) (c : Catalog α) (op : Operator α) (sources : List Int) :
    List (PortType × PortType) :=
  match g.feed c.adapters 0 g.bindings (g.suffixes + 1) (g.openSlots op sources) with
  | .ok (feeds, _, _) => g.adapterSlots (g.suffixes + 1) feeds ++ g.operatorSlots op feeds
  | .error _ => []

/-- The slots that a call adds to a network, in the order of the nodes that they belong to. -/
def Call.newSlots (c : Catalog α) (g : Network α) : Call α → List (PortType × PortType)
  | .node op sources _ =>
    match op.lookup c with
    | .ok op => g.useSlots c op sources
    | .error _ => []
  | _ => []

/-- A further call comes last. -/
lemma build_append (c : Catalog α) (id : String) (calls : List (Call α)) (step : Call α) :
    build c id (calls ++ [step]) = (build c id calls).call c step := by
  rw [build, List.foldl_append]
  rfl

variable {c : Catalog α} {g g' : Network α} {κ : Int → Nat}

/-- An attempt that succeeds does what its call says. -/
lemma does_of_attempt {step : Call α} (done : g.attempt c step = .ok g') : step.Does c g g' := by
  cases step with
  | input name type =>
    simp only [Network.attempt, bind_eq_ok, pure_eq_ok] at done
    obtain ⟨⟨id, g₁⟩, added, rfl⟩ := done
    exact .input added
  | node op sources params =>
    simp only [Network.attempt, bind_eq_ok, pure_eq_ok] at done
    obtain ⟨o, found, ⟨id, g₁⟩, added, rfl⟩ := done
    exact .node found added
  | output id => exact .output done

/-- A call that succeeds leaves a network assembled and adds its slots. -/
lemma Assembled.attempt (built : Assembled g κ) (reachable : c.Reachable) {step : Call α}
    (done : g.attempt c step = .ok g') :
    ∃ κ', Assembled g' κ' ∧ g'.slots (counted κ') = g.slots (counted κ) ++ step.newSlots c g := by
  cases does_of_attempt done with
  | input added =>
    obtain ⟨κ', built', slots⟩ := built.addInput added
    exact ⟨κ', built', slots.trans (List.append_nil _).symm⟩
  | node found added =>
    obtain ⟨κ', feeds, b, k, built', fed, slots, -⟩ :=
      built.addNode (fun _ => reachable.adapter_arity) added
    refine ⟨κ', built', ?_⟩
    rw [slots, Call.newSlots, found]
    simp only [useSlots, fed]
  | output set =>
    obtain ⟨built', slots⟩ := built.setOutput set
    exact ⟨κ, built', slots.trans (List.append_nil _).symm⟩

/-- Types stay up to date by attempts that succeed. -/
lemma UpToDate.attempt (current : g.UpToDate) {step : Call α} (done : g.attempt c step = .ok g') :
    g'.UpToDate := by
  cases does_of_attempt done with
  | input added => exact current.addInput added
  | node _ added => exact upToDate_addNode added
  | output set => exact current.setOutput set

/-- A call that succeeds leaves a network well built and adds its slots. -/
lemma WellBuilt.attempt (built : WellBuilt g κ) (reachable : c.Reachable) {step : Call α}
    (done : g.attempt c step = .ok g') :
    ∃ κ', WellBuilt g' κ' ∧ g'.slots (counted κ') = g.slots (counted κ) ++ step.newSlots c g := by
  obtain ⟨κ', built', slots⟩ := built.toAssembled.attempt reachable done
  exact ⟨κ', ⟨built', built.resolved.attempt done⟩, slots⟩

/-! ## Small catalogs -/

namespace Sample

/-- A type without group. -/
def typeOf (kind : String) (shape : List Dim) : PortType :=
  ⟨kind, shape, "l2", .empty⟩

/-- Twice a symbol. -/
def twice (s : String) : Dim :=
  (Dim.symbol s).scale 2

/-- An operator of which nothing is known but its types. -/
def typed (name : String) (inTypes : List PortType) (outType : PortType) (adapter : Bool) :
    Operator Float :=
  { name, inTypes, outType, differentiable := false, invariance := .empty, stability := none,
    cost := .empty, params := .empty, adapter, executor := none }

/-- The catalog without operators. -/
def bare : Catalog Float :=
  .ofKinds ["path", "spectrum", "feature"] "cost"

/-- An adapter that halves an axis. -/
def halve : Operator Float :=
  typed "Halve" [typeOf "path" [twice "S"]] (typeOf "spectrum" [.symbol "S"]) true

/-- An operator with a fixed axis and an open one. -/
def mix : Operator Float :=
  typed "Mix" [typeOf "path" [.ofNat 3], typeOf "spectrum" [.symbol "K"]]
    (typeOf "feature" [.symbol "K"]) false

/-- An operator that takes the last value off an axis. -/
def shorten : Operator Float :=
  typed "Shorten" [typeOf "path" [(Dim.symbol "T").addNat 1]] (typeOf "feature" [.symbol "T"]) false

/-- The catalog with the adapter only. -/
def halving : Catalog Float :=
  bare.extend [halve] (by decide)

/-- The adapter can be registered. -/
lemma reachable_halving : halving.Reachable := by
  refine .extend (.ofKinds _ _) rfl ?_ _
  exact List.forall_mem_singleton.2 rfl

/-- Two inputs are mixed; the second one needs the adapter. -/
def mixing (x y : Dim) : List (Call Float) :=
  [.input "x" (typeOf "path" [x]), .input "y" (typeOf "path" [y]), .node (.given mix) [0, 1] .empty,
    .output 3]

end Sample

end OperatorNet.Network
