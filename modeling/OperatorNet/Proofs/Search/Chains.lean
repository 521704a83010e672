import OperatorNet.Proofs.Network.Direct
import OperatorNet.Proofs.PortType.Keys
import OperatorNet.Proofs.Search.Unanswered

/-!
# Chains of operators

A chain is a network of one input and operators that read from one another in a row, nothing put in
between. Whatever is laid out for a request keeps up with every chain: for the last node of a chain
there is a position of a type alike (`Chain.exists_source`). So when nothing answers a request no
chain does, unless the request asks for a symbol of the input (`Supergraph.not_answered_of_failed`).
Then it may well be that a chain does (`Supergraph.answered_right`), because a position has the type
of one of its candidates only.
-/

namespace OperatorNet

open PortType

variable {α : Type} [Scalar α]

/-- A network of one input and a number of operators of one input that are not left out, each of
which was added without an adapter and reads from the node before; with the id of its last node. -/
inductive Chain (c : Catalog α) (excluded : Exclusion α) (id name : String) (input : PortType) :
    Nat → Network α → Int → Prop
  | start {g : Network α} {last : Int} : (Network.empty id).addInput name input = .ok (last, g) →
      Chain c excluded id name input 0 g last
  | add {n : Nat} {g g' : Network α} {last last' : Int} {op : Operator α} {params : Params α} :
      Chain c excluded id name input n g last → op ∈ c.registered → excluded op = .ok false →
      op.arity = 1 → g.addNode c op [last] params = .ok (last', g') →
      (∀ m ∈ g'.nodes, m.inserted = false) → Chain c excluded id name input (n + 1) g' last'

variable {c : Catalog α} {excluded : Exclusion α} {maxFanIn : Number α} {input output : PortType}
  {stages n : Nat} {uses : List Use} {all : List (Position α)} {g : Network α} {last : Int}
  {id name : String}

namespace Laid

variable {op : Operator α} {source : Source} {t : PortType}

/-- Where an operator takes a type alike to that of a source, a position of the next stage reads
from the source and has a type alike to that of the value. -/
lemma exists_next (laid : Laid c excluded maxFanIn input stages uses all)
    (mem : source ∈ sourcesOf input all) (within : source.stage + 1 ≤ stages)
    (registered : op ∈ c.registered) (admitted : excluded op = .ok false) (unary : op.arity = 1)
    (alike : Alike t source.type) {suffix : String} (fresh : t.Lacks suffix) {v : PortType}
    (takes : op.valueType? suffix [t] = some v) :
    ∃ p ∈ all, p.stage = source.stage + 1 ∧ Alike v p.outType := by
  have row : Row (sourcesOf input all) (source.stage + 1) [source] :=
    ⟨List.forall_mem_singleton.2 mem, List.forall_mem_singleton.2 (Nat.lt_succ_self _),
      List.nodup_singleton _, source, List.mem_singleton.2 rfl, rfl⟩
  have related := laid.value_alike row unary alike fresh
  rw [takes] at related
  cases value : op.instanceOn uses [source] with
  | none =>
    rw [value] at related
    cases related
  | some w =>
    rw [value] at related
    cases related with
    | some like =>
      obtain ⟨-, p, hp, inputs, key⟩ :=
        laid.covers op _ [source] w within row ⟨registered, admitted, .inl unary⟩ value
      -- the position that reads the same row is of the stage of the row
      obtain ⟨row', row_', gathers⟩ := laid.gathers p hp
      obtain rfl := row.eq_of_ids laid.ids_nodup row_' (inputs.symm.trans gathers.inputs)
      exact ⟨p, hp, row_'.stage_eq row, like.trans (alike_of_signatureKey key.symm)⟩

end Laid

/-- For the last node of a chain there is a source of a type alike. -/
theorem Chain.exists_source (laid : Laid c excluded maxFanIn input stages uses all)
    (chain : Chain c excluded id name input n g last) (within : n ≤ stages) :
    g.Direct input.Mentions ∧ ∃ m ∈ g.nodes, m.id = last ∧
      ∃ source ∈ sourcesOf input all, source.stage = n ∧ Alike (g.value m) source.type := by
  induction chain with
  | start added =>
    rw [Network.addInput_empty] at added
    cases added
    refine ⟨.onInput id name input, Network.soleInput name input, List.mem_singleton.2 rfl, rfl,
      ⟨none, input, 0⟩, List.mem_cons_self .., rfl, ?_⟩
    rw [Network.value_soleInput]
    exact Alike.refl input
  | add chain registered admitted unary added nothing ih =>
    obtain ⟨direct, m, there, rfl, source, mem, rfl, alike⟩ := ih (Nat.le_of_succ_le within)
    obtain ⟨b, t, rfl, rfl, takes, direct', value⟩ :=
      direct.value_of_addNode laid.plain unary there added nothing
    obtain ⟨p, hp, stage, like⟩ := laid.exists_next mem within registered admitted unary alike
      (direct.lacks laid.plain there) takes
    refine ⟨direct', Network.directNode _ _ m b _, ?_, rfl, ⟨some p.id, p.outType, p.stage⟩,
      List.mem_cons_of_mem _ (List.mem_map_of_mem hp), stage, value ▸ like⟩
    rw [Network.nodes_withDirect]
    exact List.mem_append_right _ (List.mem_singleton.2 rfl)

namespace Supergraph

variable {depth : StageBound} {f : Fault}

/-- When nothing answers a request, no chain within its depth does: the request fits the type of
none of them, if it does not ask for symbols of the input. When nothing takes the input, it may ask
for them. -/
theorem not_answered_of_failed (plain : ∀ s, input.Mentions s → '#' ∉ s.toList)
    (plain_output : ∀ s, output.Mentions s → '#' ∉ s.toList)
    (harmless : ∀ op, Unconcerned (excluded op))
    (failed : build c input output depth maxFanIn excluded = .error f)
    (unanswered : f.cause.Unanswered)
    (apart : f.cause = .noConsumer input ∨ ∀ s, output.Mentions s → ¬ input.Mentions s)
    (chain : Chain c excluded id name input n g last) (proper : 1 ≤ n) (within : n ≤ depth.count)
    {m : Node α} (found : g.node last = .ok m) : g.bindings.unify? output m.template = none := by
  obtain ⟨uses, all, laid, nothing⟩ := exists_laid_of_failed plain harmless failed unanswered
  obtain ⟨direct, m', there, rfl, source, mem, rfl, alike⟩ :=
    chain.exists_source laid (show n ≤ depth.count.toNat by omega)
  obtain rfl : m = m' := by
    rw [Network.node_eq_ok.2 (direct.wired.find?_id there)] at found
    exact (Except.ok.inj found).symm
  rcases List.mem_cons.1 mem with rfl | later
  · exact absurd proper (Nat.not_succ_le_zero 0)
  obtain ⟨p, hp, rfl⟩ := List.mem_map.1 later
  rcases nothing with rfl | ⟨cause, none⟩
  · cases hp
  have apart : ∀ s, output.Mentions s → ¬ input.Mentions s := apart.resolve_left fun other => by
    rw [cause] at other
    cases other
  rw [← Option.not_isSome_iff_eq_none, direct.isSome_unify?_iff plain_output apart
    (fun s mentions => laid.not_mentions mem (plain_output s mentions) (apart s mentions))
      there alike, none p hp]
  decide

namespace Sample

open Decoder.Sample

/-- Whether a result is that nothing answers a request. -/
def refuses {β : Type} : Except Fault β → Bool
  | .ok _ => false
  | .error f =>
    match f.cause with
    | .noConsumer _ | .noRoute .. => true
    | _ => false

/-- What refuses a request fails because nothing answers it. -/
lemma exists_of_refuses {β : Type} {x : Except Fault β} (refused : refuses x = true) :
    ∃ f, x = .error f ∧ f.cause.Unanswered := by
  cases x with
  | ok => cases refused
  | error f =>
    refine ⟨f, rfl, ?_⟩
    dsimp only [refuses] at refused
    split at refused
    next type cause => exact .inl ⟨type, cause⟩
    next bound source target cause => exact .inr ⟨bound, source, target, cause⟩
    next => cases refused

/-- The second half of a grid can be taken at once. -/
lemma chain_right : ∃ g m,
    Chain halves (fun _ => .ok false) "g" "x" (grid (.symbol "A") (.symbol "B")) 1 g 1 ∧
      g.node 1 = .ok m ∧
      (g.bindings.unify? (typeOf "feature" ((Dim.symbol "A").addNat 1)) m.template).isSome := by
  let input := grid (.symbol "A") (.symbol "B")
  let right : Operator ℚ := typed "right" [grid (.symbol "X") (.symbol "Y")]
    (typeOf "feature" (.symbol "Y"))
  have shown : ∃ added, ((Network.onInput "g" "x" input).addNode halves right [0] .empty).toOption =
        some added ∧
      decide (added.1 = 1 ∧ (∀ m ∈ added.2.nodes, m.inserted = false) ∧
        ((added.2.node 1).toOption.any fun m => (added.2.bindings.unify?
          (typeOf "feature" ((Dim.symbol "A").addNat 1)) m.template).isSome) = true) := by
    rw [← Option.any_eq_true]
    decide +kernel
  obtain ⟨⟨last, g⟩, added, shown⟩ := shown
  obtain ⟨rfl, nothing, there⟩ := of_decide_eq_true shown
  obtain ⟨m, found, fits⟩ := (Option.any_eq_true ..).1 there
  refine ⟨g, m, .add (.start (Network.addInput_empty "g" "x" input)) ?_ rfl rfl
    (toOption_eq_some.1 added) nothing, toOption_eq_some.1 found, fits⟩
  exact List.mem_cons_of_mem _ (List.mem_cons_self ..)

end Sample

open Sample Decoder.Sample in
/-- Nothing leads from a grid to a vector in one step, and the half that can be taken is none. -/
theorem not_answered_of_failed_right :
    let input := grid (.symbol "A") (.symbol "B")
    let output := typeOf "vector" (.symbol "K")
    (∀ s, input.Mentions s → '#' ∉ s.toList) ∧ (∀ s, output.Mentions s → '#' ∉ s.toList) ∧
      (∀ op : Operator ℚ, Unconcerned ((fun _ => .ok false : Exclusion ℚ) op)) ∧
      (∀ s, output.Mentions s → ¬ input.Mentions s) ∧
      ∃ f, build halves input output (.whole 1) (.whole 2) (fun _ => .ok false) = .error f ∧
        f.cause.Unanswered ∧
        ∃ g m, Chain halves (fun _ => .ok false) "g" "x" input 1 g 1 ∧ g.node 1 = .ok m ∧
          g.bindings.unify? output m.template = none := by
  intro input output
  have plain : ∀ s, input.Mentions s → '#' ∉ s.toList := fun _ => plain_grid
  have only : ∀ s, output.Mentions s → s = "K" := fun s mentions => by
    simpa using mentions_typeOf.1 mentions
  have plain_output : ∀ s, output.Mentions s → '#' ∉ s.toList := fun s mentions => by
    rw [only s mentions]
    decide
  have apart : ∀ s, output.Mentions s → ¬ input.Mentions s := fun s mentions => by
    rw [only s mentions, mentions_grid]
    decide
  have harmless : ∀ op : Operator ℚ, Unconcerned ((fun _ => .ok false : Exclusion ℚ) op) :=
    fun _ => unconcerned_ok
  obtain ⟨f, failed, unanswered⟩ : ∃ f, build halves input output (.whole 1) (.whole 2)
      (fun _ => .ok false) = .error f ∧ f.cause.Unanswered :=
    exists_of_refuses (by decide +kernel)
  obtain ⟨g, m, chain, found, -⟩ := chain_right
  exact ⟨plain, plain_output, harmless, apart, f, failed, unanswered, g, m, chain, found,
    not_answered_of_failed plain plain_output harmless failed unanswered (.inr apart) chain
      (Nat.le_refl 1) (by decide) found⟩

open Sample Decoder.Sample in
/-- A request that asks for a symbol of the input may be refused although a chain answers it: the
position of both halves has the type of the first one. -/
theorem answered_right :
    let input := grid (.symbol "A") (.symbol "B")
    let output := typeOf "feature" ((Dim.symbol "A").addNat 1)
    (∀ s, input.Mentions s → '#' ∉ s.toList) ∧ (∀ s, output.Mentions s → '#' ∉ s.toList) ∧
      ∃ f, build halves input output (.whole 1) (.whole 2) (fun _ => .ok false) = .error f ∧
        f.cause.Unanswered ∧
        ∃ g m, Chain halves (fun _ => .ok false) "g" "x" input 1 g 1 ∧ g.node 1 = .ok m ∧
          (g.bindings.unify? output m.template).isSome := by
  intro input output
  obtain ⟨f, failed, unanswered⟩ : ∃ f, build halves input output (.whole 1) (.whole 2)
      (fun _ => .ok false) = .error f ∧ f.cause.Unanswered :=
    exists_of_refuses (by decide +kernel)
  have plain_output : ∀ s, output.Mentions s → '#' ∉ s.toList := fun s mentions => by
    have symbols : ((Dim.symbol "A").addNat 1).symbols = ["A"] := by decide
    rw [mentions_typeOf, symbols, List.mem_singleton] at mentions
    rw [mentions]
    decide
  exact ⟨fun _ => plain_grid, plain_output, f, failed, unanswered, chain_right⟩

end Supergraph

end OperatorNet
