import OperatorNet.Proofs.Bindings.Equivariance
import OperatorNet.Proofs.Network.Declared
import OperatorNet.Proofs.Network.Soundness
import OperatorNet.Proofs.Network.Specification

/-!
# Exchanging networks as documents

A network over a catalog is written as a document, and the catalog reads the document again. That
comes to an end exactly when no number is too long on the way, the parameters can be restored, and
the network with its known types for templates passes a check (`Reloadable`); the network that is
read is a copy then, whose types are those of the network up to the names of symbols
(`reload_document_performAll_iff`).

A network with types that are up to date can be written when the types can: a symbol that stands for
something occurs in a slot, and so what it stands for is part of a type (`WellBuilt.hasTerms`).
-/

namespace OperatorNet

/-- The same node as far as wiring goes. -/
structure Node.Copies {α : Type} (n n' : Node α) : Prop where
  id : n'.id = n.id
  name : n'.name = n.name
  operator : n'.operator = n.operator
  inputs : n'.inputs = n.inputs
  inserted : n'.inserted = n.inserted

namespace Network

/-- The document of a network. -/
def document (g : Network Float) : Except Fault (Data Float) := do
  return (← g.toSpec).toData

/-- The network that a catalog reads from a document. -/
def reload (c : Catalog Float) (d : Data Float) : Except Fault (Network Float) := do
  ofSpec c (← (Spec.ofData d).toExcept)

/-- The same network as far as wiring goes. -/
structure Copies {α : Type} (g g' : Network α) : Prop where
  id : g'.id = g.id
  nodes : List.Forall₂ Node.Copies g.nodes g'.nodes
  inputIds : g'.inputIds = g.inputIds
  outputId : g'.outputId = g.outputId

/-- The known types of the second network are those of the first one under new names. -/
def Retyped {α : Type} (π : String → String) (g g' : Network α) : Prop :=
  List.Forall₂ (fun n n' => n'.resolved = n.resolved.rename π) g.nodes g'.nodes

/-- The second network is read by a catalog from the document of the first one. -/
def RoundTrips (c : Catalog Float) (g g' : Network Float) : Prop :=
  ∃ d, g.document = .ok d ∧ reload c d = .ok g'

/-- The parameters of all nodes can be restored from their documents. -/
def Restores (g : Network Float) : Prop :=
  ∀ n ∈ g.nodes, ∃ params, n.restore = .ok params

/-- What it takes to read a network again: its bindings and types can be written, its parameters can
be restored, and with its known types for templates it passes a check, from which types come that
can be written. -/
structure Reloadable (g : Network Float) : Prop where
  told : g.bindings.hasTerms
  writable : g.Writable
  restores : g.Restores
  settled : g.settled.validate = .ok []
  again : ∀ b, Bindings.empty.unifySlots? (g.settled.slots places) = some b →
    ∀ n ∈ g.nodes, (b.resolveType (n.settle.typeUnder places)).Writable

variable {c : Catalog Float} {g g' : Network Float} {κ : Int → Nat} {out : Int} {b : Bindings}

/-- The nodes of a network that is read again have types that were checked again. -/
lemma nodes_reread (g : Network Float) (out : Int) (b : Bindings) :
    (g.reread out b).nodes = g.nodes.map fun n =>
      { n with
        template := n.settle.typeUnder places
        resolved := b.resolveType (n.settle.typeUnder places)
        params := n.settle.restored.params } := by
  simp only [reread, renewed, refresh, candidate, unchecked, settled, mapNodes, List.map_map]
  rfl

/-- A network that is read again is a copy. -/
lemma copies_reread (chosen : g.outputId = some out) (b : Bindings) :
    Copies g (g.reread out b) := by
  refine ⟨rfl, ?_, rfl, chosen.symm⟩
  rw [nodes_reread, List.forall₂_map_right_iff, List.forall₂_same]
  exact fun n _ => ⟨rfl, rfl, rfl, rfl, rfl⟩

/-- A network that is read again has its types under new names. -/
lemma WellBuilt.retyped_reread (built : WellBuilt g κ) (clear : g.Clear)
    (unified : Bindings.empty.unifySlots? (g.settled.slots places) = some b) :
    ∃ π, Set.InjOn π {s | g.Shows s} ∧ Retyped π g (g.reread out b) := by
  obtain ⟨π, injective, types⟩ := built.exists_rename clear unified
  refine ⟨π, injective, ?_⟩
  rw [Retyped, nodes_reread, List.forall₂_map_right_iff, List.forall₂_same]
  exact types

/-- A settled network passes a check when its slots unify. -/
lemma Wired.validate_settled_iff (wired : g.Wired) (output : g.outputId.isSome) :
    g.settled.validate = .ok [] ↔
      ∃ b, Bindings.empty.unifySlots? (g.settled.slots places) = some b := by
  rw [wired.settled.validate_eq_nil_iff output, Option.isSome_iff_exists]

/-- The listed inputs are nodes of the network. -/
lemma Assembled.mem_ids_of_mem_inputIds {α : Type} {g : Network α} (built : Assembled g κ) :
    ∀ i ∈ g.inputIds, i ∈ g.ids := by
  intro i hi
  rw [built.inputIds] at hi
  obtain ⟨n, hn, rfl⟩ := List.mem_map.1 hi
  exact List.mem_map_of_mem (List.mem_filter.1 hn).1

/-- An assembled network with an output has a specification where its bindings can be written. -/
lemma Assembled.toSpec_eq_ok_iff {α : Type} {g : Network α} (built : Assembled g κ)
    (chosen : g.outputId = some out) {s : Spec α} :
    g.toSpec = .ok s ↔ g.bindings.hasTerms ∧ s = g.spec out := by
  rw [built.wired.toSpec_eq built.mem_ids_of_mem_inputIds chosen (built.outputId out chosen)]
  split
  next can => exact ⟨fun eq => ⟨can, (Except.ok.inj eq).symm⟩, fun written => written.2 ▸ rfl⟩
  next cannot => exact ⟨nofun, fun written => absurd written.1 cannot⟩

/-- An assembled network has a document when what it knows can be written. -/
lemma Assembled.document_eq_ok_iff (built : Assembled g κ) (chosen : g.outputId = some out)
    {d : Data Float} : g.document = .ok d ↔ g.bindings.hasTerms ∧ d = (g.spec out).toData := by
  simp only [document, bind_eq_ok, built.toSpec_eq_ok_iff chosen, pure_eq_ok]
  constructor
  · rintro ⟨_, ⟨can, rfl⟩, rfl⟩
    exact ⟨can, rfl⟩
  · rintro ⟨can, rfl⟩
    exact ⟨_, ⟨can, rfl⟩, rfl⟩

/-- A network that was read again can be written when its known types can. -/
lemma writable_reread : (g.reread out b).Writable ↔
    ∀ n ∈ g.nodes, (b.resolveType (n.settle.typeUnder places)).Writable := by
  rw [Network.Writable, nodes_reread, List.forall_mem_map]

/-- A catalog reads the document of a network that keeps to it as the network with its types checked
again, if it reads it. -/
lemma Assembled.reload_eq_ok_iff (built : Assembled g κ) (declared : Declared c g)
    (chosen : g.outputId = some out) : reload c (g.spec out).toData = .ok g' ↔
      g.Writable ∧ g.Restores ∧ ∃ b, Bindings.empty.unifySlots? (g.settled.slots places) = some b ∧
        g'.Writable ∧ g' = g.reread out b := by
  have normal : ∀ s ∈ (g.spec out).nodes, s.type.Normal := by
    intro s hs
    obtain ⟨n, hn, rfl⟩ := List.mem_map.1 hs
    exact declared.known n hn
  have writable : (∀ s ∈ (g.spec out).nodes, s.type.Writable) ↔ g.Writable := List.forall_mem_map
  have flaw := built.wired.flaw?_spec built.mem_ids_of_mem_inputIds (built.outputId out chosen)
  rw [reload, bind_eq_ok]
  simp only [Check.toExcept_eq_ok, Spec.ofData_toData_iff normal, writable, flaw, true_and]
  rw [Restores, ← built.wired.ofSpec_eq_ok_iff out declared.operators]
  constructor
  · rintro ⟨_, ⟨written, rfl⟩, read⟩
    exact ⟨written, read⟩
  · rintro ⟨written, read⟩
    exact ⟨_, ⟨written, rfl⟩, read⟩

/-- What is read from the document of a network that keeps to a catalog is the network with its
types checked again. -/
lemma Assembled.roundTrips_iff (built : Assembled g κ) (declared : Declared c g)
    (chosen : g.outputId = some out) : RoundTrips c g g' ↔ g.Reloadable ∧
      ∃ b, Bindings.empty.unifySlots? (g.settled.slots places) = some b ∧ g' = g.reread out b := by
  have passes := built.wired.validate_settled_iff (by rw [chosen]; rfl)
  simp only [RoundTrips, built.document_eq_ok_iff chosen]
  constructor
  · rintro ⟨_, ⟨told, rfl⟩, read⟩
    obtain ⟨writable, restores, b, unified, again, rfl⟩ :=
      (built.reload_eq_ok_iff declared chosen).1 read
    refine ⟨⟨told, writable, restores, passes.2 ⟨b, unified⟩, fun b' unified' => ?_⟩, b,
      unified, rfl⟩
    obtain rfl := Option.some.inj (unified.symm.trans unified')
    exact writable_reread.1 again
  · rintro ⟨reloadable, b, unified, rfl⟩
    exact ⟨_, ⟨reloadable.told, rfl⟩,
      (built.reload_eq_ok_iff declared chosen).2 ⟨reloadable.writable,
      reloadable.restores, b, unified, writable_reread.2 (reloadable.again b unified), rfl⟩⟩

/-- A network that keeps to a catalog is read from its document exactly when it is reloadable. -/
lemma Assembled.exists_roundTrips_iff (built : Assembled g κ) (declared : Declared c g)
    (chosen : g.outputId = some out) : (∃ g', RoundTrips c g g') ↔ g.Reloadable := by
  simp only [built.roundTrips_iff declared chosen]
  refine ⟨fun ⟨_, reloadable, _⟩ => reloadable, fun reloadable => ?_⟩
  obtain ⟨b, unified⟩ :=
    (built.wired.validate_settled_iff (by rw [chosen]; rfl)).1 reloadable.settled
  exact ⟨_, reloadable, b, unified, rfl⟩

/-! ## What can be written -/

end Network

/-- What a symbol of a dimension stands for has a canonical writing where the dimension has one. -/
lemma Bindings.hasTerm_resolve_symbol {b : Bindings} {d : Dim} {s : String} (mem : s ∈ d.symbols)
    (can : (b.resolve d).hasTerm) : (b.resolve (.symbol s)).hasTerm := by
  rw [Dim.hasTerm_iff] at can ⊢
  refine can.imp (fun concrete => ?_) fun short => lt_of_le_of_lt ?_ short
  · rw [Dim.isConcrete_iff, List.eq_nil_iff_forall_not_mem] at concrete ⊢
    intro t left
    refine concrete t ?_
    rw [← substitute_resolve_symbol]
    exact Dim.mem_symbols_substitute.2 ⟨s, mem, left⟩
  · -- with all that is left open at zero, a dimension is not less than any of its symbols
    rw [← Dim.eval_zero, ← Dim.eval_zero, eval_resolve_eq_extend _ _ d]
    exact Dim.le_eval_of_mem (b.extend fun _ => 0) mem

/-- Renaming keeps types that can be written. -/
lemma PortType.writable_rename {π : String → String} {t : PortType} :
    (t.rename π).Writable ↔ t.Writable := by
  have const (d : Dim) : (d.rename π).const = d.const := by
    rw [← Dim.eval_zero, Dim.eval_rename, Dim.eval_zero]
  rw [Writable, rename, mapDims, List.forall_mem_map]
  refine forall₂_congr fun d _ => ?_
  rw [Dim.isConcrete_rename, const]

namespace Network

/-- A symbol that occurs in no slot stands for nothing but itself. -/
lemma Assembled.free_of_slots (built : Assembled g κ) {s : String}
    (absent : ∀ p ∈ g.slots (counted κ), p.1.Within (· ≠ s) ∧ p.2.Within (· ≠ s)) :
    g.bindings.Free s := by
  by_contra solved
  obtain ⟨σ, satisfied⟩ := built.wellFormed.satisfiable
  -- another value for the symbol changes no slot, and so nothing that it could stand for
  let τ := Function.update σ s (σ s + 1)
  have values (t : PortType) (within : t.Within (· ≠ s)) :
      t.shape.map (Dim.eval τ) = t.shape.map (Dim.eval σ) :=
    List.map_congr_left fun d hd => Dim.eval_congr fun u hu =>
      Function.update_of_ne (within d hd u hu) (σ s + 1) σ
  have also : g.bindings.Satisfies τ := by
    refine (built.satisfies_iff τ).2 fun p hp => ?_
    obtain ⟨left, right⟩ := absent p hp
    have agree := (built.satisfies_iff σ).1 satisfied p hp
    exact ⟨agree.kind, agree.metric,
      agree.group, by rw [values _ left, values _ right, agree.values]⟩
  have same : (g.bindings.resolve (.symbol s)).eval τ = (g.bindings.resolve (.symbol s)).eval σ :=
    built.wellFormed.eval_resolve_congr (fun u free =>
      Function.update_of_ne (by rintro rfl; exact solved free) (σ s + 1) σ) _
  rw [Bindings.eval_resolve also, Bindings.eval_resolve satisfied, Dim.eval_symbol,
    Dim.eval_symbol] at same
  change Function.update σ s (σ s + 1) s = σ s at same
  rw [Function.update_self] at same
  omega

/-- Both sides of a slot resolve to the known type of a node. -/
lemma WellBuilt.exists_known (built : WellBuilt g κ) {p : PortType × PortType}
    (slot : p ∈ g.slots (counted κ)) : ∃ m ∈ g.nodes,
      g.bindings.resolveType p.1 = m.resolved ∧ g.bindings.resolveType p.2 = m.resolved := by
  have same : g.bindings.resolveType p.1 = g.bindings.resolveType p.2 :=
    built.wellFormed.resolveType_eq_iff.2 fun σ satisfied =>
      (built.satisfies_iff σ).1 satisfied p slot
  obtain ⟨n, hn, at_⟩ := List.mem_flatMap.1 slot
  obtain ⟨r, hr, type⟩ := List.mem_map.1 (List.of_mem_zip at_).2
  obtain ⟨m, hm, rfl, -⟩ := built.wired.exists_source hn hr
  rw [built.typeAt_id hm] at type
  have known := built.resolved m hm
  rw [type] at known
  exact ⟨m, hm, same.trans known.symm, known.symm⟩

/-- Where all known types are up to date and can be written, so can the bindings. -/
lemma WellBuilt.hasTerms (built : WellBuilt g κ) (can : g.Writable) : g.bindings.hasTerms := by
  rw [Bindings.hasTerms, List.all_eq_true]
  intro s _
  by_contra cannot
  have absent {t : PortType} (writable : (g.bindings.resolveType t).Writable) :
      t.Within (· ≠ s) := by
    rintro d hd _ hs rfl
    refine cannot (Bindings.hasTerm_resolve_symbol hs (Dim.hasTerm_iff.2 ?_))
    exact writable _ (List.mem_map_of_mem hd)
  have free := built.free_of_slots fun p hp => by
    obtain ⟨m, hm, left, right⟩ := built.exists_known hp
    exact ⟨absent (left ▸ can m hm), absent (right ▸ can m hm)⟩
  rw [Bindings.resolve_symbol_of_free free] at cannot
  exact cannot (Dim.hasTerm_iff.2 (.inr (lt_unwritable (Nat.zero_lt_succ 9))))

/-- A network with types that are up to date and can be written has a document, and it is read again
exactly when its parameters can be restored and it passes a check with its known types for
templates. -/
lemma WellBuilt.reloadable_iff (built : WellBuilt g κ) (can : g.Writable) (clear : g.Clear) :
    g.Reloadable ↔ g.Restores ∧ g.settled.validate = .ok [] := by
  refine ⟨fun reloadable => ⟨reloadable.restores, reloadable.settled⟩, fun ⟨restores, settled⟩ =>
    ⟨built.hasTerms can, can, restores, settled, fun b unified n hn => ?_⟩⟩
  obtain ⟨π, -, types⟩ := built.exists_rename clear unified
  rw [types n hn, PortType.writable_rename]
  exact can n hn

/-- A network on which calls were made that keep to a catalog is written and read again exactly when
it is reloadable, and the network that is read is a copy. Unless a number was too long after the
last use was added, it is written. If moreover no input uses a local name, all that matters is that
its parameters can be restored and that it passes a check with its known types for templates, and
the types that are read are its types up to the names of symbols. -/
theorem reload_document_performAll_iff (reachable : c.Reachable) (normal : c.Normal) (id : String)
    (calls : List (Call Float)) (own : ∀ step ∈ calls, step.Declared c)
    (output : (performAll c (empty id) calls).2.outputId.isSome) :
    let made := performAll c (empty id) calls
    ((∃ g', RoundTrips c made.2 g') ↔ made.2.Reloadable) ∧
      (∀ g', RoundTrips c made.2 g' → Copies made.2 g') ∧
      ((∀ o ∈ sinceUse made.1, ¬ o.tooLong) → (∃ d, made.2.document = .ok d) ∧
        (made.2.Clear → (made.2.Reloadable ↔ made.2.Restores ∧ made.2.settled.validate = .ok []) ∧
          ∀ g', RoundTrips c made.2 g' →
            ∃ π, Set.InjOn π {s | made.2.Shows s} ∧ Retyped π made.2 g')) := by
  obtain ⟨κ, built⟩ := assembled_performAll reachable id calls
  have declared := declared_performAll reachable normal id own
  have current := current_performAll reachable id calls
  obtain ⟨out, chosen⟩ := Option.isSome_iff_exists.1 output
  refine ⟨built.exists_roundTrips_iff declared chosen, fun g' read => ?_, fun short => ?_⟩
  · obtain ⟨-, b, -, rfl⟩ := (built.roundTrips_iff declared chosen).1 read
    exact copies_reread chosen b
  obtain ⟨upToDate, writable⟩ := current short
  have wellBuilt : WellBuilt _ κ := ⟨built, upToDate⟩
  refine ⟨⟨_, (built.document_eq_ok_iff chosen).2 ⟨wellBuilt.hasTerms writable, rfl⟩⟩, fun clear =>
    ⟨wellBuilt.reloadable_iff writable clear, fun g' read => ?_⟩⟩
  obtain ⟨-, b, unified, rfl⟩ := (built.roundTrips_iff declared chosen).1 read
  exact wellBuilt.retyped_reread clear unified

namespace Sample

/-- An operator that puts a value onto an axis. -/
def lengthen : Operator Float :=
  typed "Lengthen" [typeOf "path" [.symbol "T"]]
    (typeOf "feature" [(Dim.symbol "T").addNat 1]) false

/-- The catalog with these two operators. -/
def sizing : Catalog Float :=
  bare.extend [shorten, lengthen] (by decide)

/-- The two operators can be registered. -/
lemma reachable_sizing : sizing.Reachable := by
  refine .extend (.ofKinds _ _) rfl ?_ _
  exact List.forall_mem_cons.2 ⟨rfl, List.forall_mem_singleton.2 rfl⟩

/-- The types of the two operators are as types are read. -/
lemma normal_sizing : sizing.Normal := by
  unfold Catalog.Normal
  decide +kernel

/-- An open axis is given to an operator. -/
def sized (op : Operator Float) : List (Call Float) :=
  [.input "x" (typeOf "path" [.symbol "A"]), .node (.given op) [0] .empty, .output 1]

/-- The calls keep to the catalog. -/
lemma declared_sized (op : Operator Float) (registered : op ∈ sizing.registered) :
    ∀ step ∈ sized op, step.Declared sizing := by
  have input : (typeOf "path" [.symbol "A"]).Normal := by decide +kernel
  simp only [sized, List.forall_mem_cons]
  exact ⟨input, registered, trivial, fun _ mem => absurd mem List.not_mem_nil⟩

end Sample

open Sample in
/-- An open axis that is lengthened comes back under another name. -/
theorem reload_lengthened :
    sizing.Reachable ∧ sizing.Normal ∧ (∀ step ∈ sized lengthen, step.Declared sizing) ∧
      let made := performAll sizing (empty "g") (sized lengthen)
      (∀ o ∈ sinceUse made.1, ¬ o.tooLong) ∧ made.2.outputId.isSome ∧ made.2.Clear ∧
        ∃ g', RoundTrips sizing made.2 g' ∧ Copies made.2 g' ∧
          ∃ π, Set.InjOn π {s | made.2.Shows s} ∧ Retyped π made.2 g' := by
  have own := declared_sized lengthen (by simp [sizing, Catalog.extend])
  have short : ∀ o ∈ sinceUse (performAll sizing (empty "g") (sized lengthen)).1, ¬ o.tooLong := by
    decide +kernel
  have output : (performAll sizing (empty "g") (sized lengthen)).2.outputId.isSome := by
    decide +kernel
  have clear : (performAll sizing (empty "g") (sized lengthen)).2.Clear :=
    clear_of_plain (by decide +kernel)
  have restores : (performAll sizing (empty "g") (sized lengthen)).2.Restores := fun n hn =>
    have all : ∀ n ∈ (performAll sizing (empty "g") (sized lengthen)).2.nodes, n.restore.isOk := by
      decide +kernel
    ⟨_, eq_ok_getD (all n hn)⟩
  obtain ⟨κ, built⟩ := assembled_performAll reachable_sizing "g" (sized lengthen)
  have passes := (built.wired.validate_settled_iff output).2
    (Option.isSome_iff_exists.1 (by decide +kernel))
  obtain ⟨reads, copies, current⟩ :=
    reload_document_performAll_iff reachable_sizing normal_sizing "g" _ own output
  obtain ⟨reloadable, types⟩ := (current short).2 clear
  obtain ⟨g', read⟩ := reads.2 (reloadable.2 ⟨restores, passes⟩)
  exact ⟨reachable_sizing, normal_sizing, own, short, output, clear, g', read, copies g' read,
    types g' read⟩

open Sample in
/-- An open axis that is shortened becomes a sum, which is not read again: the sum is met by the
same sum of another symbol. -/
theorem reload_shortened_ne_ok :
    ¬ ∀ (c : Catalog Float), c.Reachable → c.Normal → ∀ id (calls : List (Call Float)),
      (∀ step ∈ calls, step.Declared c) → (∀ o ∈ (performAll c (empty id) calls).1, o.2.isOk) →
        (performAll c (empty id) calls).2.outputId.isSome →
        ∃ g', RoundTrips c (performAll c (empty id) calls).2 g' := by
  intro always
  have own := declared_sized shorten (by simp [sizing, Catalog.extend])
  have read := always sizing reachable_sizing normal_sizing "g" (sized shorten) own
    (by decide +kernel) (by decide +kernel)
  obtain ⟨κ, built⟩ := assembled_performAll reachable_sizing "g" (sized shorten)
  have declared := declared_performAll reachable_sizing normal_sizing "g" own
  have chosen : (performAll sizing (empty "g") (sized shorten)).2.outputId = some 1 := by
    decide +kernel
  have passes := ((built.exists_roundTrips_iff declared chosen).1 read).settled
  have counted := congrArg (fun errors => errors.toOption.map List.length) passes
  revert counted
  decide +kernel

end Network

end OperatorNet
