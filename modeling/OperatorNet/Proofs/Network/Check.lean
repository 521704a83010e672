import OperatorNet.Network.Typing
import OperatorNet.Proofs.Bindings.Unification
import OperatorNet.Proofs.Faults
import OperatorNet.Proofs.Network.Wiring
import OperatorNet.Proofs.PortType.Agreement
import OperatorNet.Proofs.Results
import OperatorNet.Proofs.Tables

/-!
# What checking a network does

A wired network is checked by unifying its slots one after the other, from bindings that know
nothing and with places for suffixes (`Wired.derive_checked`). So it has no errors exactly when all
of its slots unify in this order (`Wired.errors_eq_nil_iff`).
-/

namespace OperatorNet.Network

variable {α : Type} {g : Network α}

/-- The suffixes that uses get when a network is checked. -/
def places (id : Int) : String :=
  placeSuffix id.toNat

/-- A derivation is what unification makes of it: it has new bindings, the given templates and no
further errors, or it has errors. -/
inductive Checked (errors : List SlotError) (templates : List (Int × PortType)) :
    Option Bindings → Derivation → Prop where
  | accepted {b} : Checked errors templates (some b) ⟨errors, b, templates⟩
  | refused {d} : d.errors ≠ [] → Checked errors templates none d

/-- A reported error is there. -/
lemma Derivation.errors_report (d : Derivation) (e : SlotError) : (d.report e).errors ≠ [] := by
  simp [Derivation.report]

/-- The check of a slot takes no error back. -/
lemma Derivation.errors_checkSlot {d : Derivation} (errors : d.errors ≠ []) (node : Int)
    (slot : Nat) (expected : PortType) (source : Ref) :
    (d.checkSlot node slot expected source).errors ≠ [] := by
  unfold Derivation.checkSlot
  split
  next => exact d.errors_report _
  next =>
    split
    next => exact errors
    next => exact d.errors_report _

/-- The check of some slots takes no error back. -/
lemma Derivation.errors_checkSlots {d : Derivation} (errors : d.errors ≠ []) (node : Int)
    (slot : Nat) (slots : List (PortType × Ref)) : (d.checkSlots node slot slots).errors ≠ [] := by
  induction slots generalizing d slot with
  | nil => exact errors
  | cons p rest ih => exact ih (Derivation.errors_checkSlot errors node slot p.1 p.2) (slot + 1)

/-- The check of a node takes no error back. -/
lemma Derivation.errors_checkNode {d : Derivation} (errors : d.errors ≠ []) (suffix : String)
    (n : Node α) : (d.checkNode suffix n).errors ≠ [] := by
  unfold Derivation.checkNode
  split
  next => exact errors
  next =>
    split
    next => exact Derivation.errors_report _ _
    next op _ _ =>
      exact Derivation.errors_checkSlots
        (d := { d with templates := d.templates ++ [(n.id, op.outType.freshen suffix)] })
          errors n.id 0 _

/-- The check of some nodes takes no error back. -/
lemma Derivation.errors_checkNodes {d : Derivation} (errors : d.errors ≠ []) (place : Nat)
    (nodes : List (Node α)) : (d.checkNodes place nodes).errors ≠ [] := by
  induction nodes generalizing d place with
  | nil => exact errors
  | cons n rest ih => exact ih (Derivation.errors_checkNode errors _ n) (place + 1)

/-- Slots whose sources are known are checked by unifying them. -/
lemma Derivation.checkSlots_checked {d : Derivation} {types : Ref → PortType}
    {slots : List (PortType × Ref)} (node : Int) (slot : Nat)
    (known : ∀ p ∈ slots, (p.2.id?.bind fun n => fetch n d.templates) = some (types p.2)) :
    Checked d.errors d.templates (d.bindings.unifySlots? (slots.map fun p => (p.1, types p.2)))
      (d.checkSlots node slot slots) := by
  induction slots generalizing d slot with
  | nil => exact .accepted
  | cons p rest ih =>
    have source := known p (by simp)
    rw [List.map_cons, Bindings.unifySlots?_cons, Derivation.checkSlots]
    cases unified : d.bindings.unify p.1 (types p.2) with
    | ok b =>
      have step : d.checkSlot node slot p.1 p.2 = { d with bindings := b } := by
        simp only [Derivation.checkSlot, source, unified]
      rw [step, Bindings.unify?_eq_some_iff.2 unified, Option.bind_some]
      exact ih (d := { d with bindings := b }) (slot + 1) fun q hq => known q (by simp [hq])
    | error m =>
      have step : (d.checkSlot node slot p.1 p.2).errors ≠ [] := by
        simp only [Derivation.checkSlot, source, unified]
        exact d.errors_report _
      have none : d.bindings.unify? p.1 (types p.2) = none := by
        rw [Bindings.unify?, unified]
        rfl
      rw [none, Option.bind_none]
      exact .refused (Derivation.errors_checkSlots step node (slot + 1) rest)

/-- What is listed under an id that comes once is found. -/
lemma fetch_map_of_mem {ν : Type} {f : Node α → ν} {nodes : List (Node α)}
    (distinct : (nodes.map (·.id)).Nodup) {m : Node α} (mem : m ∈ nodes) :
    fetch m.id (nodes.map fun n => (n.id, f n)) = some (f m) := by
  refine fetch_of_mem ?_ (List.mem_map_of_mem mem)
  rwa [List.map_map]

/-- The types of nodes by their ids, as a check derives them. -/
def placed (nodes : List (Node α)) : List (Int × PortType) :=
  nodes.map fun n => (n.id, n.typeUnder places)

section

variable {seen rest : List (Node α)} {n : Node α}

/-- The nodes up to one of them, in the order in which they are checked. -/
lemma Wired.ascending_upTo (wired : g.Wired) (nodes : g.nodes = (seen ++ [n]) ++ rest) :
    ((seen ++ [n]).map (·.id)).Pairwise (· < ·) ∧ ∀ m ∈ rest, n.id < m.id := by
  have order := wired.ascending
  rw [Network.ids, nodes, List.map_append, List.pairwise_append] at order
  exact ⟨order.1, fun m hm => order.2.2 n.id (by simp) m.id (List.mem_map_of_mem hm)⟩

/-- When a node is checked, the types of its sources are known. -/
lemma Wired.fetch_placed (wired : g.Wired) (nodes : g.nodes = (seen ++ [n]) ++ rest) {r : Ref}
    (input : r ∈ n.inputs) :
    (r.id?.bind fun i => fetch i (placed (seen ++ [n]))) = some (g.typeAt places r) := by
  obtain ⟨order, after⟩ := wired.ascending_upTo nodes
  have mem : n ∈ g.nodes := by simp [nodes]
  obtain ⟨m, hm, rfl, before⟩ := wired.exists_source mem input
  have earlier : m ∈ seen ++ [n] := by
    rw [nodes] at hm
    exact (List.mem_append.1 hm).resolve_right fun later => Int.lt_asymm before (after m later)
  simp only [Ref.id?_id, Option.bind_some, placed, typeAt, wired.find?_id hm, Option.map_some,
    Option.getD_some, fetch_map_of_mem (order.imp Int.ne_of_lt) earlier]

/-- A node of a wired network is checked by unifying its slots. -/
lemma Wired.checkNode_checked (wired : g.Wired) {d : Derivation}
    (nodes : g.nodes = (seen ++ [n]) ++ rest) (templates : d.templates = placed seen) :
    Checked d.errors (placed (seen ++ [n])) (d.bindings.unifySlots? (g.slotsOf places n))
      (d.checkNode (places n.id) n) := by
  have type : placed (seen ++ [n]) = d.templates ++ [(n.id, n.typeUnder places)] := by
    rw [templates, placed, placed, List.map_append]
    rfl
  unfold Derivation.checkNode
  cases op : n.operator with
  | none =>
    have own : n.typeUnder places = n.template := by rw [Node.typeUnder, op]
    rw [slotsOf_input places op, type, own]
    exact .accepted
  | some o =>
    have own : n.typeUnder places = o.outType.freshen (places n.id) := by rw [Node.typeUnder, op]
    have arity : n.inputs.length = o.arity := by
      rw [(wired.nodes n (by simp [nodes])).arity, op]
      rfl
    simp only [arity, ne_eq, not_true_eq_false, if_false]
    rw [← own, ← type, slotsOf_use places op]
    exact Derivation.checkSlots_checked (d := { d with templates := placed (seen ++ [n]) }) n.id 0
      fun p hp => wired.fetch_placed nodes (List.of_mem_zip hp).2

/-- The nodes of a wired network are checked by unifying their slots. -/
lemma Wired.checkNodes_checked (wired : g.Wired) {d : Derivation}
    (nodes : g.nodes = seen ++ rest) (templates : d.templates = placed seen) :
    Checked d.errors (placed g.nodes) (d.bindings.unifySlots? (rest.flatMap (g.slotsOf places)))
      (d.checkNodes seen.length rest) := by
  -- induction on the nodes that are still to be checked; the place of a node is how many were seen
  induction rest generalizing seen d with
  | nil =>
    rw [List.append_nil] at nodes
    rw [nodes, ← templates]
    exact .accepted
  | cons n rest ih =>
    have suffix : placeSuffix seen.length = places n.id := by
      rw [places, wired.ids seen.length n (by simp [nodes]), Int.toNat_natCast]
    have next : g.nodes = (seen ++ [n]) ++ rest := by
      rw [nodes, List.append_assoc]
      rfl
    have step := wired.checkNode_checked next templates
    rw [List.flatMap_cons, Bindings.unifySlots?_append, Derivation.checkNodes]
    change Checked d.errors _ _ ((d.checkNode (placeSuffix seen.length) n).checkNodes _ rest)
    rw [suffix]
    revert step
    generalize d.checkNode (places n.id) n = d₁
    intro step
    cases unified : d.bindings.unifySlots? (g.slotsOf places n) with
    | none =>
      rw [unified] at step
      cases step with
      | refused errors => exact .refused (Derivation.errors_checkNodes errors _ rest)
    | some b =>
      rw [unified] at step
      cases step with
      | accepted =>
        have later := ih (d := ⟨d.errors, b, placed (seen ++ [n])⟩) next rfl
        rwa [List.length_append] at later

end

/-- A wired network with an output is checked by unifying its slots. -/
theorem Wired.derive_checked (wired : g.Wired) (output : g.outputId.isSome) :
    Checked [] (placed g.nodes) (Bindings.empty.unifySlots? (g.slots places)) g.derive := by
  unfold derive
  rw [wired.order_eq]
  have chosen : g.outputId.isNone = false := by
    cases out : g.outputId with
    | none => rw [out] at output; cases output
    | some _ => rfl
  simp only [chosen, wired.filterMap_find?]
  exact wired.checkNodes_checked (d := .empty) (List.nil_append g.nodes).symm rfl

/-- A wired network with an output has no errors exactly when its slots unify one after the
other. -/
theorem Wired.errors_eq_nil_iff (wired : g.Wired) (output : g.outputId.isSome) :
    g.errors = [] ↔ (Bindings.empty.unifySlots? (g.slots places)).isSome := by
  have checked := wired.derive_checked output
  unfold errors
  revert checked
  generalize g.derive = d
  cases Bindings.empty.unifySlots? (g.slots places) <;> intro checked <;> cases checked
  case none.refused errors => exact ⟨fun none => absurd none errors, nofun⟩
  case some.accepted => exact ⟨fun _ => rfl, fun _ => rfl⟩

/-- Where nodes can be looked up, a check passes when there are no errors. -/
lemma validate_eq_nil_iff_of_checks
    (checks : (g.nodes.forM fun n => n.inputs.forM Ref.check) = .ok ⟨⟩) :
    g.validate = .ok [] ↔ g.errors = [] := by
  rw [validate, checks]
  change (requireWritable _ >>= fun _ => pure g.errors) = .ok [] ↔ _
  rw [requireWritable_bind_eq_ok, pure_eq_ok]
  exact and_iff_right_of_imp fun none => by rw [none]; rfl

/-- A wired network with an output passes a check exactly when its slots unify one after the
other. -/
lemma Wired.validate_eq_nil_iff (wired : g.Wired) (output : g.outputId.isSome) :
    g.validate = .ok [] ↔ (Bindings.empty.unifySlots? (g.slots places)).isSome := by
  rw [← wired.errors_eq_nil_iff output]
  refine validate_eq_nil_iff_of_checks (forM_eq_ok fun n hn => forM_eq_ok fun r hr => ?_)
  obtain ⟨m, -, rfl, -⟩ := wired.exists_source hn hr
  rfl

end OperatorNet.Network
