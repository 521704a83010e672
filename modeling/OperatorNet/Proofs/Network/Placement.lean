import Mathlib.Logic.Function.Basic
import OperatorNet.Proofs.Bindings.Renaming
import OperatorNet.Proofs.Network.Construction

/-!
# Placing adapters

Every use of an operator in a network that is being built has a suffix of its own, a number
(`Labelled`). Feeding slots and placing the adapters keeps this so (`Feeds.placement`), and the
bindings that come out are satisfied by exactly those assignments that satisfied the ones before and
under which the slots of the adapters and the slots that are fed agree (`Feeds.refines`).
-/

namespace OperatorNet.Network

variable {α : Type} {g h : Network α}

/-- The suffixes that uses get from their numbers. -/
def counted (κ : Int → Nat) (id : Int) : String :=
  toString (κ id)

/-- A wired network in which each use of an operator has a number of its own, which all symbols of
its templates come from. -/
structure Labelled (g : Network α) (κ : Int → Nat) : Prop where
  wired : g.Wired
  apart : ∀ m ∈ g.nodes, ∀ n ∈ g.nodes, m.operator.isSome → n.operator.isSome →
    κ m.id = κ n.id → m.id = n.id
  template : ∀ n ∈ g.nodes, n.template = n.typeUnder (counted κ)

/-- The template at an id is that of its node. -/
lemma Wired.templateAt_id (wired : g.Wired) {n : Node α} (mem : n ∈ g.nodes) :
    g.templateAt n.id = n.template := by
  rw [templateAt, wired.find?_id mem]
  rfl

namespace Labelled

variable {κ : Int → Nat} (lab : Labelled g κ)

include lab

/-- The type at an id is the template of its node. -/
lemma typeAt_id {n : Node α} (mem : n ∈ g.nodes) :
    g.typeAt (counted κ) (.id n.id) = n.template := by
  simp only [typeAt, Ref.id?_id, Option.bind_some, lab.wired.find?_id mem, Option.map_some,
    Option.getD_some]
  exact (lab.template n mem).symm

/-- The ids of nodes are below the next id. -/
lemma id_lt {n : Node α} (mem : n ∈ g.nodes) : n.id < g.nextId :=
  lab.wired.numbered.below n.id (List.mem_map_of_mem mem)

/-- A number for the next id leaves those of the nodes. -/
lemma update_of_mem {n : Node α} (mem : n ∈ g.nodes) (k : Nat) :
    Function.update κ g.nextId k n.id = κ n.id :=
  Function.update_of_ne (Int.ne_of_lt (lab.id_lt mem)) _ _

/-- One more node may have any number that no use of an operator has. -/
lemma append {n : Node α} {k : Nat} (new : n.Wired) (id : n.id = g.nextId)
    (template : n.template = n.typeUnder fun _ => toString k)
    (unused : n.operator.isSome → ∀ m ∈ g.nodes, m.operator.isSome → κ m.id ≠ k) :
    Labelled (g.append n) (Function.update κ g.nextId k) := by
  have own : Function.update κ g.nextId k n.id = k := by
    rw [id, Function.update_self]
  refine ⟨lab.wired.append new id, ?_, ?_⟩
  · intro m hm m' hm' uses uses' same
    rcases List.mem_append.1 hm with old | last <;> rcases List.mem_append.1 hm' with old' | last'
    · rw [lab.update_of_mem old, lab.update_of_mem old'] at same
      exact lab.apart m old m' old' uses uses' same
    · rw [List.mem_singleton] at last'
      subst last'
      rw [lab.update_of_mem old, own] at same
      exact absurd same (unused uses' m old uses)
    · rw [List.mem_singleton] at last
      subst last
      rw [lab.update_of_mem old', own] at same
      exact absurd same.symm (unused uses m' old' uses')
    · rw [List.mem_singleton] at last last'
      rw [last, last']
  · intro m hm
    rcases List.mem_append.1 hm with old | last
    · rw [lab.template m old]
      exact Node.typeUnder_congr (congrArg toString (lab.update_of_mem old k).symm)
    · rw [List.mem_singleton] at last
      subst last
      rw [template]
      exact Node.typeUnder_congr (by rw [counted, own])

/-- Only the nodes matter. -/
lemma of_nodes {g' : Network α} (nodes : g'.nodes = g.nodes) (next : g'.nextId = g.nextId) :
    Labelled g' κ := by
  refine ⟨⟨?_, ?_, ?_⟩, ?_, ?_⟩
  · rw [nodes]
    exact lab.wired.ids
  · rw [nodes, next]
    exact lab.wired.next
  · rw [nodes]
    exact lab.wired.nodes
  · rw [nodes]
    exact lab.apart
  · rw [nodes]
    exact lab.template

/-- What is known about types does not matter. -/
lemma refresh : Labelled g.refresh κ := by
  have from_old : ∀ n ∈ g.refresh.nodes, ∃ m ∈ g.nodes, n = m.refresh g.bindings := fun n hn => by
    obtain ⟨m, hm, rfl⟩ := List.mem_map.1 hn
    exact ⟨m, hm, rfl⟩
  refine ⟨lab.wired.refresh, ?_, ?_⟩
  · intro m hm n hn uses uses' same
    obtain ⟨m₀, hm₀, rfl⟩ := from_old m hm
    obtain ⟨n₀, hn₀, rfl⟩ := from_old n hn
    exact lab.apart m₀ hm₀ n₀ hn₀ uses uses' same
  · intro n hn
    obtain ⟨m, hm, rfl⟩ := from_old n hn
    exact lab.template m hm

end Labelled

/-- What the network with the adapters of feeds is, where the adapters are numbered from `k` up to
`k'` and the number `r` is kept for another use. -/
structure Placement (g h : Network α) (κ : Int → Nat) (feeds : List (Feed α)) (r k k' : Nat)
    (κ' : Int → Nat) : Prop where
  labelled : Labelled (h.place feeds).2 κ'
  kept : ∀ n ∈ h.nodes, n ∈ (h.place feeds).2.nodes ∧ κ' n.id = κ n.id
  below : ∀ n ∈ (h.place feeds).2.nodes, n.operator.isSome → κ' n.id < k' ∧ κ' n.id ≠ r
  fresh : ∀ n ∈ (h.place feeds).2.nodes, n ∈ h.nodes ∨ n.operator.isSome ∧ k ≤ κ' n.id
  numbers : ∀ j, k ≤ j → j < k' →
    ∃ n ∈ (h.place feeds).2.nodes, n.operator.isSome ∧ κ' n.id = j
  inputs : (h.place feeds).2.nodes.filter Node.isInput = h.nodes.filter Node.isInput
  slots : (h.place feeds).2.slots (counted κ') = h.slots (counted κ) ++ g.adapterSlots k feeds
  sources : ∀ i ∈ (h.place feeds).1, ∃ n ∈ (h.place feeds).2.nodes, n.id = i
  types : ((h.place feeds).1.map fun i => (h.place feeds).2.typeAt (counted κ') (.id i)) =
    feeds.map g.feedType

/-- The node of an adapter that reads from a node that is there is wired. -/
lemma Labelled.wired_adapterNode {κ : Int → Nat} (lab : Labelled h κ) {n : Node α}
    (there : n ∈ h.nodes) {a : Operator α} (unary : a.arity = 1) (type : PortType) :
    (adapterNode a h.nextId n.id type).Wired := by
  refine ⟨unary.symm, fun r hr => ?_, rfl⟩
  obtain ⟨i, id, bound, -⟩ := lab.wired.exists_place there
  rw [List.mem_singleton.1 hr, id]
  refine ⟨i, rfl, ?_⟩
  change (i : Int) < h.nextId
  rw [lab.wired.next]
  omega

/-- An adapter adds its own slots, which the node that it reads from reaches. -/
lemma Labelled.slots_append_adapter {κ : Int → Nat} (lab : Labelled h κ) {n : Node α}
    (there : n ∈ h.nodes) (a : Operator α) (k : Nat) (type : PortType) :
    (h.append (adapterNode a h.nextId n.id type)).slots (counted (Function.update κ h.nextId k)) =
      h.slots (counted κ) ++ (a.inTypes.map (·.freshen (toString k))).zip [n.template] := by
  let node := adapterNode a h.nextId n.id type
  have step := lab.wired.slots_append (counted κ) (counted (Function.update κ h.nextId k)) node
    (fun m hm => congrArg toString (lab.update_of_mem hm k))
    fun r hr => ⟨n, there, List.mem_singleton.1 hr⟩
  have read : node.inputs.map (h.typeAt (counted κ)) = [n.template] := by
    rw [show node.inputs = [.id n.id] from rfl, List.map_singleton, lab.typeAt_id there]
  have takes : node.takes (counted (Function.update κ h.nextId k)) =
      a.inTypes.map (·.freshen (toString k)) := by
    change a.inTypes.map (·.freshen (toString (Function.update κ h.nextId k h.nextId))) = _
    rw [Function.update_self]
  rw [step, read, takes]

namespace Placement

variable {κ κ' : Int → Nat} {feeds : List (Feed α)} {r k k' : Nat} {n : Node α}

/-- Nothing is placed for a slot that is fed directly. -/
lemma direct (placed : Placement g h κ feeds r k k' κ') (wired : g.Wired) (mem : n ∈ g.nodes)
    (there : n ∈ h.nodes) : Placement g h κ (.direct n.id :: feeds) r k k' κ' := by
  refine ⟨placed.labelled, placed.kept, placed.below, placed.fresh, placed.numbers, placed.inputs,
    placed.slots, ?_, ?_⟩
  · intro i hi
    rcases List.mem_cons.1 hi with rfl | later
    · exact ⟨n, (placed.kept n there).1, rfl⟩
    · exact placed.sources i later
  · rw [place_direct, List.map_cons, List.map_cons, placed.types, feedType,
      placed.labelled.typeAt_id (placed.kept n there).1, wired.templateAt_id mem]

/-- An adapter is placed before those that come after it, with the first number. -/
lemma adapted {a : Operator α} (lab : Labelled h κ) (wired : g.Wired) (mem : n ∈ g.nodes)
    (there : n ∈ h.nodes)
    (placed : Placement g (h.append (adapterNode a h.nextId n.id (a.outType.freshen (toString k))))
      (Function.update κ h.nextId k) feeds r (k + 1) k' κ') :
    Placement g h κ (.adapted a n.id (a.outType.freshen (toString k)) :: feeds) r k k' κ' := by
  let node := adapterNode a h.nextId n.id (a.outType.freshen (toString k))
  have last := placed.kept node (List.mem_append_right _ (List.mem_singleton_self node))
  have number : κ' node.id = k := by
    rw [last.2, show node.id = h.nextId from rfl, Function.update_self]
  refine ⟨placed.labelled, ?_, placed.below, ?_, ?_, ?_, ?_, ?_, ?_⟩
  · intro m hm
    have kept := placed.kept m (List.mem_append_left _ hm)
    rwa [lab.update_of_mem hm] at kept
  · intro m hm
    rcases placed.fresh m hm with there | new
    · rcases List.mem_append.1 there with old | last
      · exact .inl old
      · rw [List.mem_singleton.1 last, number]
        exact .inr ⟨rfl, Nat.le_refl k⟩
    · exact .inr ⟨new.1, Nat.le_of_succ_le new.2⟩
  · intro j low high
    by_cases first : j = k
    · subst first
      exact ⟨node, last.1, rfl, number⟩
    · exact placed.numbers j (by omega) high
  · rw [place_adapted, placed.inputs, nodes_append, List.filter_append]
    exact List.append_nil _
  · rw [place_adapted, placed.slots, lab.slots_append_adapter there, List.append_assoc,
      adapterSlots, wired.templateAt_id mem]
  · intro i hi
    rcases List.mem_cons.1 hi with rfl | later
    · exact ⟨node, last.1, rfl⟩
    · exact placed.sources i later
  · rw [place_adapted, List.map_cons, List.map_cons, placed.types, feedType]
    congr 1
    exact placed.labelled.typeAt_id last.1

end Placement

namespace Feeds

variable {adapters : List (Operator α)} {b b' : Bindings} {k k' : Nat}
  {slots : List (PortType × Int)} {feeds : List (Feed α)}

/-- Suffixes are used up one after the other. -/
lemma le (fed : Feeds g adapters b k slots feeds b' k') : k ≤ k' := by
  induction fed with
  | done => exact Nat.le_refl _
  | direct _ _ _ ih => exact ih
  | adapted _ _ _ _ _ ih => omega

/-- Every slot is fed. -/
lemma length_eq (fed : Feeds g adapters b k slots feeds b' k') : feeds.length = slots.length := by
  induction fed with
  | done => rfl
  | direct _ _ _ ih => rw [List.length_cons, List.length_cons, ih]
  | adapted _ _ _ _ _ ih => rw [List.length_cons, List.length_cons, ih]

/-- Placing the adapters of feeds behind the nodes that they read from. -/
lemma placement (fed : Feeds g adapters b k slots feeds b' k') (wired : g.Wired)
    (unary : ∀ a ∈ adapters, a.arity = 1) {κ : Int → Nat} {r : Nat} (lab : Labelled h κ)
    (known : ∀ n ∈ g.nodes, n ∈ h.nodes)
    (below : ∀ n ∈ h.nodes, n.operator.isSome → κ n.id < k ∧ κ n.id ≠ r) (reserved : r < k) :
    ∃ κ', Placement g h κ feeds r k k' κ' := by
  induction fed generalizing h κ with
  | done =>
    exact ⟨κ, lab, fun n hn => ⟨hn, rfl⟩, below, fun n hn => .inl hn, fun j low high => by omega,
      rfl, (List.append_nil _).symm, nofun, rfl⟩
  | @direct b b₁ b' k k' expected n slots feeds mem _ _ ih =>
    obtain ⟨κ', placed⟩ := ih lab known below reserved
    exact ⟨κ', placed.direct wired mem (known n mem)⟩
  | @adapted b b₁ b' k k' expected n a input more slots feeds mem member types _ fed ih =>
    have there := known n mem
    let node := adapterNode a h.nextId n.id (a.outType.freshen (toString k))
    have lab₁ : Labelled (h.append node) (Function.update κ h.nextId k) :=
      lab.append (lab.wired_adapterNode there (unary a member) _) rfl rfl
        fun _ m hm uses => Nat.ne_of_lt (below m hm uses).1
    have below₁ : ∀ m ∈ (h.append node).nodes, m.operator.isSome →
        Function.update κ h.nextId k m.id < k + 1 ∧ Function.update κ h.nextId k m.id ≠ r := by
      intro m hm uses
      rcases List.mem_append.1 hm with old | last
      · rw [lab.update_of_mem old]
        have := below m old uses
        omega
      · rw [List.mem_singleton] at last
        subst last
        rw [show node.id = h.nextId from rfl, Function.update_self]
        omega
    obtain ⟨κ', placed⟩ := ih lab₁ (fun m hm => List.mem_append_left _ (known m hm)) below₁
      (by omega)
    exact ⟨κ', .adapted lab wired mem there placed⟩

/-- Feeding slots adds the conditions that the slots of the adapters and the fed slots agree. -/
lemma refines (fed : Feeds g adapters b k slots feeds b' k') (wired : g.Wired)
    (wf : b.WellFormed) :
    Bindings.Refines b b' fun σ => (∀ p ∈ g.adapterSlots k feeds, PortType.Agree σ p.1 p.2) ∧
      ∀ p ∈ (slots.map Prod.fst).zip (feeds.map g.feedType), PortType.Agree σ p.1 p.2 := by
  induction fed with
  | done => exact ⟨wf, fun σ => by simp [adapterSlots]⟩
  | direct mem unified _ ih =>
    have head := Bindings.Refines.of_unify wf (Bindings.unify?_eq_some_iff.1 unified)
    refine (head.trans (ih head.wellFormed)).congr fun σ => ?_
    simp only [adapterSlots, List.map_cons, List.zip_cons_cons, List.forall_mem_cons, feedType,
      wired.templateAt_id mem]
    exact and_left_comm
  | adapted mem _ types unified _ ih =>
    have head := Bindings.Refines.of_unifySlots? wf unified
    refine (head.trans (ih head.wellFormed)).congr fun σ => ?_
    simp only [adapterSlots, types, List.map_cons, List.zip_cons_cons, List.zip_nil_right,
      List.cons_append, List.nil_append, List.forall_mem_cons, List.not_mem_nil, false_imp_iff,
      implies_true, and_true, feedType, wired.templateAt_id mem]
    exact and_and_and_comm

/-- Feeding slots brings in no other symbols than the local ones of the adapters. -/
lemma within (fed : Feeds g adapters b k slots feeds b' k') {P : String → Prop}
    (within : b.Within P) (covers : ∀ p ∈ slots, p.1.Within P)
    (templates : ∀ n ∈ g.nodes, n.template.Within P)
    (names : ∀ a ∈ adapters, ∀ t ∈ a.outType :: a.inTypes, ∀ j, k ≤ j → j < k' →
      (t.freshen (toString j)).Within P) : b'.Within P := by
  induction fed with
  | done => exact within
  | @direct b b₁ b' k k' expected n slots feeds mem unified _ ih =>
    have first := within.unify (covers _ (List.mem_cons_self ..)) (templates _ mem) unified
    exact ih first (fun p hp => covers p (List.mem_cons_of_mem _ hp)) names
  | @adapted b b₁ b' k k' expected n a input more slots feeds mem member types unified others ih =>
    have own : ∀ t ∈ a.outType :: a.inTypes, (t.freshen (toString k)).Within P := fun t ht =>
      names a member t ht k (Nat.le_refl k) others.le
    have first := within.unifySlots (fun p hp => ?_) unified
    · exact ih first (fun p hp => covers p (List.mem_cons_of_mem _ hp))
        fun a' ha t ht j low => names a' ha t ht j (Nat.le_of_succ_le low)
    · simp only [List.mem_cons, List.not_mem_nil, or_false] at hp
      rcases hp with rfl | rfl
      · exact ⟨own input (by simp [types]), templates n mem⟩
      · exact ⟨covers _ (List.mem_cons_self ..), own a.outType (List.mem_cons_self ..)⟩

end Feeds

end OperatorNet.Network
