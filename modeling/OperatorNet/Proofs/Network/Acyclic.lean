import Mathlib.Data.Fintype.EquivFin
import Mathlib.Data.List.Perm.Subperm
import Mathlib.Order.WellFounded
import OperatorNet.Proofs.Network.Construction
import OperatorNet.Proofs.Network.Wiring
import OperatorNet.Proofs.Search.Ancestors

/-!
# Networks without cycles

Nodes can be put in order exactly when no node depends on itself (`length_readyOrder_eq_iff` for the
wires among some nodes, `exists_order_iff` for all): an order that puts every node after its sources
ranks the nodes, and among nodes that do not depend on themselves there is always one that reads
from none of the others.
-/

namespace OperatorNet

/-- An order of ids in which each comes after its sources among them. -/
structure Ordered (sources : Int → List Int) (ids order : List Int) : Prop where
  perm : order.Perm ids
  later : order.Pairwise fun a b => b ∉ sources a
  own : ∀ a ∈ order, a ∉ sources a

/-- One of some ids reads from another. -/
def ReadsAmong (sources : Int → List Int) (ids : List Int) (a b : Int) : Prop :=
  a ∈ ids ∧ b ∈ ids ∧ b ∈ sources a

/-- One of some ids depends on itself through these. -/
def Cyclic (sources : Int → List Int) (ids : List Int) : Prop :=
  ∃ i, Relation.TransGen (ReadsAmong sources ids) i i

section

variable {sources : Int → List Int} {ids ids' remaining order : List Int} {a b : Int}

/-- An order of ids is one of the same ids listed otherwise. -/
lemma Ordered.of_perm (ordered : Ordered sources ids order) (perm : ids.Perm ids') :
    Ordered sources ids' order :=
  ⟨ordered.perm.trans perm, ordered.later, ordered.own⟩

/-- A cycle among some ids is one among more of them. -/
lemma Cyclic.mono (within : ids ⊆ ids') (cyclic : Cyclic sources ids) : Cyclic sources ids' := by
  obtain ⟨i, cycle⟩ := cyclic
  have more : ReadsAmong sources ids ≤ ReadsAmong sources ids' := fun _ _ ⟨ha, hb, read⟩ =>
    ⟨within ha, within hb, read⟩
  exact ⟨i, Relation.TransGen.mono more i i cycle⟩

/-- Whoever depends on itself does so through ids that are there, if only these read anything. -/
lemma cyclic_of_transGen (there : ∀ a b, b ∈ sources a → a ∈ ids) {i : Int}
    (cycle : Relation.TransGen (fun a b => b ∈ sources a) i i) : Cyclic sources ids := by
  have along : ∀ b, Relation.TransGen (fun a b => b ∈ sources a) i b → b ∈ ids →
      Relation.TransGen (ReadsAmong sources ids) i b := by
    intro b path
    induction path with
    | single read => exact fun hb => .single ⟨there _ _ read, hb, read⟩
    | tail _ read ih =>
      have hm := there _ _ read
      exact fun hb => (ih hm).tail ⟨hm, hb, read⟩
  obtain ⟨b, read, -⟩ := Relation.TransGen.head'_iff.1 cycle
  exact ⟨i, along i cycle (there i b read)⟩

/-- Nothing that remains is read by what is ready. -/
lemma ready_iff : ((sources a).all fun s => !remaining.contains s) = true ↔
    ∀ s ∈ remaining, s ∉ sources a := by
  simp only [List.all_eq_true, Bool.not_eq_true', List.contains_eq_mem, decide_eq_false_iff_not]
  exact ⟨fun ready s remains read => ready s read remains,
    fun ready s read remains => ready s remains read⟩

/-- Where no id is ready the order ends. -/
lemma readyOrder_of_none
    (none : (remaining.find? fun n => (sources n).all fun s => !remaining.contains s) = none) :
    readyOrder sources remaining = [] := by
  rw [readyOrder]
  split
  next => rfl
  next n next => rw [none] at next; cases next

/-- The first id that is ready comes first. -/
lemma readyOrder_of_some
    (next : (remaining.find? fun n => (sources n).all fun s => !remaining.contains s) = some a) :
    readyOrder sources remaining = a :: readyOrder sources (remaining.erase a) := by
  rw [readyOrder]
  split
  next none => rw [next] at none; cases none
  next n found => rw [Option.some.inj (next.symm.trans found)]

/-- The order repeats no id and brings in no other. -/
lemma subperm_readyOrder (sources : Int → List Int) (remaining : List Int) :
    (readyOrder sources remaining).Subperm remaining := by
  induction remaining using readyOrder.induct sources with
  | case1 remaining none =>
    rw [readyOrder_of_none none]
    exact List.nil_subperm
  | case2 remaining n next ih =>
    rw [readyOrder_of_some next]
    exact ((List.subperm_cons n).2 ih).trans
      (List.perm_cons_erase (List.mem_of_find?_eq_some next)).symm.subperm

/-- What is put in order reads neither from itself nor from what comes later. -/
lemma pairwise_readyOrder (sources : Int → List Int) (remaining : List Int) :
    (readyOrder sources remaining).Pairwise (fun a b => b ∉ sources a) ∧
      ∀ a ∈ readyOrder sources remaining, a ∉ sources a := by
  induction remaining using readyOrder.induct sources with
  | case1 remaining none =>
    rw [readyOrder_of_none none]
    exact ⟨List.Pairwise.nil, fun _ mem => absurd mem List.not_mem_nil⟩
  | case2 remaining n next ih =>
    have ready : ∀ s ∈ remaining, s ∉ sources n :=
      ready_iff.1 (List.find?_eq_some_iff_append.1 next).1
    rw [readyOrder_of_some next]
    refine ⟨List.pairwise_cons.2 ⟨fun s hs => ready s ?_, ih.1⟩,
      List.forall_mem_cons.2 ⟨ready n (List.mem_of_find?_eq_some next), ih.2⟩⟩
    exact List.mem_of_mem_erase ((subperm_readyOrder sources _).subset hs)

/-- An order that comes to all ids puts each after its sources. -/
lemma ordered_readyOrder (all : (readyOrder sources ids).length = ids.length) :
    Ordered sources ids (readyOrder sources ids) :=
  ⟨(subperm_readyOrder sources ids).perm_of_length_le (Nat.le_of_eq all.symm),
    (pairwise_readyOrder sources ids).1, (pairwise_readyOrder sources ids).2⟩

/-- A source comes before what reads it. -/
lemma Ordered.idxOf_lt (ordered : Ordered sources ids order) (ha : a ∈ order) (hb : b ∈ order)
    (read : b ∈ sources a) : order.idxOf b < order.idxOf a := by
  have ia := List.idxOf_lt_length_iff.2 ha
  have ib := List.idxOf_lt_length_iff.2 hb
  rcases Nat.lt_trichotomy (order.idxOf b) (order.idxOf a) with before | same | after
  · exact before
  · have eq : b = a := (List.idxOf_inj hb).1 same
    exact absurd (eq ▸ read) (ordered.own a ha)
  · have apart := List.pairwise_iff_getElem.1 ordered.later _ _ ia ib after
    rw [List.getElem_idxOf, List.getElem_idxOf] at apart
    exact absurd read apart

/-- Ids that can be put in order do not depend on themselves. -/
lemma Ordered.not_cyclic (ordered : Ordered sources ids order) : ¬ Cyclic sources ids := by
  rintro ⟨i, cycle⟩
  have step : ∀ {a b}, ReadsAmong sources ids a b → order.idxOf b < order.idxOf a :=
    fun ⟨ha, hb, read⟩ =>
      ordered.idxOf_lt (ordered.perm.mem_iff.2 ha) (ordered.perm.mem_iff.2 hb) read
  have lt : ∀ b, Relation.TransGen (ReadsAmong sources ids) i b →
      order.idxOf b < order.idxOf i := by
    intro b path
    induction path with
    | single read => exact step read
    | tail _ read ih => exact (step read).trans ih
  exact Nat.lt_irrefl _ (lt i cycle)

/-- Some id reads from no other that remains, if none depends on itself. -/
lemma exists_ready (acyclic : ¬ Cyclic sources ids) (within : remaining ⊆ ids)
    (nonempty : remaining ≠ []) : ∃ n ∈ remaining, ∀ s ∈ remaining, s ∉ sources n := by
  -- What an id depends on comes before it: among finitely many ids one has nothing before it.
  let Before : {n // n ∈ remaining} → {n // n ∈ remaining} → Prop := fun s n =>
    Relation.TransGen (ReadsAmong sources ids) n.1 s.1
  have : IsTrans _ Before := ⟨fun _ _ _ first second => second.trans first⟩
  have : Std.Irrefl Before := ⟨fun n cycle => acyclic ⟨n.1, cycle⟩⟩
  have wf : WellFounded Before := Finite.wellFounded_of_trans_of_irrefl Before
  obtain ⟨first, hf⟩ := List.exists_mem_of_ne_nil remaining nonempty
  obtain ⟨⟨n, hn⟩, -, least⟩ := wf.has_min Set.univ ⟨⟨first, hf⟩, trivial⟩
  exact ⟨n, hn, fun s hs read => least ⟨s, hs⟩ trivial (.single ⟨within hn, within hs, read⟩)⟩

/-- Without a cycle the order comes to all ids. -/
lemma length_readyOrder (acyclic : ¬ Cyclic sources ids) (within : remaining ⊆ ids) :
    (readyOrder sources remaining).length = remaining.length := by
  induction remaining using readyOrder.induct sources with
  | case1 remaining none =>
    rw [readyOrder_of_none none]
    -- The order stops early only where every remaining id reads another.
    by_contra nonempty
    have some : remaining ≠ [] := fun nil => nonempty (by rw [nil])
    obtain ⟨n, hn, ready⟩ := exists_ready acyclic within some
    exact List.find?_eq_none.1 none n hn (ready_iff.2 ready)
  | case2 remaining n next ih =>
    have mem := List.mem_of_find?_eq_some next
    have pos := List.length_pos_of_mem mem
    have rest := ih fun m hm => within (List.mem_of_mem_erase hm)
    rw [readyOrder_of_some next, List.length_cons, rest, List.length_erase_of_mem mem]
    omega

/-- All of some ids are put in order exactly when none of them depends on itself through these. -/
theorem length_readyOrder_eq_iff :
    (readyOrder sources ids).length = ids.length ↔ ¬ Cyclic sources ids :=
  ⟨fun all => (ordered_readyOrder all).not_cyclic, fun acyclic =>
    length_readyOrder acyclic fun _ => id⟩

end

namespace Network

variable {α : Type} {g : Network α} {ids order : List Int}

/-- Ids that are different find the nodes that have them. -/
lemma find?_eq_some_iff (distinct : g.ids.Nodup) {i : Int} {n : Node α} :
    g.find? i = some n ↔ n ∈ g.nodes ∧ n.id = i := by
  refine ⟨mem_of_find?, fun ⟨mem, id⟩ => ?_⟩
  cases found : g.find? i with
  | none => exact absurd (decide_eq_true id) (List.find?_eq_none.1 found n mem)
  | some m =>
    obtain ⟨hm, same⟩ := mem_of_find? found
    exact congrArg some (List.inj_on_of_nodup_map distinct hm mem (same.trans id.symm))

/-- The sources of an id are the ids that it leads to. -/
lemma mem_sources_iff {a b : Int} : b ∈ g.sources a ↔ Leads g.inputs a b :=
  List.mem_filterMap

/-- Only ids of the network lead somewhere. -/
lemma mem_ids_of_leads {a b : Int} (leads : Leads g.inputs a b) : a ∈ g.ids := by
  obtain ⟨r, hr, -⟩ := leads
  rw [inputs] at hr
  cases found : g.find? a with
  | none => rw [found] at hr; cases hr
  | some n =>
    obtain ⟨hn, id⟩ := mem_of_find? found
    exact id ▸ List.mem_map_of_mem hn

/-- No node depends on itself. -/
def Acyclic (g : Network α) : Prop :=
  ∀ i, ¬ Relation.TransGen (Leads g.inputs) i i

/-- In an acyclic network no ids are cyclic. -/
lemma Acyclic.not_cyclic (acyclic : g.Acyclic) (ids : List Int) : ¬ Cyclic g.sources ids :=
  have leads : ReadsAmong g.sources ids ≤ Leads g.inputs := fun _ _ ⟨_, _, read⟩ =>
    mem_sources_iff.1 read
  fun ⟨i, cycle⟩ => acyclic i (Relation.TransGen.mono leads i i cycle)

/-- A network is acyclic when its own ids are not cyclic. -/
lemma acyclic_iff : g.Acyclic ↔ ¬ Cyclic g.sources g.ids := by
  refine ⟨fun acyclic => acyclic.not_cyclic g.ids, fun acyclic i cycle => acyclic ?_⟩
  refine cyclic_of_transGen (fun a b read => mem_ids_of_leads (mem_sources_iff.1 read)) (i := i) ?_
  exact Relation.TransGen.mono (fun a b leads => mem_sources_iff.2 leads) i i cycle

/-- Ids that are put in order come after their sources. -/
lemma ordered_of_orderOfIds (done : g.orderOfIds ids = .ok order) :
    Ordered g.sources ids order := by
  simp only [orderOfIds] at done
  split at done
  next all =>
    cases done
    exact (ordered_readyOrder all).of_perm (perm_sortBy _ ids)
  next => exact absurd done fail_ne_ok

/-- In an acyclic network all ids can be put in order. -/
lemma Acyclic.exists_orderOfIds (acyclic : g.Acyclic) (ids : List Int) :
    ∃ order, g.orderOfIds ids = .ok order := by
  simp only [orderOfIds, length_readyOrder_eq_iff.2 (acyclic.not_cyclic _), if_true]
  exact ⟨_, rfl⟩

/-- The nodes of a network can be put in order exactly when none depends on itself. -/
theorem exists_order_iff : (∃ order, g.order = .ok order) ↔ g.Acyclic := by
  refine ⟨fun ⟨order, done⟩ => acyclic_iff.2 ?_, fun acyclic => acyclic.exists_orderOfIds g.ids⟩
  exact (ordered_of_orderOfIds done).not_cyclic

end Network

end OperatorNet
