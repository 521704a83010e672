import OperatorNet.Proofs.Network.Acyclic
import OperatorNet.Proofs.Network.Calls
import OperatorNet.Proofs.Network.Specification

/-!
# Networks that pass a check

A network is consistent (`Consistent`) when it has an output and no cycles, every use of an operator
reads from as many nodes as the operator takes, and the symbols of the uses can be renamed and given
values such that every slot has the type of what is wired into it. However its nodes are wired, a
network that passes a check is consistent, and a network that comes from a specification passes one
(`consistent_of_validate`).
-/

namespace OperatorNet

variable {α : Type}

namespace Node

/-- The type of the value of a node when the symbols of every use are renamed. -/
def typeWith (ρ : Int → String → String) (n : Node α) : PortType :=
  match n.operator with
  | none => n.template
  | some op => op.outType.rename (ρ n.id)

/-- A type under suffixes is one with freshened names. -/
lemma typeUnder_eq_typeWith (names : Int → String) (n : Node α) :
    n.typeUnder names = n.typeWith fun i => freshName (names i) := by
  unfold typeUnder typeWith
  cases n.operator <;> rfl

end Node

namespace Network

/-- A use reads from as many nodes as its operator takes, and all of them are there. -/
def Supplies (g : Network α) (n : Node α) : Prop :=
  ∀ op, n.operator = some op → n.inputs.length = op.arity ∧
    ∀ r ∈ n.inputs, ∃ m ∈ g.nodes, r.id? = some m.id

/-- A renaming for each use and an assignment under which every slot has the type of what is wired
into it. -/
structure Typing (g : Network α) (ρ : Int → String → String) (σ : String → Nat) : Prop where
  injective : ∀ i, Function.Injective (ρ i)
  apart : ∀ m ∈ g.nodes, ∀ n ∈ g.nodes, m.id ≠ n.id → ∀ s t, ρ m.id s ≠ ρ n.id t
  agree : ∀ n ∈ g.nodes, ∀ op, n.operator = some op → List.Forall₂ (fun t r => ∃ m ∈ g.nodes,
    r.id? = some m.id ∧ PortType.Agree σ (t.rename (ρ n.id)) (m.typeWith ρ)) op.inTypes n.inputs

/-- Wiring that makes sense. -/
structure Consistent (g : Network α) : Prop where
  output : g.outputId.isSome
  acyclic : g.Acyclic
  supplied : ∀ n ∈ g.nodes, g.Supplies n
  typed : ∃ ρ σ, g.Typing ρ σ

namespace Derivation

variable {d : Derivation} {node : Int} {slot : Nat} {slots : List (PortType × Ref)}

/-- The check of a slot derives no types. -/
lemma templates_checkSlot (expected : PortType) (source : Ref) :
    (d.checkSlot node slot expected source).templates = d.templates := by
  unfold checkSlot
  split
  next => rfl
  next =>
    split
    next => rfl
    next => rfl

/-- The check of some slots derives no types. -/
lemma templates_checkSlots : (d.checkSlots node slot slots).templates = d.templates := by
  induction slots generalizing d slot with
  | nil => rfl
  | cons p rest ih => rw [checkSlots, ih, templates_checkSlot]

/-- The check of a node derives the type of the node. -/
lemma templates_checkNode (names : Int → String) (n : Node α) :
    (d.checkNode (names n.id) n).templates = d.templates ++ [(n.id, n.typeUnder names)] := by
  unfold checkNode Node.typeUnder
  cases n.operator with
  | none => rfl
  | some op =>
    simp only
    split
    next => rfl
    next => rw [templates_checkSlots]

/-- A slot without an error has a source with a known type. -/
lemma known_of_checkSlot {expected : PortType} {source : Ref}
    (none : (d.checkSlot node slot expected source).errors = []) :
    (source.id?.bind fun n => fetch n d.templates).isSome := by
  unfold checkSlot at none
  split at none
  next => exact absurd none (d.errors_report _)
  next type known => rw [known]; rfl

/-- Slots without errors read types that were derived. -/
lemma known_of_checkSlots (none : (d.checkSlots node slot slots).errors = []) :
    ∀ p ∈ slots, (p.2.id?.bind fun n => fetch n d.templates).isSome := by
  induction slots generalizing d slot with
  | nil => exact fun _ mem => absurd mem List.not_mem_nil
  | cons p rest ih =>
    rw [checkSlots] at none
    have first : (d.checkSlot node slot p.1 p.2).errors = [] := by
      by_contra errors
      exact errors_checkSlots errors node (slot + 1) rest none
    have later := ih none
    rw [templates_checkSlot] at later
    exact List.forall_mem_cons.2 ⟨known_of_checkSlot first, later⟩

end Derivation

/-- Where a derivation has no errors everything was unified. -/
lemma Checked.unified {errors : List SlotError} {templates : List (Int × PortType)}
    {b? : Option Bindings} {d : Derivation} (checked : Checked errors templates b? d)
    (none : d.errors = []) : b? = some d.bindings := by
  cases checked with
  | accepted => rfl
  | refused errors => exact absurd none errors

section Run

variable {g : Network α} {names : Int → String} {seen rest : List (Node α)} {d : Derivation}

/-- The types of nodes by their ids. -/
def typesUnder (names : Int → String) (nodes : List (Node α)) : List (Int × PortType) :=
  nodes.map fun n => (n.id, n.typeUnder names)

/-- A type that is known for a reference is that of the node which it refers to. -/
lemma typeAt_of_fetch (distinct : g.ids.Nodup) (within : ∀ n ∈ seen, n ∈ g.nodes) {r : Ref}
    {t : PortType} (known : (r.id?.bind fun i => fetch i (typesUnder names seen)) = some t) :
    (∃ m ∈ g.nodes, r.id? = some m.id) ∧ t = g.typeAt names r := by
  obtain ⟨i, id, found⟩ := Option.bind_eq_some_iff.1 known
  obtain ⟨m, hm, same⟩ := List.mem_map.1 (mem_of_fetch found)
  cases same
  have there := (find?_eq_some_iff distinct).2 ⟨within m hm, rfl⟩
  refine ⟨⟨m, within m hm, id⟩, ?_⟩
  simp only [typeAt, id, Option.bind_some, there, Option.map_some, Option.getD_some]

/-- A use is supplied when it has as many inputs as slots, and what is wired into each is there. -/
lemma supplies_of_slots {n : Node α} {op : Operator α} (uses : n.operator = some op)
    (arity : n.inputs.length = op.arity)
    (sources : ∀ p ∈ (op.inTypes.map (·.freshen (names n.id))).zip n.inputs,
      ∃ m ∈ g.nodes, p.2.id? = some m.id) : g.Supplies n := by
  intro op' uses'
  obtain rfl := Option.some.inj (uses.symm.trans uses')
  refine ⟨arity, fun r hr => ?_⟩
  obtain ⟨i, bound, rfl⟩ := List.mem_iff_getElem.1 hr
  have paired : i < ((op.inTypes.map (·.freshen (names n.id))).zip n.inputs).length := by
    rw [List.length_zip, List.length_map]
    exact lt_min (bound.trans_eq arity) bound
  simpa using sources _ (List.getElem_mem paired)

/-- A node that is checked without errors is supplied, and its slots unify. -/
lemma checkNode_accepted (distinct : g.ids.Nodup) {n : Node α}
    (within : ∀ m ∈ seen ++ [n], m ∈ g.nodes) (templates : d.templates = typesUnder names seen)
    (none : (d.checkNode (names n.id) n).errors = []) :
    d.errors = [] ∧ g.Supplies n ∧
      d.bindings.unifySlots? (g.slotsOf names n) = some (d.checkNode (names n.id) n).bindings := by
  have clean : d.errors = [] := by
    by_contra errors
    exact Derivation.errors_checkNode errors _ n none
  refine ⟨clean, ?_⟩
  cases op : n.operator with
  | none =>
    have supplies : g.Supplies n := fun o uses =>
      absurd (op.symm.trans uses) (Option.some_ne_none o).symm
    refine ⟨supplies, ?_⟩
    rw [slotsOf_input names op, Derivation.checkNode, op]
    rfl
  | some o =>
    -- the slots are checked with the types found so far, which are those of the nodes they refer to
    have types : d.templates ++ [(n.id, o.outType.freshen (names n.id))] =
        typesUnder names (seen ++ [n]) := by
      rw [templates, typesUnder, typesUnder, List.map_append, List.map_singleton,
        Node.typeUnder, op]
    rw [slotsOf_use names op]
    rw [Derivation.checkNode, op] at none ⊢
    simp only [types] at none ⊢
    split at none
    next => exact absurd none (Derivation.errors_report _ _)
    next arity =>
      rw [if_neg arity]
      rw [not_not] at arity
      have known := Derivation.known_of_checkSlots none
      have supplied : ∀ p ∈ (o.inTypes.map (·.freshen (names n.id))).zip n.inputs,
          (∃ m ∈ g.nodes, p.2.id? = some m.id) ∧
            (p.2.id?.bind fun i => fetch i (typesUnder names (seen ++ [n]))) =
              some (g.typeAt names p.2) := by
        intro p hp
        obtain ⟨t, found⟩ := Option.isSome_iff_exists.1 (known p hp)
        obtain ⟨there, rfl⟩ := typeAt_of_fetch distinct within found
        exact ⟨there, found⟩
      have checked := Derivation.checkSlots_checked
        (d := { d with templates := typesUnder names (seen ++ [n]) }) n.id 0
        fun p hp => (supplied p hp).2
      exact ⟨supplies_of_slots op arity fun p hp => (supplied p hp).1, checked.unified none⟩

/-- Nodes that are checked without errors are supplied, and their slots unify. -/
lemma checkNodes_accepted (distinct : g.ids.Nodup) (within : ∀ n ∈ seen ++ rest, n ∈ g.nodes)
    (named : ∀ i n, (seen ++ rest)[i]? = some n → names n.id = placeSuffix i)
    (templates : d.templates = typesUnder names seen)
    (none : (d.checkNodes seen.length rest).errors = []) :
    d.errors = [] ∧ (∀ n ∈ rest, g.Supplies n) ∧
      d.bindings.unifySlots? (rest.flatMap (g.slotsOf names)) =
        some (d.checkNodes seen.length rest).bindings := by
  induction rest generalizing seen d with
  | nil => exact ⟨none, fun _ mem => absurd mem List.not_mem_nil, rfl⟩
  | cons n rest ih =>
    -- the check names the node by its place, as its names do
    have suffix : placeSuffix seen.length = names n.id := by
      refine (named seen.length n ?_).symm
      rw [List.getElem?_append_right (Nat.le_refl _), Nat.sub_self]
      rfl
    have next : seen ++ n :: rest = (seen ++ [n]) ++ rest := by simp
    have length : (seen ++ [n]).length = seen.length + 1 := by simp
    rw [Derivation.checkNodes, ← placeSuffix, suffix, ← length] at none ⊢
    rw [next] at within named
    have types : (d.checkNode (names n.id) n).templates = typesUnder names (seen ++ [n]) := by
      rw [Derivation.templates_checkNode, templates, typesUnder, typesUnder, List.map_append]
      rfl
    obtain ⟨fine, supplied, unified⟩ := ih within named types none
    obtain ⟨clean, supplies, first⟩ := checkNode_accepted distinct
      (fun m hm => within m (List.mem_append_left _ hm)) templates fine
    refine ⟨clean, List.forall_mem_cons.2 ⟨supplies, supplied⟩, ?_⟩
    rw [List.flatMap_cons, Bindings.unifySlots?_append, first, Option.bind_some, unified]

end Run

variable {g g' : Network α} {order : List Int} {names : Int → String}

/-- An order of the ids finds nodes in that order. -/
lemma map_id_filterMap_find? (distinct : g.ids.Nodup) (perm : order.Perm g.ids) :
    (order.filterMap g.find?).map (·.id) = order := by
  rw [List.map_filterMap]
  have own : ∀ i ∈ order, (g.find? i).map (·.id) = some i := by
    intro i hi
    obtain ⟨n, hn, rfl⟩ := List.mem_map.1 (perm.mem_iff.1 hi)
    rw [(find?_eq_some_iff distinct).2 ⟨hn, rfl⟩]
    rfl
  rw [List.filterMap_congr own, List.filterMap_some]

/-- An order of the ids finds all nodes. -/
lemma mem_filterMap_find? (distinct : g.ids.Nodup) (perm : order.Perm g.ids) {n : Node α} :
    n ∈ order.filterMap g.find? ↔ n ∈ g.nodes := by
  simp only [List.mem_filterMap, find?_eq_some_iff distinct]
  constructor
  · rintro ⟨i, -, hn, -⟩
    exact hn
  · exact fun hn => ⟨n.id, perm.mem_iff.2 (List.mem_map_of_mem hn), hn, rfl⟩

/-- Uses get the suffixes of their places in an order. -/
def placesIn (order : List Int) (i : Int) : String :=
  placeSuffix (order.idxOf i)

/-- A network without errors has an output and an order; all of its uses are supplied, and their
slots unify one after the other in that order. -/
lemma unified_of_errors (distinct : g.ids.Nodup) (none : g.errors = []) :
    g.outputId.isSome ∧ ∃ order, g.order = .ok order ∧ (∀ n ∈ g.nodes, g.Supplies n) ∧
      ∃ b, Bindings.empty.unifySlots?
        ((order.filterMap g.find?).flatMap (g.slotsOf (placesIn order))) = some b := by
  unfold errors derive at none
  cases done : g.order with
  | error f =>
    simp only [order, orderOfIds] at done
    split at done
    next => cases done
    next =>
      cases done
      rw [order, orderOfIds, if_neg ‹_›] at none
      exact absurd none (Derivation.errors_report _ _)
  | ok order =>
    rw [done] at none
    have perm := (ordered_of_orderOfIds done).perm
    -- the suffix of a node is its place in the order, which is how the loop numbers them
    have same := map_id_filterMap_find? distinct perm
    have named : ∀ i n, ([] ++ order.filterMap g.find?)[i]? = some n →
        placesIn order n.id = placeSuffix i := by
      intro i n there
      have placed : order[i]? = some n.id := by
        rw [← same, List.getElem?_map, ← List.nil_append (order.filterMap g.find?), there]
        rfl
      obtain ⟨bound, value⟩ := List.getElem?_eq_some_iff.1 placed
      rw [placesIn, ← value, (perm.nodup_iff.2 distinct).idxOf_getElem i bound]
    have within : ∀ n ∈ [] ++ order.filterMap g.find?, n ∈ g.nodes := fun n hn =>
      (mem_filterMap_find? distinct perm).1 hn
    cases out : g.outputId with
    | none =>
      rw [out] at none
      obtain ⟨clean, -⟩ := checkNodes_accepted distinct within named rfl none
      exact absurd clean (Derivation.errors_report _ _)
    | some id =>
      rw [out] at none
      obtain ⟨-, supplied, unified⟩ := checkNodes_accepted distinct within named rfl none
      refine ⟨rfl, order, rfl, fun n hn => supplied n ?_, _, unified⟩
      exact (mem_filterMap_find? distinct perm).2 hn

/-- A network without errors is consistent. -/
lemma consistent_of_errors (distinct : g.ids.Nodup) (none : g.errors = []) : g.Consistent := by
  obtain ⟨output, order, done, supplied, b, unified⟩ := unified_of_errors distinct none
  have perm := (ordered_of_orderOfIds done).perm
  have refines := Bindings.Refines.of_unifySlots? .empty unified
  -- the bindings that the check ends with have a solution, under which all slots agree
  obtain ⟨σ, satisfied⟩ := refines.wellFormed.satisfiable
  have agree := ((refines.satisfies_iff σ).1 satisfied).2
  refine ⟨output, exists_order_iff.1 ⟨order, done⟩, supplied,
    fun i => freshName (placesIn order i), σ, fun i => freshName_injective _, ?_, ?_⟩
  · intro m hm n hn ne s t same
    obtain ⟨places, -⟩ := freshName_inj (plainSuffix_placeSuffix _) (plainSuffix_placeSuffix _) same
    have mem : m.id ∈ order := perm.mem_iff.2 (List.mem_map_of_mem hm)
    exact ne ((List.idxOf_inj mem).1 (placeSuffix_inj places))
  · intro n hn op uses
    obtain ⟨arity, sources⟩ := supplied n hn op uses
    refine List.forall₂_iff_zip.2 ⟨arity.symm, fun {t r} slot => ?_⟩
    obtain ⟨m, hm, id⟩ := sources r (List.of_mem_zip slot).2
    have type : g.typeAt (placesIn order) r = m.typeWith fun i => freshName (placesIn order i) := by
      rw [typeAt, id, Option.bind_some, (find?_eq_some_iff distinct).2 ⟨hm, rfl⟩,
        ← Node.typeUnder_eq_typeWith]
      rfl
    refine ⟨m, hm, id, ?_⟩
    rw [← type]
    exact agree _ (List.mem_flatMap.2 ⟨n, (mem_filterMap_find? distinct perm).2 hn,
      mem_slotsOf_use (placesIn order) uses slot⟩)

/-- A network that is valid is consistent. -/
lemma Consistent.of_validate [Scalar α] (distinct : g.ids.Nodup) (passes : g.validate = .ok []) :
    g.Consistent := by
  rw [validate, bind_eq_ok] at passes
  obtain ⟨-, -, told⟩ := passes
  exact consistent_of_errors distinct (pure_eq_ok.1 (requireWritable_bind_eq_ok.1 told).2)

/-! ### Specifications -/

/-- A type that a check lists is that of a node. -/
lemma Derivation.exists_of_mem_checkNodes {d : Derivation} {place : Nat} {nodes : List (Node α)}
    {p : Int × PortType} (mem : p ∈ (d.checkNodes place nodes).templates) :
    p ∈ d.templates ∨ ∃ n ∈ nodes, ∃ names, p = (n.id, n.typeUnder names) := by
  induction nodes generalizing d place with
  | nil => exact .inl mem
  | cons n rest ih =>
    rcases ih mem with before | ⟨m, hm, own⟩
    · rw [templates_checkNode fun _ => "v" ++ toString place, List.mem_append,
        List.mem_singleton] at before
      exact before.imp_right fun own => ⟨n, List.mem_cons_self .., _, own⟩
    · exact .inr ⟨m, List.mem_cons_of_mem _ hm, own⟩

/-- The derived types are those of nodes under suffixes. -/
lemma exists_of_mem_derive {p : Int × PortType} (mem : p ∈ g.derive.templates) :
    ∃ n ∈ g.nodes, ∃ names, p = (n.id, n.typeUnder names) := by
  unfold derive at mem
  split at mem
  next => split at mem <;> cases mem
  next order _ =>
    rcases Derivation.exists_of_mem_checkNodes mem with start | ⟨n, hn, own⟩
    · split at start <;> cases start
    · obtain ⟨i, -, found⟩ := List.mem_filterMap.1 hn
      exact ⟨n, (mem_of_find? found).1, own⟩

/-- The derived type of an input is its template. -/
lemma derived_of_input (distinct : g.ids.Nodup) {n : Node α} (mem : n ∈ g.nodes)
    (input : n.operator = none) : (fetch n.id g.derive.templates).getD n.template = n.template := by
  cases found : fetch n.id g.derive.templates with
  | none => rfl
  | some t =>
    obtain ⟨m, hm, names, same⟩ := exists_of_mem_derive (mem_of_fetch found)
    obtain ⟨id, rfl⟩ := Prod.mk.inj same
    obtain rfl := List.inj_on_of_nodup_map distinct mem hm id
    rw [Option.getD_some, Node.typeUnder, input]

section MapNodes

variable {f : Node α → Node α} (keeps : Node.Keeps f)

include keeps

/-- A change that keeps ids, operators and the types of inputs does not matter to a check. -/
lemma Derivation.checkNodes_map {d : Derivation} {place : Nat} {nodes : List (Node α)}
    (inputs : ∀ n ∈ nodes, n.operator = none → (f n).template = n.template) :
    d.checkNodes place (nodes.map f) = d.checkNodes place nodes := by
  induction nodes generalizing d place with
  | nil => rfl
  | cons n rest ih =>
    rw [List.forall_mem_cons] at inputs
    have same : ∀ suffix, d.checkNode suffix (f n) = d.checkNode suffix n := by
      intro suffix
      unfold checkNode
      rw [keeps.operator, keeps.id, keeps.inputs]
      cases op : n.operator with
      | none => rw [inputs.1 op]
      | some o => rfl
    rw [List.map_cons, checkNodes, checkNodes, same, ih inputs.2]

/-- A map that keeps what nodes read keeps the order. -/
lemma order_mapNodes : (g.mapNodes f).order = g.order := by
  have ids : (g.mapNodes f).ids = g.ids := by
    rw [Network.ids, mapNodes, List.map_map]
    exact List.map_congr_left fun n _ => keeps.id n
  have reads : (g.mapNodes f).sources = g.sources := by
    funext i
    rw [sources, sources, inputs, inputs, find?_mapNodes keeps]
    cases g.find? i with
    | none => rfl
    | some n => simp only [Option.map_some, keeps.inputs]
  rw [order, order, ids, orderOfIds, orderOfIds, reads]
  rfl

/-- A map that keeps what nodes take keeps the derivation. -/
lemma derive_mapNodes (inputs : ∀ n ∈ g.nodes, n.operator = none → (f n).template = n.template) :
    (g.mapNodes f).derive = g.derive := by
  have found : ∀ order : List Int, order.filterMap (g.mapNodes f).find? =
      (order.filterMap g.find?).map f := by
    intro order
    rw [List.map_filterMap]
    exact List.filterMap_congr fun i _ => find?_mapNodes keeps i
  unfold derive
  rw [order_mapNodes keeps]
  cases g.order with
  | error f => rfl
  | ok order =>
    simp only [found]
    refine Derivation.checkNodes_map keeps fun n hn => inputs n ?_
    obtain ⟨i, -, there⟩ := List.mem_filterMap.1 hn
    exact (mem_of_find? there).1

end MapNodes

/-- A network keeps what a check derives when it takes that over. -/
lemma derive_renewed (distinct : g.ids.Nodup) (b : Bindings) (suffixes : Nat) :
    (g.renewed (fun n => (fetch n.id g.derive.templates).getD n.template) b suffixes).derive =
      g.derive := by
  let taken : Node α → Node α := fun n =>
    { n with template := (fetch n.id g.derive.templates).getD n.template }
  have keeps : Node.Keeps taken := ⟨fun _ => rfl, fun _ => rfl, fun _ => rfl⟩
  calc (g.renewed (fun n => (fetch n.id g.derive.templates).getD n.template) b suffixes).derive
    _ = ((g.mapNodes taken).mapNodes (Node.refresh b)).derive := rfl
    _ = (g.mapNodes taken).derive := derive_mapNodes (Node.keeps_refresh b) fun _ _ _ => rfl
    _ = g.derive := derive_mapNodes keeps fun n hn input => derived_of_input distinct hn input

/-- Where all nodes read from ids a network without errors passes a check. -/
lemma validate_eq_nil_iff (ids : ∀ n ∈ g.nodes, ∃ sources : List Int, n.inputs = sources.map .id) :
    g.validate = .ok [] ↔ g.errors = [] := by
  refine validate_eq_nil_iff_of_checks (forM_eq_ok fun n hn => ?_)
  obtain ⟨sources, same⟩ := ids n hn
  rw [same]
  refine forM_eq_ok fun r hr => ?_
  obtain ⟨i, -, rfl⟩ := List.mem_map.1 hr
  rfl

/-- A network that takes over what a check derives passes a check where that found no errors. -/
lemma validate_of_checked (distinct : g.ids.Nodup)
    (ids : ∀ n ∈ g.nodes, ∃ sources : List Int, n.inputs = sources.map .id)
    (passes : g.checked = .ok g') : g'.ids = g.ids ∧ g'.validate = .ok [] := by
  obtain ⟨none, -, rfl⟩ := checked_eq_ok_iff.1 passes
  constructor
  · simp only [Network.ids, renewed, refresh, List.map_map]
    rfl
  · rw [validate_eq_nil_iff, errors, derive_renewed distinct, none]
    simp only [renewed, refresh, List.map_map, List.forall_mem_map]
    exact ids

/-- When none is repeated the ids are different. -/
lemma nodup_of_firstRepeated {seen ids : List Int} (none : Spec.firstRepeated seen ids = none) :
    ids.Nodup ∧ ∀ i ∈ ids, i ∉ seen := by
  induction ids generalizing seen with
  | nil => exact ⟨List.nodup_nil, fun _ mem => absurd mem List.not_mem_nil⟩
  | cons n rest ih =>
    rw [Spec.firstRepeated] at none
    split at none
    next => cases none
    next new =>
      obtain ⟨distinct, apart⟩ := ih none
      refine ⟨List.nodup_cons.2 ⟨fun again => apart n again (List.mem_cons_self ..), distinct⟩,
        List.forall_mem_cons.2 ⟨new, fun i hi old => ?_⟩⟩
      exact apart i hi (List.mem_cons_of_mem _ old)

/-- A specification without flaws has different ids. -/
lemma nodup_of_flaw? {s : Spec α} (none : s.flaw? = none) : (s.nodes.map (·.id)).Nodup := by
  simp only [Spec.flaw?, Option.orElse_eq_none, Option.map_eq_none_iff] at none
  exact (nodup_of_firstRepeated none.1).1

section OfSpec

variable [Scalar α] {c : Catalog α} {s : Spec α}

/-- A node that is read is described by its specification. -/
lemma describes_of_nodeOfSpec {n : NodeSpec α} {m : Node α} (read : nodeOfSpec c n = .ok m) :
    n.Describes m := by
  rw [nodeOfSpec, bind_eq_ok] at read
  obtain ⟨operator, looked, read⟩ := read
  have same : operator = none ↔ n.operator = none := by
    cases named : n.operator with
    | none =>
      rw [named] at looked
      cases looked
      exact ⟨fun _ => rfl, fun _ => rfl⟩
    | some name =>
      rw [named, Option.mapM_some, map_eq_pure_bind, bind_eq_ok] at looked
      obtain ⟨op, -, eq⟩ := looked
      cases eq
      exact ⟨nofun, nofun⟩
  cases operator <;> (simp only [bind_eq_ok, pure_eq_ok] at read; obtain ⟨_, -, rfl⟩ := read)
  · exact ⟨rfl, rfl, same, rfl⟩
  · exact ⟨rfl, rfl, same, rfl⟩

omit [Scalar α] in
/-- Nodes have the ids that their specifications say. -/
lemma map_id_of_describes {specs : List (NodeSpec α)} {nodes : List (Node α)}
    (described : List.Forall₂ NodeSpec.Describes specs nodes) :
    nodes.map (·.id) = specs.map (·.id) := by
  refine List.forall₂_eq_eq_eq ▸ List.forall₂_map_left_iff.2 (List.forall₂_map_right_iff.2 ?_)
  exact (described.imp fun _ _ own => own.id).flip

/-- A network that is read from a specification is valid. -/
lemma validate_of_ofSpec (flawless : s.flaw? = none) (read : ofSpec c s = .ok g') :
    g'.ids.Nodup ∧ g'.validate = .ok [] := by
  rw [ofSpec_eq, bind_eq_ok] at read
  obtain ⟨nodes, looked, passes⟩ := read
  rw [mapM_eq_ok] at looked
  have ids := map_id_of_describes (looked.imp fun _ _ own => describes_of_nodeOfSpec own)
  have distinct : (unchecked s nodes).ids.Nodup := by
    change (nodes.map (·.id)).Nodup
    rw [ids]
    exact ((perm_sortBy _ s.nodes).map _).nodup_iff.2 (nodup_of_flaw? flawless)
  have wires : ∀ n ∈ (unchecked s nodes).nodes, ∃ sources : List Int,
      n.inputs = sources.map .id := by
    intro n hn
    obtain ⟨spec, -, own⟩ := exists_of_mem_forall₂ looked hn
    exact ⟨spec.inputs, (describes_of_nodeOfSpec own).inputs⟩
  obtain ⟨same, valid⟩ := validate_of_checked distinct wires passes
  exact ⟨same ▸ distinct, valid⟩

end OfSpec

/-- However the nodes of a network are wired, it is consistent if it passes a check. Every network
that a catalog makes of a specification passes one. -/
theorem consistent_of_validate [Scalar α] :
    (∀ g : Network α, g.ids.Nodup → g.validate = .ok [] → g.Consistent) ∧
      ∀ (c : Catalog α) (s : Spec α) (g : Network α), s.flaw? = none → ofSpec c s = .ok g →
        g.validate = .ok [] ∧ g.Consistent := by
  refine ⟨fun g => .of_validate, fun c s g flawless read => ?_⟩
  obtain ⟨distinct, passes⟩ := validate_of_ofSpec flawless read
  exact ⟨passes, .of_validate distinct passes⟩

namespace Sample

/-- A path that is mixed with a path that an adapter halves. -/
def adapted : Network Float :=
  build halving "g" (mixing (.symbol "X") (.ofNat 6))

/-- The network with wires replaced by values that equal the ids of the nodes read before. -/
def rewired : Network Float :=
  (adapted.modify 2 fun n => { n with inputs := [.form (.bool true)] }).modify 3 fun n =>
    { n with inputs := [.form (.bool false), .id 2] }

/-- The catalog with all operators of the network. -/
def halvingAndMixing : Catalog Float :=
  bare.extend [halve, mix] (by decide)

end Sample

open Sample in
/-- A network passes a check with its wires edited, and a network comes from a specification with an
adapter. -/
theorem consistent_rewired :
    rewired.ids.Nodup ∧ rewired.validate = .ok [] ∧ rewired.Consistent ∧
      (adapted.spec 3).flaw? = none ∧ ∃ g, ofSpec halvingAndMixing (adapted.spec 3) = .ok g ∧
        g.validate = .ok [] ∧ g.Consistent := by
  have distinct : rewired.ids.Nodup := by decide +kernel
  have passes : rewired.validate = .ok [] := by with_unfolding_all rfl
  have flawless : (adapted.spec 3).flaw? = none := Option.isNone_iff_eq_none.1 (by decide +kernel)
  have reads : (ofSpec halvingAndMixing (adapted.spec 3)).toOption.isSome := by decide +kernel
  obtain ⟨g, read⟩ := Option.isSome_iff_exists.1 reads
  rw [toOption_eq_some] at read
  exact ⟨distinct, passes, consistent_of_validate.1 rewired distinct passes, flawless, g, read,
    consistent_of_validate.2 halvingAndMixing _ g flawless read⟩

end Network

end OperatorNet
