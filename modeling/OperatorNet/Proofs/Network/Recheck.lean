import Mathlib.Logic.Function.Basic
import OperatorNet.Proofs.Network.Check
import OperatorNet.Proofs.Network.Edits

/-!
# Construction and checking

While a network is built its uses are numbered, and when it is checked they have places. Where no
input uses a local name, the one naming is the other under new names (`Labelled.exists_relabels`,
`Relabels.slots`), and different symbols stay different (`Relabels.injOn`).

While a network is built, the slot of an adapter is unified just before the slot that it feeds; a
check unifies all slots of a use after those of its adapters, since adapters come first. As solving
equations one symbol at a time depends on their order, a check may refuse what was built.
`validate_performAll_iff` says when it does not: every call that adds a use must also succeed when
the slots of its adapters are unified first. Calls that need no adapters always do
(`validate_build_of_direct`).
-/

namespace OperatorNet.Network

variable {α : Type} {g : Network α} {κ : Int → Nat} {ρ : String → String}

/-- No input uses a name that a use of an operator may get. -/
def Clear (g : Network α) : Prop :=
  ∀ n ∈ g.nodes, n.operator = none → n.template.Within fun s => ¬ IsLocal s

/-- Inputs whose symbols have no number sign are clear. -/
lemma clear_of_plain
    (plain : ∀ n ∈ g.nodes, n.operator.isNone → ∀ d ∈ n.template.shape, ∀ s ∈ d.symbols,
      '#' ∉ s.toList) : g.Clear :=
  fun n hn input d hd s hs isLocal =>
    plain n hn (by rw [input]; rfl) d hd s hs isLocal.numberSign_mem

/-- New names for the symbols of a network: places for numbers, and nothing else. -/
structure Relabels (g : Network α) (κ : Int → Nat) (ρ : String → String) : Prop where
  use : ∀ n ∈ g.nodes, n.operator.isSome → ∀ base,
    ρ (freshName (counted κ n.id) base) = freshName (places n.id) base
  plain : ∀ s, ¬ IsLocal s → ρ s = s

/-- A symbol with the suffix of a use is local. -/
lemma isLocal_counted (κ : Int → Nat) (id : Int) (base : String) :
    IsLocal (freshName (counted κ id) base) :=
  ⟨base, κ id, .inl rfl⟩

/-- A symbol with the suffix of a place is local. -/
lemma isLocal_places (id : Int) (base : String) : IsLocal (freshName (places id) base) :=
  ⟨base, id.toNat, .inr rfl⟩

/-- Nodes with the same place are the same. -/
lemma Wired.eq_of_places_eq (wired : g.Wired) {m n : Node α} (hm : m ∈ g.nodes) (hn : n ∈ g.nodes)
    (same : places m.id = places n.id) : m = n := by
  obtain ⟨i, first, -, -⟩ := wired.exists_place hm
  obtain ⟨j, second, -, -⟩ := wired.exists_place hn
  refine wired.eq_of_id_eq hm hn ?_
  rw [places, places, first, second, Int.toNat_natCast, Int.toNat_natCast] at same
  rw [first, second, placeSuffix_inj same]

/-- Uses with the same number are the same. -/
lemma Labelled.eq_of_counted_eq (lab : Labelled g κ) {m n : Node α} (hm : m ∈ g.nodes)
    (hn : n ∈ g.nodes) (usesM : m.operator.isSome) (usesN : n.operator.isSome)
    (same : counted κ m.id = counted κ n.id) : m = n :=
  lab.wired.eq_of_id_eq hm hn (lab.apart m hm n hn usesM usesN (toString_inj same))

/-- A labelled network has new names for its symbols. -/
lemma Labelled.exists_relabels (lab : Labelled g κ) : ∃ ρ, Relabels g κ ρ := by
  let old : {n : Node α // n ∈ g.nodes ∧ n.operator.isSome} × String → String :=
    fun p => freshName (counted κ p.1.1.id) p.2
  let new : {n : Node α // n ∈ g.nodes ∧ n.operator.isSome} × String → String :=
    fun p => freshName (places p.1.1.id) p.2
  have injective : Function.Injective old := by
    rintro ⟨⟨m, hm, usesM⟩, s⟩ ⟨⟨n, hn, usesN⟩, t⟩ same
    obtain ⟨number, rfl⟩ := freshName_inj (plainSuffix_toString _) (plainSuffix_toString _) same
    obtain rfl := lab.eq_of_counted_eq hm hn usesM usesN number
    rfl
  refine ⟨Function.extend old new fun s => s, fun n hn uses base => ?_, fun s plain => ?_⟩
  · exact injective.extend_apply new (fun s => s) (⟨n, hn, uses⟩, base)
  · refine Function.extend_apply' new (fun s => s) s ?_
    rintro ⟨p, rfl⟩
    exact plain (isLocal_counted κ _ _)

/-- In a network whose inputs are clear of local names a symbol is plain or local to a use. -/
lemma Clear.plain_or_local (clear : g.Clear) {s : String} (mentions : g.Mentions κ s) :
    ¬ IsLocal s ∨ ∃ n ∈ g.nodes, n.operator.isSome ∧ ∃ base,
      s = freshName (counted κ n.id) base := by
  rcases mentions with ⟨n, hn, input, d, hd, hs⟩ | uses
  · exact .inl (clear n hn input d hd s hs)
  · exact .inr uses

namespace Relabels

/-- Different symbols get different names. -/
lemma injOn (relabels : Relabels g κ ρ) (lab : Labelled g κ) (clear : g.Clear) :
    Set.InjOn ρ {s | g.Mentions κ s} := by
  intro s hs t ht same
  rcases clear.plain_or_local hs with plainS | ⟨m, hm, usesM, baseS, rfl⟩ <;>
    rcases clear.plain_or_local ht with plainT | ⟨n, hn, usesN, baseT, rfl⟩
  · rwa [relabels.plain s plainS, relabels.plain t plainT] at same
  · rw [relabels.plain s plainS, relabels.use n hn usesN] at same
    exact absurd (same ▸ isLocal_places n.id baseT) plainS
  · rw [relabels.plain t plainT, relabels.use m hm usesM] at same
    exact absurd (same ▸ isLocal_places m.id baseS) plainT
  · rw [relabels.use m hm usesM, relabels.use n hn usesN] at same
    obtain ⟨place, rfl⟩ :=
      freshName_inj (plainSuffix_placeSuffix _) (plainSuffix_placeSuffix _) same
    rw [lab.wired.eq_of_places_eq hm hn place]

variable (relabels : Relabels g κ ρ) {n : Node α} (mem : n ∈ g.nodes)

include relabels mem

/-- The symbols of an operator get the names of the place of its use. -/
lemma rename_freshen (uses : n.operator.isSome) (t : PortType) :
    (t.freshen (counted κ n.id)).rename ρ = t.freshen (places n.id) := by
  rw [PortType.freshen_eq_rename, PortType.freshen_eq_rename, PortType.rename_rename]
  exact congrArg (PortType.rename · t) (funext (relabels.use n mem uses))

/-- By the new names a type under numbers becomes one under places. -/
lemma rename_typeUnder (clear : g.Clear) :
    (n.typeUnder (counted κ)).rename ρ = n.typeUnder places := by
  unfold Node.typeUnder
  cases op : n.operator with
  | none =>
    exact n.template.rename_eq_self fun d hd s hs => relabels.plain s (clear n mem op d hd s hs)
  | some o => exact relabels.rename_freshen mem (by rw [op]; rfl) o.outType

/-- By the new names what a node takes under numbers becomes what it takes under places. -/
lemma map_rename_takes :
    (n.takes (counted κ)).map (PortType.rename ρ) = n.takes places := by
  unfold Node.takes
  cases op : n.operator with
  | none => rfl
  | some o =>
    rw [List.map_map]
    exact List.map_congr_left fun t _ => relabels.rename_freshen mem (by rw [op]; rfl) t

omit mem in
/-- The slots of a network under places are those under numbers with new names. -/
lemma slots (lab : Labelled g κ) (clear : g.Clear) :
    g.slots places = (g.slots (counted κ)).map fun p => (p.1.rename ρ, p.2.rename ρ) := by
  rw [Network.slots, Network.slots, List.map_flatMap]
  refine List.flatMap_congr fun n hn => ?_
  have types : n.inputs.map (g.typeAt places) =
      (n.inputs.map (g.typeAt (counted κ))).map (PortType.rename ρ) := by
    rw [List.map_map]
    refine List.map_congr_left fun r hr => ?_
    obtain ⟨m, hm, rfl, -⟩ := lab.wired.exists_source hn hr
    simp only [typeAt, Function.comp_apply, Ref.id?_id, Option.bind_some, lab.wired.find?_id hm,
      Option.map_some, Option.getD_some]
    exact (relabels.rename_typeUnder hm clear).symm
  rw [slotsOf, slotsOf, ← relabels.map_rename_takes hn, types]
  exact List.zip_map ..

end Relabels

/-- The slots have symbols that the network mentions. -/
lemma Labelled.slots_within (lab : Labelled g κ) {p : PortType × PortType}
    (slot : p ∈ g.slots (counted κ)) : p.1.Within (g.Mentions κ) ∧ p.2.Within (g.Mentions κ) := by
  obtain ⟨n, hn, hp⟩ := List.mem_flatMap.1 slot
  obtain ⟨takes, reads⟩ := List.of_mem_zip hp
  constructor
  · unfold Node.takes at takes
    cases op : n.operator with
    | none => rw [op] at takes; cases takes
    | some o =>
      rw [op] at takes
      obtain ⟨t, -, eq⟩ := List.mem_map.1 takes
      rw [← eq]
      exact t.freshen_within fun base => .of_use hn (by rw [op]; rfl) base
  · obtain ⟨r, hr, eq⟩ := List.mem_map.1 reads
    obtain ⟨m, hm, rfl, -⟩ := lab.wired.exists_source hn hr
    rw [← eq, lab.typeAt_id hm]
    exact lab.template_within hm

/-- A network whose inputs are clear of local names passes a check exactly when its slots unify in
the order of its nodes. -/
theorem WellBuilt.validate_eq_nil_iff (built : WellBuilt g κ) (clear : g.Clear)
    (output : g.outputId.isSome) :
    g.validate = .ok [] ↔ (Bindings.empty.unifySlots? (g.slots (counted κ))).isSome := by
  obtain ⟨ρ, relabels⟩ := built.toLabelled.exists_relabels
  have unified := (Bindings.Renamed.empty (g.Mentions κ) ρ).unifySlots
    (relabels.injOn built.toLabelled clear) fun _ => built.toLabelled.slots_within
  rw [← relabels.slots built.toLabelled clear] at unified
  rw [built.wired.validate_eq_nil_iff output]
  exact (Bindings.isSome_iff_of_rel unified).symm

end OperatorNet.Network

/-! ### Calls whose slots a check unifies -/

namespace OperatorNet.Network

variable {α : Type} [Scalar α] {c : Catalog α} {g : Network α} {κ : Int → Nat}

/-- A call that fails, or whose new slots unify in the order of their nodes. -/
def Call.Accepted (c : Catalog α) (g : Network α) (step : Call α) : Prop :=
  ∀ g', g.attempt c step = .ok g' → (g.bindings.unifySlots? (step.newSlots c g)).isSome

/-- Calls of which each is accepted by the network that it meets. -/
def AllAccepted (c : Catalog α) (g : Network α) : List (Call α) → Prop
  | [] => True
  | step :: rest => step.Accepted c g ∧ AllAccepted c (g.call c step) rest

omit [Scalar α] in
/-- The slots of a well built network unify with more slots when its bindings do. -/
lemma WellBuilt.unifies_append_iff (built : WellBuilt g κ) (new : List (PortType × PortType)) :
    (Bindings.empty.unifySlots? (g.slots (counted κ) ++ new)).isSome ↔
      (Bindings.empty.unifySlots? (g.slots (counted κ))).isSome ∧
        (g.bindings.unifySlots? new).isSome := by
  rw [Bindings.unifySlots?_append]
  cases unified : Bindings.empty.unifySlots? (g.slots (counted κ)) with
  | none => simp
  | some b =>
    have refines := Bindings.Refines.of_unifySlots? .empty unified
    have same : ∀ σ, b.Satisfies σ ↔ g.bindings.Satisfies σ := by
      intro σ
      rw [refines.satisfies_iff, built.satisfies_iff]
      exact and_iff_right (Bindings.satisfies_empty σ)
    simpa using Bindings.isSome_unifySlots?_congr refines.wellFormed built.wellFormed same new

/-- Whether the slots of a network unify in the order of its nodes is decided call by call. -/
lemma WellBuilt.unifies_calls_iff (built : WellBuilt g κ) (reachable : c.Reachable)
    (calls : List (Call α)) :
    ∃ κ', WellBuilt (calls.foldl (call c) g) κ' ∧
      ((Bindings.empty.unifySlots? ((calls.foldl (call c) g).slots (counted κ'))).isSome ↔
        (Bindings.empty.unifySlots? (g.slots (counted κ))).isSome ∧ AllAccepted c g calls) := by
  induction calls generalizing g κ with
  | nil => exact ⟨κ, built, by simp [AllAccepted]⟩
  | cons step rest ih =>
    rw [List.foldl_cons, AllAccepted]
    cases done : g.attempt c step with
    | error f =>
      have stays : g.call c step = g := by rw [call, done]
      have accepted : step.Accepted c g := fun g' eq => by rw [done] at eq; cases eq
      obtain ⟨κ', built', iff⟩ := ih built
      rw [stays]
      exact ⟨κ', built', by rw [iff, and_iff_right accepted]⟩
    | ok g' =>
      have goes : g.call c step = g' := by rw [call, done]
      have accepted : step.Accepted c g ↔ (g.bindings.unifySlots? (step.newSlots c g)).isSome :=
        ⟨fun all => all g' done, fun some _ _ => some⟩
      obtain ⟨κ₁, built₁, slots⟩ := built.attempt reachable done
      obtain ⟨κ', built', iff⟩ := ih built₁
      rw [goes]
      exact ⟨κ', built', by rw [iff, slots, built.unifies_append_iff, accepted, and_assoc]⟩

/-- A network whose inputs are clear of local names passes a check exactly when every call that adds
a use also succeeds with the slots of its adapters first. -/
lemma validate_eq_nil_iff_allAccepted (reachable : c.Reachable) (id : String)
    (calls : List (Call α)) (clear : (build c id calls).Clear)
    (output : (build c id calls).outputId.isSome) :
    (build c id calls).validate = .ok [] ↔ AllAccepted c (empty id) calls := by
  obtain ⟨κ, built, iff⟩ :=
    (WellBuilt.empty (κ := fun _ => 0) id).unifies_calls_iff reachable calls
  rw [WellBuilt.validate_eq_nil_iff (g := build c id calls) built clear output]
  exact iff.trans (and_iff_right rfl)

omit [Scalar α] in
/-- Feeds without adapters have no slots of adapters. -/
lemma adapterSlots_of_direct {k : Nat} {feeds : List (Feed α)}
    (direct : ∀ feed ∈ feeds, ∃ source, feed = .direct source) : g.adapterSlots k feeds = [] := by
  induction feeds with
  | nil => rfl
  | cons feed rest ih =>
    obtain ⟨source, rfl⟩ := direct feed (by simp)
    exact ih fun feed hf => direct feed (by simp [hf])

omit [Scalar α] in
/-- Slots that are all fed directly unify as they are fed. -/
lemma Feeds.unifySlots?_of_direct {adapters : List (Operator α)} {b b' : Bindings} {k k' : Nat}
    {slots : List (PortType × Int)} {feeds : List (Feed α)}
    (fed : Feeds g adapters b k slots feeds b' k') (wired : g.Wired)
    (direct : ∀ feed ∈ feeds, ∃ source, feed = .direct source) :
    b.unifySlots? ((slots.map Prod.fst).zip (feeds.map g.feedType)) = some b' := by
  induction fed with
  | done => rfl
  | direct mem unified _ ih =>
    simp only [List.map_cons, List.zip_cons_cons, feedType, wired.templateAt_id mem,
      Bindings.unifySlots?_cons, unified, Option.bind_some]
    exact ih fun feed hf => direct feed (List.mem_cons_of_mem _ hf)
  | adapted =>
    obtain ⟨source, eq⟩ := direct _ (List.mem_cons_self ..)
    cases eq

/-- A call that brings in no adapters is accepted in a network without them. -/
lemma WellBuilt.accepted_of_direct (built : WellBuilt g κ) {step : Call α}
    (none : (g.call c step).adapterNodes = []) : g.adapterNodes = [] ∧ step.Accepted c g := by
  cases done : g.attempt c step with
  | error f =>
    rw [call, done] at none
    exact ⟨none, fun g' eq => by rw [done] at eq; cases eq⟩
  | ok g' =>
    rw [call, done] at none
    suffices some : g.adapterNodes = [] ∧ (g.bindings.unifySlots? (step.newSlots c g)).isSome from
      ⟨some.1, fun _ _ => some.2⟩
    cases does_of_attempt done with
    | input added =>
      obtain ⟨b, -, -, rfl⟩ := addInput_eq_ok added
      refine ⟨?_, rfl⟩
      change (g.nodes ++ [_]).filter Node.inserted = [] at none
      rw [List.filter_append, List.append_eq_nil_iff] at none
      exact none.1
    | output set =>
      obtain ⟨-, rfl⟩ := setOutput_eq_ok set
      exact ⟨none, rfl⟩
    | node found added =>
      obtain ⟨feeds, b, k, arity, fed, -, rfl⟩ := addNode_eq_ok added
      obtain ⟨before, allDirect⟩ := adapterNodes_withUse.1 none
      refine ⟨before, ?_⟩
      have unified := (feeds_of_feed fed).unifySlots?_of_direct built.wired allDirect
      rw [openSlots, List.map_fst_zip (by rw [List.length_map, arity]; rfl)] at unified
      simp only [Call.newSlots, found, useSlots, fed, adapterSlots_of_direct allDirect,
        List.nil_append, operatorSlots, unified, Option.isSome_some]

/-- A network without adapters, with an output and inputs that are clear of local names, passes a
check. -/
lemma validate_build_of_direct (reachable : c.Reachable) (id : String) (calls : List (Call α))
    (clear : (build c id calls).Clear) (output : (build c id calls).outputId.isSome)
    (direct : (build c id calls).adapterNodes = []) : (build c id calls).validate = .ok [] := by
  rw [validate_eq_nil_iff_allAccepted reachable id calls clear output]
  have key : ∀ (calls : List (Call α)) (g : Network α) κ, WellBuilt g κ →
      (calls.foldl (call c) g).adapterNodes = [] → g.adapterNodes = [] ∧ AllAccepted c g calls := by
    intro calls
    induction calls with
    | nil => exact fun g κ _ none => ⟨none, trivial⟩
    | cons step rest ih =>
      intro g κ built none
      obtain ⟨κ', built'⟩ : ∃ κ', WellBuilt (g.call c step) κ' := by
        rw [call]
        cases done : g.attempt c step with
        | error f => exact ⟨κ, built⟩
        | ok g' =>
          obtain ⟨κ', built', -⟩ := built.attempt reachable done
          exact ⟨κ', built'⟩
      obtain ⟨before, others⟩ := ih _ κ' built' none
      obtain ⟨start, accepted⟩ := built.accepted_of_direct before
      exact ⟨start, accepted, others⟩
  exact (key calls (empty id) (fun _ => 0) (.empty id) direct).2

/-- A network on which calls are made and that has an output passes a check exactly when its slots
unify in the order of its nodes, with the local names that a check gives. Where no input uses such a
name and no number was too long, this is decided call by call: each must also succeed with the slots
of its adapters first. So a network without adapters passes. -/
theorem validate_performAll_iff (reachable : c.Reachable) (id : String) (calls : List (Call α))
    (output : (performAll c (empty id) calls).2.outputId.isSome) :
    let g := (performAll c (empty id) calls).2
    (g.validate = .ok [] ↔ (Bindings.empty.unifySlots? (g.slots places)).isSome) ∧
      (g.Clear → (∀ o ∈ (performAll c (empty id) calls).1, ¬ o.tooLong) →
        (g.validate = .ok [] ↔ AllAccepted c (empty id) calls) ∧
          (g.adapterNodes = [] → g.validate = .ok [])) := by
  obtain ⟨κ, built⟩ := assembled_performAll reachable id calls
  refine ⟨built.wired.validate_eq_nil_iff output, fun clear short => ?_⟩
  rw [performAll_eq_build reachable short] at clear output ⊢
  exact ⟨validate_eq_nil_iff_allAccepted reachable id calls clear output,
    validate_build_of_direct reachable id calls clear output⟩

open Sample in
/-- With known axes the adapter may come first. -/
theorem validate_mixing :
    halving.Reachable ∧
      let made := performAll halving (empty "g") (mixing (.ofNat 3) (.ofNat 6))
      made.2.outputId.isSome ∧ made.2.Clear ∧ (∀ o ∈ made.1, ¬ o.tooLong) ∧
        made.2.adapterNodes.length = 1 ∧ made.2.validate = .ok [] ∧
        AllAccepted halving (empty "g") (mixing (.ofNat 3) (.ofNat 6)) := by
  have output :
      (performAll halving (empty "g") (mixing (.ofNat 3) (.ofNat 6))).2.outputId.isSome := by
    decide +kernel
  have clear : (performAll halving (empty "g") (mixing (.ofNat 3) (.ofNat 6))).2.Clear :=
    clear_of_plain (by decide +kernel)
  have short : ∀ o ∈ (performAll halving (empty "g") (mixing (.ofNat 3) (.ofNat 6))).1,
      ¬ o.tooLong := by
    decide +kernel
  obtain ⟨byOrder, byCalls⟩ := validate_performAll_iff reachable_halving "g" _ output
  have passes := byOrder.2 (by decide +kernel)
  exact ⟨reachable_halving, output, clear, short, by decide +kernel, passes,
    (byCalls clear short).1.1 passes⟩

open Sample in
/-- With an open axis the adapter must not come first: all calls succeed, and a check refuses the
network. -/
theorem validate_mixing_ne_nil :
    ¬ ∀ (c : Catalog Float), c.Reachable → ∀ id (calls : List (Call Float)),
      (∀ o ∈ (performAll c (empty id) calls).1, o.2.isOk) →
      (performAll c (empty id) calls).2.outputId.isSome →
        (performAll c (empty id) calls).2.validate = .ok [] := by
  intro always
  have passes := always halving reachable_halving "g" (mixing (.symbol "X") (twice "X"))
    (by decide +kernel) (by decide +kernel)
  have counted := congrArg (fun errors => errors.toOption.map List.length) passes
  revert counted
  decide +kernel

end OperatorNet.Network
