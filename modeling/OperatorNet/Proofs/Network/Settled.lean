import OperatorNet.Proofs.Network.Recheck

/-!
# Settled networks

A network is settled when the types that are known become its templates (`settled`). A check of the
settled network then meets other symbols than those that the network was built with: uses have
places, and what was an unknown symbol of an input may be a sum (`Unfolds`). Where its slots unify
again, the types of all nodes come out as they were, up to the names of symbols
(`WellBuilt.exists_rename`).
-/

namespace OperatorNet

/-- Local names that are replaced by symbols become those symbols. -/
lemma PortType.substitute_freshen {suffix suffix' : String} {φ : String → Dim}
    (names : ∀ base, φ (freshName suffix base) = .symbol (freshName suffix' base)) (t : PortType) :
    (t.freshen suffix).substitute φ = t.freshen suffix' := by
  rw [freshen_eq_rename, freshen_eq_rename, rename, rename, substitute, mapDims_mapDims]
  refine mapDims_congr fun d _ => Dim.eval_ext fun σ => ?_
  rw [Dim.eval_substitute, Dim.eval_rename, Dim.eval_rename]
  exact congrArg (Dim.eval · d) (funext fun s => by rw [names, Dim.eval_symbol])

namespace Node

variable {α : Type}

/-- The node with its known type for template. -/
def settle (n : Node α) : Node α :=
  { n with template := n.resolved }

/-- Settling keeps wires. -/
lemma keeps_settle : Keeps (settle : Node α → Node α) :=
  ⟨fun _ => rfl, fun _ => rfl, fun _ => rfl⟩

end Node

namespace Network

variable {α : Type} {g : Network α} {κ : Int → Nat} {φ : String → Dim}

/-- The network with its known types for templates. -/
def settled (g : Network α) : Network α :=
  g.mapNodes Node.settle

/-- A network that is settled stays wired. -/
lemma Wired.settled (wired : g.Wired) : g.settled.Wired :=
  wired.mapNodes Node.keeps_settle fun n hn => (wired.nodes n hn).recorded

/-- What the symbols of a network become when it is settled and checked: numbers become places, and
all other symbols what is known of them. -/
structure Unfolds (g : Network α) (κ : Int → Nat) (φ : String → Dim) : Prop where
  use : ∀ n ∈ g.nodes, n.operator.isSome → ∀ base,
    φ (freshName (counted κ n.id) base) = .symbol (freshName (places n.id) base)
  plain : ∀ s, ¬ IsLocal s → φ s = g.bindings.resolve (.symbol s)

/-- In a labelled network it is clear what each symbol becomes. -/
lemma Labelled.exists_unfolds (lab : Labelled g κ) : ∃ φ, Unfolds g κ φ := by
  classical
  obtain ⟨ρ, relabels⟩ := lab.exists_relabels
  refine ⟨fun s => if IsLocal s then .symbol (ρ s) else g.bindings.resolve (.symbol s), ?_, ?_⟩
  · intro n hn uses base
    simp only [if_pos (isLocal_counted κ n.id base), relabels.use n hn uses base]
  · intro s plain
    simp only [if_neg plain]

/-- The local names of the uses of a network. -/
def UseName (g : Network α) (κ : Int → Nat) (s : String) : Prop :=
  ∃ n ∈ g.nodes, n.operator.isSome ∧ ∃ base, s = freshName (counted κ n.id) base

/-- The names that the uses of a network get from their places. -/
def PlaceName (g : Network α) (t : String) : Prop :=
  ∃ n ∈ g.nodes, n.operator.isSome ∧ ∃ base, t = freshName (places n.id) base

/-- A symbol of a network with inputs that are clear of local names has no name of a place. -/
lemma Clear.not_placeName (clear : g.Clear) {s : String} (mentions : g.Mentions κ s) :
    ¬ g.PlaceName s := by
  rintro ⟨m, -, -, base, rfl⟩
  rcases clear.plain_or_local mentions with plain | ⟨n, -, -, base', same⟩
  · exact plain (isLocal_places m.id base)
  · obtain ⟨eq, -⟩ :=
      freshName_inj (plainSuffix_placeSuffix _) (plainSuffix_toString _) same
    exact placeSuffix_ne_toString _ _ eq

/-- What symbols are read as when a settled network is looked at from the network itself: places as
numbers, symbols about which nothing is known as themselves, and others as the number one. -/
lemma Labelled.exists_folds (lab : Labelled g κ) (clear : g.Clear) : ∃ ψ : String → Dim,
    (∀ n ∈ g.nodes, n.operator.isSome → ∀ base,
      ψ (freshName (places n.id) base) = .symbol (freshName (counted κ n.id) base)) ∧
    (∀ t, ¬ g.PlaceName t → g.bindings.Free t → ψ t = .symbol t) ∧
    ∀ t, ¬ g.PlaceName t → ¬ g.bindings.Free t → ψ t = .ofNat 1 := by
  classical
  obtain ⟨ρ, relabels⟩ := lab.exists_relabels
  have apart : Set.InjOn ρ {s | g.UseName κ s} :=
    (relabels.injOn lab clear).mono fun s ⟨n, hn, uses, base, eq⟩ => .inr ⟨n, hn, uses, base, eq⟩
  obtain ⟨ψ, read, -⟩ := Bindings.exists_reading apart
  refine ⟨fun t => if g.PlaceName t then ψ t else if g.bindings.Free t then .symbol t else .ofNat 1,
    fun n hn uses base => ?_, fun t other free => ?_, fun t other known => ?_⟩
  · have place : g.PlaceName (freshName (places n.id) base) := ⟨n, hn, uses, base, rfl⟩
    simp only [if_pos place]
    rw [← relabels.use n hn uses, read _ ⟨n, hn, uses, base, rfl⟩]
  · simp only [if_neg other, if_pos free]
  · simp only [if_neg other, if_neg known]

namespace Unfolds

variable (unfolds : Unfolds g κ φ)

include unfolds

/-- A type under numbers becomes the known type under places. -/
lemma substitute_typeUnder (built : WellBuilt g κ) (clear : g.Clear) {n : Node α}
    (mem : n ∈ g.nodes) : (n.typeUnder (counted κ)).substitute φ = n.settle.typeUnder places := by
  unfold Node.typeUnder
  cases op : n.operator with
  | none =>
    have same : n.settle.operator = none := op
    simp only [same]
    change n.template.substitute φ = n.resolved
    rw [built.resolved n mem, Bindings.resolveType, PortType.substitute]
    refine PortType.mapDims_congr fun d hd => ?_
    rw [← Bindings.substitute_resolve_symbol]
    exact Dim.substitute_congr fun s hs => unfolds.plain s (clear n mem op d hd s hs)
  | some o =>
    have same : n.settle.operator = some o := op
    simp only [same]
    exact PortType.substitute_freshen (unfolds.use n mem (by rw [op]; rfl)) o.outType

/-- The slots of a settled network are those of the network with symbols unfolded. -/
lemma slots (built : WellBuilt g κ) (clear : g.Clear) :
    g.settled.slots places =
      (g.slots (counted κ)).map fun p => (p.1.substitute φ, p.2.substitute φ) := by
  rw [Network.slots, Network.slots, settled, mapNodes, List.flatMap_map, List.map_flatMap]
  refine List.flatMap_congr fun n hn => ?_
  have takes : (n.takes (counted κ)).map (PortType.substitute φ) = n.takes places := by
    unfold Node.takes
    cases op : n.operator with
    | none => rfl
    | some o =>
      rw [List.map_map]
      exact List.map_congr_left fun t _ =>
        PortType.substitute_freshen (unfolds.use n hn (by rw [op]; rfl)) t
  have types : n.inputs.map ((g.mapNodes Node.settle).typeAt places) =
      (n.inputs.map (g.typeAt (counted κ))).map (PortType.substitute φ) := by
    rw [List.map_map]
    refine List.map_congr_left fun r hr => ?_
    obtain ⟨m, hm, rfl, -⟩ := built.wired.exists_source hn hr
    rw [typeAt_mapNodes Node.keeps_settle]
    simp only [typeAt, Function.comp_apply, Ref.id?_id, Option.bind_some, built.wired.find?_id hm,
      Option.map_some, Option.getD_some]
    exact (unfolds.substitute_typeUnder built clear hm).symm
  change (n.takes places).zip (n.inputs.map ((g.mapNodes Node.settle).typeAt places)) = _
  rw [slotsOf, ← takes, types]
  exact List.zip_map ..

/-- What the slots of a settled network unify to corresponds to the bindings of the network. -/
lemma exists_corresponds (built : WellBuilt g κ) (clear : g.Clear) {b : Bindings}
    (unified : Bindings.empty.unifySlots? (g.settled.slots places) = some b) :
    ∃ ψ, g.bindings.Corresponds b (g.Mentions κ) φ ψ := by
  obtain ⟨ψ, place, itself, known⟩ := built.toLabelled.exists_folds clear
  have refines := Bindings.Refines.of_unifySlots? .empty unified
  rw [unfolds.slots built clear] at refines
  have satisfies_iff : ∀ τ, b.Satisfies τ ↔ g.bindings.Satisfies fun s => (φ s).eval τ := by
    intro τ
    rw [refines.satisfies_iff, built.satisfies_iff, and_iff_right (Bindings.satisfies_empty τ),
      List.forall_mem_map]
    exact forall₂_congr fun p _ => PortType.agree_substitute
  -- going there and back again: a plain symbol stays, one of a use returns through its node's place
  have inverse : ∀ σ s, g.Mentions κ s → g.bindings.Satisfies σ →
      (φ s).eval (fun t => (ψ t).eval σ) = σ s := by
    intro σ s mentions satisfied
    rcases clear.plain_or_local mentions with plain | ⟨n, hn, uses, base, rfl⟩
    · rw [unfolds.plain s plain, ← Dim.eval_symbol σ s, ← Bindings.eval_resolve satisfied]
      refine Dim.eval_congr fun t ht => ?_
      have free := built.wellFormed.free_of_mem_resolve ht
      have covers : (Dim.symbol s).Within (g.Mentions κ) := fun u hu => by
        rw [Dim.symbols_symbol, List.mem_singleton] at hu
        exact hu ▸ mentions
      rw [itself t (clear.not_placeName (built.within.resolve covers t ht)) free, Dim.eval_symbol]
    · rw [unfolds.use n hn uses, Dim.eval_symbol, place n hn uses, Dim.eval_symbol]
  refine ⟨ψ, fun τ => (satisfies_iff τ).1, fun σ satisfied => ?_, inverse, fun t free => ?_⟩
  · refine (satisfies_iff _).2 ((built.within.satisfies_congr fun s mentions => ?_).2 satisfied)
    exact inverse σ s mentions satisfied
  -- a symbol is free on the other side where some solution tells it from the rest by an indicator
  · by_cases named : g.PlaceName t
    · obtain ⟨n, hn, uses, base, rfl⟩ := named
      refine ⟨_, (satisfies_iff _).1 (refines.wellFormed.satisfies_extend
        (indicator (freshName (places n.id) base))), ?_⟩
      rw [place n hn uses, Dim.eval_symbol, unfolds.use n hn uses, Dim.eval_symbol,
        Bindings.extend_of_free free, indicator_self]
      exact Nat.one_pos
    · refine ⟨_, built.wellFormed.satisfies_extend (indicator t), ?_⟩
      by_cases unknown : g.bindings.Free t
      · rw [itself t named unknown, Dim.eval_symbol, Bindings.extend_of_free unknown,
          indicator_self]
        exact Nat.one_pos
      · rw [known t named unknown, Dim.eval_ofNat]
        exact Nat.one_pos

end Unfolds

/-- The symbols of the types of the nodes of a network, as far as these are known. -/
def Shows (g : Network α) (s : String) : Prop :=
  ∃ n ∈ g.nodes, ∃ d ∈ n.resolved.shape, s ∈ d.symbols

/-- Where the slots of a settled network unify, all types come out as they were, up to the names of
symbols. -/
theorem WellBuilt.exists_rename (built : WellBuilt g κ) (clear : g.Clear) {b : Bindings}
    (unified : Bindings.empty.unifySlots? (g.settled.slots places) = some b) :
    ∃ π : String → String, Set.InjOn π {s | g.Shows s} ∧
      ∀ n ∈ g.nodes, b.resolveType (n.settle.typeUnder places) = n.resolved.rename π := by
  obtain ⟨φ, unfolds⟩ := built.toLabelled.exists_unfolds
  obtain ⟨ψ, cor⟩ := unfolds.exists_corresponds built clear unified
  have wf := (Bindings.Refines.of_unifySlots? .empty unified).wellFormed
  obtain ⟨π, injective, same⟩ := cor.exists_rename built.wellFormed wf
  have known : ∀ n ∈ g.nodes, ∀ d ∈ n.template.shape,
      ∀ s ∈ (g.bindings.resolve d).symbols, g.bindings.Free s ∧ g.Mentions κ s :=
        fun n hn d hd s hs =>
    ⟨built.wellFormed.free_of_mem_resolve hs,
      built.within.resolve (built.template_within hn d hd) s hs⟩
  refine ⟨π, injective.mono ?_, fun n hn => ?_⟩
  · rintro s ⟨n, hn, d, hd, hs⟩
    rw [built.resolved n hn] at hd
    obtain ⟨e, he, rfl⟩ := List.mem_map.1 hd
    exact known n hn e he s hs
  · rw [← unfolds.substitute_typeUnder built clear hn, ← built.template n hn, built.resolved n hn,
      Bindings.resolveType, Bindings.resolveType, PortType.substitute, PortType.rename,
      PortType.mapDims_mapDims, PortType.mapDims_mapDims]
    exact PortType.mapDims_congr fun d hd => same d fun s hs => (known n hn d hd s hs).2

end Network

end OperatorNet
