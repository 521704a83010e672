import OperatorNet.Proofs.Bindings.Termination
import OperatorNet.Proofs.Network.Soundness
import OperatorNet.Proofs.PortType.Keys
import OperatorNet.Proofs.PortType.Agreement
import OperatorNet.Proofs.Tables

/-!
# Local symbols

A use of an operator gives local names to the symbols of the operator (`Operator.localNames`), made
from a number that no other use has. So the local names of different uses are apart, and those of a
new use are apart from all that is known, as long as no input has a symbol that is written like a
local name with a number that is not used up yet (`Network.Spares`, `localNames_fresh`). Nothing
keeps the type of an input from having such a symbol; then a new use captures it.
-/

namespace OperatorNet

variable {α : Type}

/-- The fresh names of types are the freshened symbols that they mention. -/
lemma PortType.mem_freshNames {types : List PortType} {suffix s : String} :
    s ∈ (freshNames types suffix).map Prod.snd ↔
      ∃ t ∈ types, ∃ base, t.Mentions base ∧ s = freshName suffix base := by
  refine Table.mem_values_ofList_map.trans ⟨?_, ?_⟩
  · rintro ⟨base, mem, rfl⟩
    obtain ⟨t, ht, there⟩ := List.mem_flatMap.1 mem
    exact ⟨t, ht, base, List.mem_flatMap.1 (TagSet.mem_ofList.1 there), rfl⟩
  · rintro ⟨t, ht, base, there, rfl⟩
    exact ⟨base, List.mem_flatMap.2 ⟨t, ht, TagSet.mem_ofList.2 (List.mem_flatMap.2 there)⟩, rfl⟩

/-- The local names of a use of an operator that has the given number. -/
def Operator.localNames (op : Operator α) (k : Nat) : List String :=
  (PortType.freshNames (op.inTypes ++ [op.outType]) (toString k)).map Prod.snd

/-- Fresh names tell the number and the name that they are made from. -/
lemma freshName_toString_inj {j k : Nat} {s s' : String}
    (same : freshName (toString j) s = freshName (toString k) s') : j = k ∧ s = s' :=
  (freshName_inj (plainSuffix_toString j) (plainSuffix_toString k) same).imp_left toString_inj

/-- Uses with different numbers have no local names in common. -/
lemma Operator.localNames_disjoint {j k : Nat} (ne : j ≠ k) (op op' : Operator α) :
    (op.localNames j).Disjoint (op'.localNames k) := by
  intro s left right
  obtain ⟨_, _, base, _, rfl⟩ := PortType.mem_freshNames.1 left
  obtain ⟨_, _, base', _, same⟩ := PortType.mem_freshNames.1 right
  exact ne (freshName_toString_inj same).1

/-- A type freshened by one number has no name of another. -/
lemma PortType.freshen_within_ne {j k : Nat} (ne : j ≠ k) (t : PortType) (s : String) :
    (t.freshen (toString j)).Within (· ≠ freshName (toString k) s) :=
  t.freshen_within fun _ same => ne (freshName_toString_inj same).1

namespace Network

/-- No input has a symbol that is written like a local name with one of the numbers from `k` up to
`k'`. -/
def Spares (g : Network α) (k k' : Nat) : Prop :=
  ∀ n ∈ g.nodes, n.operator = none → ∀ s, n.template.Mentions s →
    ∀ j, k ≤ j → j < k' → ∀ base, s ≠ freshName (toString j) base

/-- A use of an operator with local names made from a number: its type, and its slots, which resolve
to the types of the nodes that it reads from. -/
structure Instance (g : Network α) (n : Node α) (op : Operator α) (k : Nat) : Prop where
  template : n.template = op.outType.freshen (toString k)
  slots : List.Forall₂ (fun t r => ∃ m ∈ g.nodes, r = .id m.id ∧ m.id < n.id ∧
    g.bindings.resolveType (t.freshen (toString k)) = m.resolved) op.inTypes n.inputs

/-- The local names in a network after a use of an operator was added, where `κ` has the number of
each use. -/
structure Fresh (g g' : Network α) (op : Operator α) (id : Int) (κ : Int → Nat) : Prop where
  new : id ∉ g.ids ∧ ∃ n ∈ g'.nodes, n.id = id ∧ n.operator = some op
  instances : ∀ n ∈ g'.nodes, ∀ o, n.operator = some o → g'.Instance n o (κ n.id)
  apart : ∀ m ∈ g'.nodes, ∀ n ∈ g'.nodes, m.id ≠ n.id → ∀ o o', m.operator = some o →
    n.operator = some o' → (o.localNames (κ m.id)).Disjoint (o'.localNames (κ n.id))
  /-- The names that come with the new nodes are in the type of no node that was there. -/
  unused : ∀ n ∈ g'.nodes, n.id ∉ g.ids → ∀ o, n.operator = some o →
    ∀ s ∈ o.localNames (κ n.id), ∀ m ∈ g.nodes, ¬ m.template.Mentions s
  /-- A symbol of the output only is met, stands for nothing else, and is known to no other node. -/
  outOnly : ∀ s, op.outType.Mentions s → (∀ t ∈ op.inTypes, ¬ t.Mentions s) →
    freshName (toString (κ id)) s ∈ g'.bindings.known ∧
      (∀ F : Forest, F.Represents g'.bindings → F.Unbound (freshName (toString (κ id)) s)) ∧
      g'.bindings.resolve (.symbol (freshName (toString (κ id)) s)) =
        .symbol (freshName (toString (κ id)) s) ∧
      ∀ m ∈ g'.nodes, m.id ≠ id → ¬ m.resolved.Mentions (freshName (toString (κ id)) s)

variable {g g' : Network α} {κ κ' : Int → Nat} {op : Operator α} {id : Int} {k : Nat} {s : String}

/-- The template of a use is the freshened output type. -/
lemma Labelled.template_use (lab : Labelled g κ) {n : Node α} (mem : n ∈ g.nodes)
    (uses : n.operator = some op) : n.template = op.outType.freshen (toString (κ n.id)) := by
  rw [lab.template n mem, Node.typeUnder, uses]
  rfl

/-- Local names from spare numbers are not mentioned. -/
lemma Assembled.not_mentions (built : Assembled g κ) (spares : g.Spares g.suffixes k) {j : Nat}
    (low : g.suffixes ≤ j) (high : j < k) (base : String) :
    ¬ g.Mentions κ (freshName (toString j) base) := by
  rintro (⟨n, mem, none, occurs⟩ | ⟨n, mem, uses, base', same⟩)
  · exact spares n mem none _ occurs j low high base rfl
  · have := built.below n mem uses
    have := (freshName_toString_inj same).1
    omega

/-- After types are brought up to date, all symbols of the templates are known. -/
lemma mem_known_refresh {n : Node α} (mem : n ∈ g.nodes) (mentions : n.template.Mentions s) :
    s ∈ g.refresh.bindings.known :=
  Bindings.mem_known_meet.2
    (.inr (List.mem_flatMap.2 ⟨n, mem, List.mem_flatMap.2 mentions⟩))

section Added

variable [Scalar α] {c : Catalog α} {sources : List Int} {params : Params α}

/-- After a node is added, all symbols of the templates are known. -/
lemma mem_known_addNode (added : g.addNode c op sources params = .ok (id, g')) {n : Node α}
    (mem : n ∈ g'.nodes) (mentions : n.template.Mentions s) : s ∈ g'.bindings.known := by
  obtain ⟨feeds, b, k, -, -, -, rfl⟩ := addNode_eq_ok added
  obtain ⟨m, there, rfl⟩ := List.mem_map.1 mem
  exact mem_known_refresh there mentions

/-- Adding a use brings in no other symbols than those of its slots and the local names of its
adapters. -/
lemma Assembled.within_addNode (built : Assembled g κ)
    (added : g.addNode c op sources params = .ok (id, g')) {P : String → Prop}
    (known : ∀ s, g.Mentions κ s → P s)
    (slots : ∀ t ∈ op.inTypes, (t.freshen (toString g.suffixes)).Within P)
    (adapters : ∀ t : PortType, ∀ j, g.suffixes < j → (t.freshen (toString j)).Within P) :
    g'.bindings.Within P := by
  obtain ⟨feeds, b, k, -, given, -, rfl⟩ := addNode_eq_ok added
  refine Bindings.Within.mono (b := b)
    ((feeds_of_feed given).within (built.within.mono known) ?_ ?_ ?_)
    fun _ there => there
  · intro p hp
    obtain ⟨t, ht, eq⟩ := List.mem_map.1 (List.of_mem_zip hp).1
    exact eq ▸ slots t ht
  · exact fun n hn d hd s hs => known s (built.template_within hn d hd s hs)
  · exact fun a _ t _ j low _ => adapters t j low

/-- A symbol that no slot of a new use has stays out of what is known about symbols. -/
lemma Assembled.within_ne_addNode (built : Assembled g κ)
    (added : g.addNode c op sources params = .ok (id, g'))
    (unknown : ¬ g.Mentions κ (freshName (toString g.suffixes) s))
    (others : ∀ t ∈ op.inTypes, ¬ t.Mentions s) :
    g'.bindings.Within (· ≠ freshName (toString g.suffixes) s) := by
  refine built.within_addNode added ?_ ?_ ?_
  · rintro _ known rfl
    exact unknown known
  · refine fun t ht => PortType.rename_within (PortType.within_iff.2 fun u occurs same => ?_)
    exact others t ht ((freshName_toString_inj same).2 ▸ occurs)
  · exact fun t j later => t.freshen_within_ne (Nat.ne_of_gt later) s

end Added

namespace Adds

variable (adds : Adds g g' κ κ' op id)

include adds

/-- The numbers of new nodes have not been used up. -/
lemma le_number {n : Node α} (mem : n ∈ g'.nodes) (new : n.id ∉ g.ids) : g.suffixes ≤ κ' n.id := by
  rcases adds.fresh n mem with ⟨m, hm, rfl⟩ | ⟨-, low⟩
  · exact absurd (List.mem_map_of_mem hm) new
  · exact low

variable (built' : WellBuilt g' κ')

include built'

/-- A node that is added takes a number. -/
lemma suffixes_lt : g.suffixes < g'.suffixes := by
  obtain ⟨n, there, rfl, uses⟩ := adds.use
  rw [← adds.number]
  exact built'.below n there (by rw [uses]; rfl)

/-- The id of an added node is new. -/
lemma id_notMem (built : Assembled g κ) : id ∉ g.ids := by
  intro old
  obtain ⟨n, there, rfl, uses⟩ := adds.use
  obtain ⟨m, hm, same⟩ := List.mem_map.1 old
  obtain ⟨kept, number⟩ := adds.kept m hm
  obtain rfl : m.refresh g'.bindings = n := built'.wired.eq_of_id_eq kept there same
  have low := built.below m hm (by rw [show m.operator = some op from uses]; rfl)
  rw [← number] at low
  exact absurd adds.number (Nat.ne_of_lt low)

/-- The types of the other nodes lack the local names of a new use. -/
lemma template_within_ne (built : Assembled g κ)
    (unknown : ¬ g.Mentions κ (freshName (toString g.suffixes) s)) {m : Node α} (mem : m ∈ g'.nodes)
    (other : m.id ≠ id) : m.template.Within (· ≠ freshName (toString g.suffixes) s) := by
  rcases adds.fresh m mem with ⟨m₀, hm₀, rfl⟩ | ⟨use, -⟩
  · rintro d hd _ hs rfl
    exact unknown (built.template_within hm₀ d hd _ hs)
  · obtain ⟨n, there, rfl, uses⟩ := adds.use
    obtain ⟨o, operator⟩ := Option.isSome_iff_exists.1 use
    rw [built'.template_use mem operator]
    refine PortType.freshen_within_ne (fun same => other ?_) _ s
    exact built'.apart m mem n there use (by rw [uses]; rfl) (same.trans adds.number.symm)

end Adds

section Added

variable [Scalar α] {c : Catalog α} {sources : List Int} {params : Params α}

/-- A symbol of the output only is met and free, and no other node resolves to it. -/
lemma Assembled.outOnly (built : Assembled g κ) (built' : WellBuilt g' κ')
    (adds : Adds g g' κ κ' op id) (added : g.addNode c op sources params = .ok (id, g'))
    (unknown : ¬ g.Mentions κ (freshName (toString g.suffixes) s))
    (mentions : op.outType.Mentions s) (others : ∀ t ∈ op.inTypes, ¬ t.Mentions s) :
    freshName (toString g.suffixes) s ∈ g'.bindings.known ∧
      g'.bindings.Free (freshName (toString g.suffixes) s) ∧
      ∀ m ∈ g'.nodes, m.id ≠ id → ¬ m.resolved.Mentions (freshName (toString g.suffixes) s) := by
  have within := built.within_ne_addNode added unknown others
  refine ⟨?_, fun solved => ?_, fun m hm other occurs => ?_⟩
  · obtain ⟨n, there, rfl, uses⟩ := adds.use
    refine mem_known_addNode added there ?_
    rw [built'.template_use there uses, adds.number]
    exact PortType.mentions_rename.2 ⟨s, mentions, rfl⟩
  · obtain ⟨p, hp, same⟩ := List.mem_map.1 solved
    exact (within p hp).1 same
  · rw [built'.resolved m hm] at occurs
    have template := adds.template_within_ne built' built unknown hm other
    exact PortType.within_iff.1 (within.resolveType template) _ occurs rfl

/-- A use that is added to an assembled network has fresh local names. -/
lemma Assembled.fresh (built : Assembled g κ) (unary : ∀ a ∈ c.adapters, a.arity = 1)
    (added : g.addNode c op sources params = .ok (id, g'))
    (spares : g.Spares g.suffixes g'.suffixes) :
    ∃ κ', Fresh g g' op id κ' := by
  obtain ⟨κ', -, -, -, assembled, -, -, adds⟩ := built.addNode unary added
  have built' : WellBuilt g' κ' := ⟨assembled, upToDate_addNode added⟩
  refine ⟨κ', ⟨adds.id_notMem built' built, adds.use⟩, ?instances, ?apart, ?unused, ?outOnly⟩
  case instances =>
    intro n hn o use
    exact ⟨built'.template_use hn use, built'.resolved.reads (built'.reads hn use)⟩
  case apart =>
    intro m hm n hn ne o o' left right
    refine Operator.localNames_disjoint (fun same => ne ?_) o o'
    exact built'.apart m hm n hn (by rw [left]; rfl) (by rw [right]; rfl) same
  case unused =>
    intro n hn later o use s local_ m hm mentions
    -- the number of the new node was not used up, so only an input can mention a name made from it
    obtain ⟨t, -, base, -, rfl⟩ := PortType.mem_freshNames.1 local_
    have low := adds.le_number hn later
    have high := built'.below n hn (by rw [use]; rfl)
    refine built.not_mentions spares low high base ?_
    exact PortType.within_iff.1 (built.template_within hm) _ mentions
  case outOnly =>
    intro s mentions others
    have unknown := built.not_mentions spares (Nat.le_refl _) (adds.suffixes_lt built') s
    obtain ⟨known, free, unread⟩ := built.outOnly built' adds added unknown mentions others
    rw [adds.number]
    exact ⟨known, fun F rep => rep.unbound known free, Bindings.resolve_symbol_of_free free, unread⟩

/-- Whatever calls a network is built by, the local names of a use that is added are fresh when the
inputs spare the numbers that it uses up. -/
theorem localNames_fresh (reachable : c.Reachable) (name : String) (calls : List (Call α))
    (added : (Edit.addNode c op (sources.map .int) params).run (performAll c (empty name) calls).2 =
      (.ok id, g'))
    (spares : (performAll c (empty name) calls).2.Spares
      (performAll c (empty name) calls).2.suffixes g'.suffixes) :
    ∃ κ, Fresh (performAll c (empty name) calls).2 g' op id κ := by
  have unary : ∀ a ∈ c.adapters, a.arity = 1 := fun _ => reachable.adapter_arity
  obtain ⟨κ, built⟩ := assembled_performAll reachable name calls
  obtain ⟨g₁, done, same⟩ := (Edit.addNode_ends c op sources params).of_ok added
  obtain ⟨κ', -, -, -, built', -⟩ := built.addNode unary done
  obtain rfl := same built'.wired.nodup
  exact built.fresh unary done spares

end Added

namespace Sample

/-- An operator with an axis that only its output has. -/
def spread : Operator Float :=
  typed "Spread" [typeOf "spectrum" [.symbol "K"]]
    (typeOf "feature" [.symbol "K", .symbol "L"]) false

/-- An operator that keeps the axis that it reads. -/
def keep : Operator Float :=
  typed "Keep" [typeOf "path" [.symbol "T"]] (typeOf "feature" [.symbol "T"]) false

/-- Two inputs of one axis. -/
def twoInputs (x y : Dim) : List (Call Float) :=
  [.input "x" (typeOf "path" [x]), .input "y" (typeOf "path" [y])]

/-- The network with a use of an operator that reads from the first input. -/
def reading (g : Network Float) (op : Operator Float) : Network Float :=
  ((Edit.addNode halving op ([0].map .int) .empty).run g).2

/-- The operator is added on the input without an adapter. -/
lemma run_addNode_reading {g : Network Float} {op : Operator Float} {id : Int}
    (done : ((Edit.addNode halving op ([0].map .int) .empty).run g).1.toOption = some id) :
    (Edit.addNode halving op ([0].map .int) .empty).run g = (.ok id, reading g op) :=
  Prod.ext (toOption_eq_some.1 done) rfl

end Sample

open Sample in
/-- The axis of the output stays open next to an adapter with a local name of its own. -/
theorem localNames_fresh_spread :
    let g := (performAll halving (empty "g") (twoInputs (.ofNat 6) (.symbol "Y"))).2
    (Edit.addNode halving spread ([0].map .int) .empty).run g = (.ok 3, reading g spread) ∧
      g.Spares g.suffixes (reading g spread).suffixes ∧
      (reading g spread).nodes.map (·.template) =
        [typeOf "path" [.ofNat 6], typeOf "path" [.symbol "Y"],
        typeOf "spectrum" [.symbol "S#1"], typeOf "feature" [.symbol "K#0", .symbol "L#0"]] ∧
      ∃ κ, Fresh g (reading g spread) spread 3 κ := by
  intro g
  have added : (Edit.addNode halving spread ([0].map .int) .empty).run g =
      (.ok 3, reading g spread) :=
    run_addNode_reading (by decide +kernel)
  have plain : ∀ n ∈ g.nodes, n.template.Within fun s => '#' ∉ s.toList := by decide +kernel
  have spares : g.Spares g.suffixes (reading g spread).suffixes := by
    intro n hn _ s mentions j _ _ base same
    exact PortType.within_iff.1 (plain n hn) s mentions (same ▸ numberSign_mem_freshName _ _)
  exact ⟨added, spares, by decide +kernel, localNames_fresh reachable_halving "g" _ added spares⟩

open Sample in
/-- The symbol of the second input is captured: the input becomes as long as the first one, from
which alone the new use reads. -/
theorem localNames_fresh_ne_lookalike :
    let g := (performAll halving (empty "g") (twoInputs (.ofNat 3) (.symbol "T#0"))).2
    halving.Reachable ∧
      (Edit.addNode halving keep ([0].map .int) .empty).run g = (.ok 2, reading g keep) ∧
      (reading g keep).nodes.map (·.resolved) = [typeOf "path" [.ofNat 3], typeOf "path" [.ofNat 3],
        typeOf "feature" [.ofNat 3]] ∧
      ¬ ∃ κ, Fresh g (reading g keep) keep 2 κ := by
  intro g
  refine ⟨reachable_halving, run_addNode_reading (by decide +kernel), by decide +kernel, ?_⟩
  rintro ⟨κ, fresh⟩
  obtain ⟨later, n, hn, two, uses⟩ := fresh.new
  have template : ∀ n ∈ (reading g keep).nodes, n.id = 2 →
      n.template = typeOf "feature" [.symbol "T#0"] := by decide +kernel
  have given : ∃ m ∈ g.nodes, "T#0" ∈ m.template.shape.flatMap Dim.symbols := by decide +kernel
  obtain ⟨m, hm, there⟩ := given
  refine fresh.unused n hn (two ▸ later) keep uses "T#0" ?_ m hm (List.mem_flatMap.1 there)
  have own : n.template.Mentions "T#0" := by
    rw [template n hn two]
    exact List.mem_flatMap.1 (by decide +kernel)
  rw [(fresh.instances n hn keep uses).template] at own
  obtain ⟨base, occurs, same⟩ := PortType.mentions_rename.1 own
  refine PortType.mem_freshNames.2 ⟨_, ?_, base, occurs, same⟩
  exact List.mem_append_right _ (List.mem_singleton_self _)

end Network

end OperatorNet
