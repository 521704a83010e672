import OperatorNet.Proofs.Cost.Prices
import OperatorNet.Proofs.Search.Expectation

/-!
# Networks of draws

A draw goes along the positions on which its exit depends and takes at each one what the mixture may
take there (`Draw.Along`). Where its network needs no adapters, there is one node for the input, and
one for each pick, which uses the operator that was picked and reads from what stands for the
sources of its position (`exists_uses`). All of them but the input are live, so in a metric that is
added up the network costs what the draw costs (`aggregate_additive`).
-/

namespace OperatorNet

variable {α : Type} [Scalar α] {s : Supergraph α} {m : Mixture α} {metric : String}
    {kinds : MetricKinds}
  {x : Draw α} {a : Pick α} {p : Position α} {e id i : Int} {ids : List Int} {g : Network α}
  {n : Node α}

/-- A pick is one of those that a mixture may take at a position of a supergraph. -/
structure Pick.From (a : Pick α) (s : Supergraph α) (m : Mixture α) (p : Position α) : Prop where
  mem : p ∈ s.positions
  position : a.position = p.id
  taken : a ∈ m.picks p
  candidate : a.operator ∈ p.candidates

/-- A draw picks something at each position on which its exit depends. -/
structure Draw.Along (x : Draw α) (s : Supergraph α) (m : Mixture α) : Prop where
  exit : x.exit ∈ s.exits
  ancestors : s.ancestors x.exit = .ok (x.picks.map (·.position))
  picks : ∀ a ∈ x.picks, ∃ p, a.From s m p

/-- A pick takes a candidate of its position. -/
lemma Mixture.mem_picks (mem : a ∈ m.picks p) : a.position = p.id ∧ a.operator ∈ p.candidates := by
  rw [Mixture.picks] at mem
  split at mem
  next =>
    obtain ⟨op, first, rfl⟩ := List.mem_map.1 mem
    exact ⟨rfl, (List.mem_filter.1 (List.mem_of_mem_take first)).1⟩
  next =>
    obtain ⟨q, pair, rfl⟩ := List.mem_map.1 mem
    exact ⟨rfl, (List.mem_filter.1 (List.of_mem_zip pair).1).1⟩

/-- A draw goes along the positions of its route. -/
lemma along_of_mem_draws (decodable : s.Decodable) (mem : x ∈ s.draws m) : x.Along s m := by
  obtain ⟨⟨e, r⟩, routed, mem⟩ := List.mem_flatMap.1 mem
  have exit : e ∈ s.exits := (List.of_mem_zip routed).1
  obtain ⟨ids, listed⟩ := decodable.exists_ancestors (decodable.placed e exit)
  rw [Supergraph.drawsAt, listed] at mem
  obtain ⟨picks, choice, rfl⟩ := List.mem_map.1 mem
  rw [List.mem_sections, List.forall₂_map_right_iff] at choice
  have each : List.Forall₂ (fun a id => a.position = id ∧ ∃ p, a.From s m p) picks ids := by
    refine choice.imp fun a id taken => ?_
    cases found : s.find? id with
    | none =>
      rw [found] at taken
      exact absurd taken List.not_mem_nil
    | some p =>
      rw [found] at taken
      obtain ⟨there, rfl⟩ := (Supergraph.find?_eq_some_iff decodable.nodup).1 found
      obtain ⟨position, candidate⟩ := Mixture.mem_picks taken
      exact ⟨position, p, there, position, taken, candidate⟩
  constructor
  case exit => exact exit
  case ancestors =>
    rw [listed]
    refine congrArg Except.ok (List.forall₂_eq_eq_eq ▸ ?_)
    rw [List.forall₂_map_right_iff]
    exact each.flip.imp fun _ _ both => both.1.symm
  case picks =>
    intro a ha
    obtain ⟨_, -, -, own⟩ := exists_of_mem_forall₂ each.flip ha
    exact own

namespace Decoder

variable {d : Decoder α} {refs : Refs}

/-- A node uses the operator of a pick and reads from what stands for the sources of its
position. -/
structure Uses (s : Supergraph α) (refs : Refs) (a : Pick α) (n : Node α) : Prop where
  place : fetch (some a.position) refs = some n.id
  operator : n.operator = some a.operator
  reads : ∃ p ∈ s.positions, p.id = a.position ∧
    List.Forall₂ (fun source q => ∃ i, fetch source refs = some i ∧ q = .id i) p.inputs n.inputs

/-- The network of a draw without adapters: its first node is the input, and the others use the
operators that were picked. All uses are live, and the output is the use for the exit. -/
structure Realizes (s : Supergraph α) (x : Draw α) (refs : Refs) (g : Network α)
    (first out : Node α) (rest : List (Node α)) : Prop where
  wired : g.Wired
  nodes : g.nodes = first :: rest
  input : first.operator = none
  start : fetch none refs = some first.id
  uses : List.Forall₂ (Uses s refs) x.picks rest
  live : ∀ n ∈ rest, g.Lives n.id
  output : g.outputId = some out.id
  last : out ∈ g.nodes
  exit : fetch (some x.exit) refs = some out.id

/-- What stands for a pick uses its operator. -/
lemma uses_of_stands (equipped : s.Equipped) (own : a.From s m p)
    (stands : d.Stands s refs (some (.id a.position, .text a.operator.name)) n) :
    Uses s refs a n := by
  cases stands with
  | @use _ _ _ p' op placed registered place uses _ reads =>
    have same : s.catalog.get a.operator.name = .ok a.operator := by
      rw [Catalog.get, Catalog.find?_name (equipped.registered p own.mem _ own.candidate)]
    obtain rfl := Except.ok.inj (registered.symm.trans same)
    obtain ⟨there, position⟩ :=
      (Supergraph.find?_eq_some_iff equipped.distinct).1 (Supergraph.positionAt_id.1 placed)
    exact ⟨position ▸ place, uses, p', there, position, reads⟩

/-- What the network of a draw is made of where no adapter is put in. -/
lemma exists_realizes (decodable : s.Decodable) (equipped : s.Equipped) (along : x.Along s m)
    (made : d.materialize s x.selection = .ok g) (nothing : g.adapterNodes = []) :
    ∃ refs first out rest, Realizes s x refs g first out rest := by
  have distinct := decodable.nodup
  have route : x.selection.ops.map Prod.fst = (x.picks.map (·.position)).map .id := by
    rw [Draw.selection, List.map_map, List.map_map]
    rfl
  obtain ⟨ascending, reached⟩ := Supergraph.ancestors_eq_ok distinct along.ancestors
  obtain ⟨refs, out, depicts, target, output⟩ :=
    depicts_materialize distinct route (ascending.imp fun less => Int.ne_of_lt less) made nothing
  have exit : fetch (some x.exit) refs = some out := ref_eq_ok.1 target
  obtain ⟨last, there, rfl⟩ := List.mem_map.1 (depicts.mem_ids exit)
  obtain ⟨first, rest, stands, others, nodes⟩ := List.forall₂_cons_left_iff.1 depicts.nodes
  have uses : List.Forall₂ (Uses s refs) x.picks rest := by
    rw [Draw.selection, List.map_map, List.forall₂_map_left_iff] at others
    refine List.forall₂_iff_zip.2 ⟨others.length_eq, fun {a n} pair => ?_⟩
    obtain ⟨p, own⟩ := along.picks a (List.of_mem_zip pair).1
    exact uses_of_stands equipped own ((List.forall₂_iff_zip.1 others).2 pair)
  cases stands with
  | input start input _ =>
    refine ⟨refs, first, last, rest, depicts.wired, nodes, input, start, uses, fun n hn => ?_,
      output, there, exit⟩
    obtain ⟨a, ha, use⟩ := exists_of_mem_forall₂ uses hn
    exact depicts.lives distinct route exit output reached (List.mem_map_of_mem ha) use.place

namespace Realizes

variable {first out : Node α} {rest nodes : List (Node α)}
    (realizes : Realizes s x refs g first out rest)

include realizes

omit [Scalar α] in
/-- The live nodes that are no inputs are the uses of what was picked. -/
lemma perm_live (sourced : Network.Sourced nodes)
    (live : ∀ n, n ∈ nodes ↔ n ∈ g.nodes ∧ g.Lives n.id) :
    (nodes.filter fun n => !n.isInput).Perm rest := by
  have distinct := realizes.wired.nodup
  rw [Network.ids, realizes.nodes, List.map_cons, List.nodup_cons] at distinct
  refine (List.perm_ext_iff_of_nodup (sourced.distinct.of_map.filter _) distinct.2.of_map).2
    fun n => ?_
  rw [List.mem_filter, live, realizes.nodes, List.mem_cons]
  constructor
  · rintro ⟨⟨rfl | use, -⟩, other⟩
    · rw [Node.isInput, realizes.input] at other
      cases other
    · exact use
  · intro use
    obtain ⟨a, -, own⟩ := exists_of_mem_forall₂ realizes.uses use
    refine ⟨⟨.inr use, realizes.live n use⟩, ?_⟩
    rw [Node.isInput, own.operator]
    rfl

omit [Scalar α] in
/-- The live nodes have an order, and the output is known. -/
lemma exists_order : ∃ nodes, g.liveOrder = .ok nodes ∧ g.output = .ok out ∧ Network.Sourced nodes ∧
    ∀ n, n ∈ nodes ↔ n ∈ g.nodes ∧ g.Lives n.id := by
  obtain ⟨rs, done⟩ := realizes.wired.exists_live realizes.last realizes.output
  obtain ⟨nodes, ordered, sourced, live⟩ :=
    Network.exists_liveOrder realizes.wired.acyclic realizes.wired.nodup done
  exact ⟨nodes, ordered, realizes.wired.output_eq realizes.last realizes.output, sourced, live⟩

open Scalar in
attribute [local instance] commSemiring in
/-- In a metric that is added up the network of a draw costs what the draw costs. -/
lemma aggregate_additive [Scalar.Commutative α]
    (additive : metricKind metric kinds = .ok .additive) :
    g.aggregate metric kinds = .ok (.known (x.cost metric)) := by
  obtain ⟨nodes, ordered, output, sourced, live⟩ := realizes.exists_order
  have costs : rest.map (·.costOf metric) = x.picks.map (·.operator.costOf metric) := by
    rw [← List.forall₂_eq_eq_eq, List.forall₂_map_left_iff, List.forall₂_map_right_iff]
    exact realizes.uses.flip.imp fun n a use => Network.costOf_of_uses use.operator metric
  have total : sum ((nodes.filter fun n => !n.isInput).map (·.costOf metric)) = x.cost metric := by
    rw [Draw.cost, ← costs, sum_eq, sum_eq]
    exact ((realizes.perm_live sourced live).map _).sum_eq
  rw [Network.aggregate_eq additive ordered output]
  exact congrArg (fun total => Except.ok (Price.known total)) total

end Realizes

end Decoder

end OperatorNet
