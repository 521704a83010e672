import OperatorNet.Proofs.Catalog.Reachable
import OperatorNet.Proofs.Network.Liveness
import OperatorNet.Proofs.Network.Validation

/-!
# Paths through networks

In a network over a catalog (`Over`) a path goes from a node against the wires to an input (`Path`).
Every operator takes an input, so in a consistent network a path starts at every live node, and a
path from the output leads through it (`exists_path_through`).
-/

namespace OperatorNet.Network

variable {α : Type}

/-- Nodes that use registered operators, and inputs that read nothing. -/
structure Over (c : Catalog α) (g : Network α) : Prop where
  distinct : g.ids.Nodup
  registered : ∀ n ∈ g.nodes, ∀ op, n.operator = some op → op ∈ c.registered
  inputs : ∀ n ∈ g.nodes, n.operator = none → n.inputs = []

/-- A path from a node against the wires to an input. -/
inductive Path (g : Network α) : Node α → List (Node α) → Prop
  | input {n} : n ∈ g.nodes → n.operator = none → Path g n [n]
  | read {n op m path} : n ∈ g.nodes → n.operator = some op → m.id ∈ n.sources → Path g m path →
      Path g n (n :: path)

variable {c : Catalog α} {g : Network α} {out m n : Node α} {path : List (Node α)} {i : Int}

/-- A path leads to a node of the network. -/
lemma Path.mem (way : g.Path n path) : n ∈ g.nodes := by
  cases way <;> assumption

/-- A path begins with the node that it leads to. -/
lemma Path.exists_cons (way : g.Path n path) : ∃ rest, path = n :: rest := by
  cases way with
  | input => exact ⟨_, rfl⟩
  | read => exact ⟨_, rfl⟩

/-- What reads anything is a use of an operator. -/
lemma Over.reads (belongs : g.Over c) (mem : n ∈ g.nodes) (leads : Leads g.inputs n.id i) :
    (∃ op, n.operator = some op) ∧ i ∈ n.sources := by
  rw [← mem_sources_iff, sources_id belongs.distinct mem] at leads
  refine ⟨Option.ne_none_iff_exists'.1 fun none => ?_, leads⟩
  rw [Node.sources, belongs.inputs n mem none] at leads
  cases leads

/-- A path is continued by what depends on its start. -/
lemma Path.exists_append (belongs : g.Over c) (way : g.Path n path)
    (leads : Relation.ReflTransGen (Leads g.inputs) i n.id) :
    ∀ m ∈ g.nodes, m.id = i → ∃ before, g.Path m (before ++ path) := by
  induction leads using Relation.ReflTransGen.head_induction_on with
  | refl =>
    intro m hm id
    obtain rfl := List.inj_on_of_nodup_map belongs.distinct hm way.mem id
    exact ⟨[], way⟩
  | @head a b leads later ih =>
    rintro m hm rfl
    obtain ⟨⟨op, uses⟩, read⟩ := belongs.reads hm leads
    have there : b ∈ g.ids := by
      rcases Relation.ReflTransGen.cases_head later with rfl | ⟨_, next, -⟩
      · exact List.mem_map_of_mem way.mem
      · exact mem_ids_of_leads next
    obtain ⟨m', hm', rfl⟩ := List.mem_map.1 there
    obtain ⟨before, longer⟩ := ih m' hm' rfl
    exact ⟨m :: before, .read hm uses read longer⟩

/-- The output is a node of the network. -/
lemma mem_of_output (output : g.output = .ok out) : out ∈ g.nodes := by
  rw [Network.output] at output
  split at output
  next id _ => exact (mem_of_find? (node_eq_ok.1 output)).1
  next => exact absurd output fail_ne_ok

variable [Scalar α]

/-- In a consistent network a path starts at every node of an order. -/
lemma Over.exists_path (belongs : g.Over c) (reachable : c.Reachable)
    (supplied : ∀ n ∈ g.nodes, g.Supplies n) {nodes : List (Node α)} (sourced : Sourced nodes)
    (there : ∀ n ∈ nodes, n ∈ g.nodes) :
    ∀ n ∈ nodes, ∃ path, g.Path n path := by
  refine sourced.induction fun n hn earlier => ?_
  cases uses : n.operator with
  | none => exact ⟨[n], .input (there n hn) uses⟩
  | some op =>
    obtain ⟨_, _, checked⟩ := reachable.allChecked op (belongs.registered n (there n hn) op uses)
    -- a registered operator has a slot, so the node reads from an earlier one
    obtain ⟨arity, reads⟩ := supplied n (there n hn) op uses
    have pos : 0 < n.inputs.length := arity ▸ (Catalog.checkSignature_eq_ok checked).1
    obtain ⟨r, hr⟩ := List.exists_mem_of_length_pos pos
    obtain ⟨source, -, id⟩ := reads r hr
    have read : source.id ∈ n.sources := List.mem_filterMap.2 ⟨r, hr, id⟩
    obtain ⟨m, hm, same⟩ := List.mem_map.1 (sourced.mem_of_read hn read)
    rw [← same] at read
    obtain ⟨path, way⟩ := earlier m hm read
    exact ⟨n :: path, .read (there n hn) uses read way⟩

/-- In a consistent network a path from the output leads through every live node. -/
theorem Over.exists_path_through (belongs : g.Over c) (reachable : c.Reachable)
    (supplied : ∀ n ∈ g.nodes, g.Supplies n) {nodes : List (Node α)} (sourced : Sourced nodes)
    (live : ∀ n, n ∈ nodes ↔ n ∈ g.nodes ∧ g.Lives n.id) (output : g.output = .ok out)
    (mem : n ∈ nodes) : ∃ before after, g.Path out (before ++ n :: after) := by
  obtain ⟨path, way⟩ :=
    belongs.exists_path reachable supplied sourced (fun m hm => ((live m).1 hm).1) n mem
  obtain ⟨out', output', leads⟩ := ((live n).1 mem).2
  obtain rfl := Except.ok.inj (output.symm.trans output')
  obtain ⟨before, longer⟩ := way.exists_append belongs leads out (mem_of_output output) rfl
  obtain ⟨after, rfl⟩ := way.exists_cons
  exact ⟨before, after, longer⟩

end OperatorNet.Network
