import OperatorNet.Proofs.Catalog.Order
import OperatorNet.Proofs.Search.Ancestors
import OperatorNet.Proofs.Search.Layout
import OperatorNet.Proofs.Search.Repair

/-!
# Enumeration of positions

A supergraph that is built for a request has the positions of a layout from which an exit can be
reached (`Supergraph.Trims`), and the layout enumerates all groups of operators on offer, each once
(`Supergraph.enumerates_of_build`).
-/

namespace OperatorNet

open PortType

variable {α : Type}

variable [Scalar α] {c : Catalog α} {excluded : Exclusion α} {maxFanIn : Number α}
  {input output : PortType} {depth : StageBound} {s : Supergraph α} {uses : List Use}
  {all : List (Position α)} {p : Position α} {row : List Source}

/-- Operators that are picked from those in order are in order, if all costs are defined. -/
lemma Catalog.inOrder_of_sublist [Scalar.Sortable α]
    (ranked : ∀ op ∈ c.registered, op.Ranked c.sortMetric) {ops : List (Operator α)}
    (sublist : ops.Sublist c.operators) : c.inOrder ops = ops :=
  sortBy_of_pairwise ((inOrder_inOrder ranked).sublist sublist)

namespace Position.Gathers

/-- A position has every candidate once. -/
lemma nodup_names (gathers : p.Gathers c excluded maxFanIn uses row) :
    (p.candidates.map (·.name)).Nodup := by
  obtain ⟨ops, sublist, eq, -⟩ := gathers.candidates
  exact eq ▸ Catalog.nodup_inOrder sublist

/-- Candidates are the operators on offer that take what the position reads and give its type, up to
the names of symbols. -/
lemma mem_candidates (gathers : p.Gathers c excluded maxFanIn uses row) {op : Operator α} :
    op ∈ p.candidates ↔ c.Offers excluded maxFanIn op ∧
      ∃ t, op.instanceOn uses row = some t ∧ t.signatureKey = p.outType.signatureKey := by
  obtain ⟨ops, -, eq, members⟩ := gathers.candidates
  rw [eq]
  exact mem_sortBy.trans (members op)

/-- Candidates are in catalog order, if all costs are defined. -/
lemma sublist_operators [Scalar.Sortable α] (gathers : p.Gathers c excluded maxFanIn uses row)
    (ranked : ∀ op ∈ c.registered, op.Ranked c.sortMetric) : p.candidates.Sublist c.operators := by
  obtain ⟨ops, sublist, eq, -⟩ := gathers.candidates
  rw [eq, Catalog.inOrder_of_sublist ranked sublist]
  exact sublist

end Position.Gathers

namespace Supergraph

/-- A supergraph has the positions of a layout on which an exit depends, each with a row of
zeros. -/
structure Trims (s : Supergraph α) (c : Catalog α) (input output : PortType)
    (all : List (Position α)) : Prop where
  catalog : s.catalog = c
  inputType : s.inputType = input
  outputType : s.outputType = output
  ascending : s.ids.Pairwise (· < ·)
  positions : ∀ q, q ∈ s.positions ↔ ∃ p ∈ all,
    (∃ e ∈ s.exits, Relation.ReflTransGen (Upstream all) e p.id) ∧
      q = { p with logits := .zeros p.mixing }
  exits : s.exits =
    (s.positions.filter fun p => (Bindings.empty.unify? output p.outType).isSome).map (·.id)
  answered : s.exits ≠ []
  routes : s.routeLogits = .zeros s.exits

omit [Scalar α] in
/-- The ids of a trimmed network are different. -/
lemma Trims.nodup [Scalar α] (trims : s.Trims c input output all) : s.ids.Nodup :=
  trims.ascending.imp fun less => Int.ne_of_lt less

/-- The steps of building a supergraph, which combines what is on offer. -/
lemma build_eq_ok (built : build c input output depth maxFanIn excluded = .ok s) :
    ∃ combinators all t, Combines c excluded maxFanIn combinators ∧
      layOut c excluded combinators input 1 0 [] depth.count.toNat = .ok all ∧
      ((all.filter fun p => (Bindings.empty.unify? output p.outType).isSome).map (·.id)) ≠ [] ∧
      dropDead
        { catalog := c, inputType := input, outputType := output, depth, positions := all
          exits := (all.filter fun p => (Bindings.empty.unify? output p.outType).isSome).map (·.id)
          routeLogits := .zeros
            ((all.filter fun p => (Bindings.empty.unify? output p.outType).isSome).map (·.id)) } =
        .ok t ∧
      s =
        { t with positions := t.positions.map fun p => { p with logits := .zeros p.mixing } } := by
  obtain ⟨combinators, all, t, kept, steps⟩ := build_steps built
  exact ⟨combinators, all, t, combines_of_filterM kept, steps⟩

/-- A supergraph that is built has the catalog that it is built from. -/
lemma catalog_build (built : build c input output depth maxFanIn excluded = .ok s) :
    s.catalog = c := by
  obtain ⟨combinators, all, t, -, -, -, dropped, rfl⟩ := build_eq_ok built
  simp only [dropDead, bind_eq_ok, pure_eq_ok] at dropped
  obtain ⟨live, -, rfl⟩ := dropped
  rfl

/-- Building drops what no exit depends on. -/
lemma trims_of_dropDead {t : Supergraph α} (numbered : Numbered s.positions)
    (exits : s.exits = (s.positions.filter fun p =>
      (Bindings.empty.unify? s.outputType p.outType).isSome).map (·.id))
    (answered : s.exits ≠ []) (routes : s.routeLogits = .zeros s.exits)
    (dropped : s.dropDead = .ok t) :
    Trims { t with positions := t.positions.map fun p => { p with logits := .zeros p.mixing } }
      s.catalog s.inputType s.outputType s.positions := by
  have distinct : s.ids.Nodup := numbered.pairwise.imp fun less => Int.ne_of_lt less
  obtain ⟨live, rfl, reached⟩ := dropDead_eq_ok distinct dropped
  constructor
  · rfl
  · rfl
  · rfl
  · rw [Supergraph.ids, List.map_map]
    exact numbered.pairwise.sublist (List.filter_sublist.map _)
  · intro q
    simp only [List.mem_map, List.mem_filter, reached, and_assoc, eq_comm]
  · -- exits are reached from themselves, so none of them is dropped
    dsimp only
    rw [List.filter_map, List.map_map, List.filter_filter]
    refine exits.trans (congrArg (List.map _) (List.filter_congr fun p hp => ?_))
    cases answers : (Bindings.empty.unify? s.outputType p.outType).isSome with
    | false => simp [answers]
    | true =>
      have exit : p.id ∈ s.exits :=
        exits ▸ List.mem_map_of_mem (List.mem_filter.2 ⟨hp, answers⟩)
      simp [answers, (reached p.id).2 ⟨p.id, exit, .refl⟩]
  · exact answered
  · exact routes

/-- What a supergraph is built from is laid out. -/
lemma exists_laid_of_build (plain : ∀ s, input.Mentions s → '#' ∉ s.toList)
    (built : build c input output depth maxFanIn excluded = .ok s) :
    ∃ uses all, Laid c excluded maxFanIn input depth.count.toNat uses all ∧
      s.Trims c input output all := by
  obtain ⟨combinators, all, t, combines, laid, answered, dropped, rfl⟩ := build_eq_ok built
  obtain ⟨uses, laid⟩ := (Laid.nil plain).layOut combines laid
  rw [Nat.zero_add] at laid
  exact ⟨uses, all, laid, trims_of_dropDead laid.numbered rfl answered rfl dropped⟩

/-- The positions of a supergraph that is built are the groups of operators on offer that an exit
depends on, each once. -/
theorem enumerates_of_build (plain : ∀ s, input.Mentions s → '#' ∉ s.toList)
    (built : build c input output depth maxFanIn excluded = .ok s) :
    ∃ uses all, Enumerates c excluded maxFanIn input depth.count.toNat uses all ∧
      s.Trims c input output all ∧
      ∀ p ∈ s.positions, (p.candidates.map (·.name)).Nodup ∧
        (Scalar.Sortable α → (∀ op ∈ c.registered, op.Ranked c.sortMetric) →
          p.candidates.Sublist c.operators) := by
  obtain ⟨uses, all, laid, trims⟩ := exists_laid_of_build plain built
  refine ⟨uses, all, laid.toEnumerates, trims, fun q hq => ?_⟩
  obtain ⟨p, hp, -, rfl⟩ := (trims.positions q).1 hq
  obtain ⟨row, -, gathers⟩ := laid.gathers p hp
  exact ⟨gathers.nodup_names, fun _ ranked => gathers.sublist_operators ranked⟩

/-! ### Small catalogs -/

namespace Sample

open Decoder.Sample

/-- An operator of which nothing is known but its types. -/
def typed (name : String) (inTypes : List PortType) (outType : PortType) : Operator ℚ :=
  { name, inTypes, outType, differentiable := false, invariance := .empty, stability := none
    cost := .empty, params := .empty, adapter := false, executor := none }

/-- Two operators do the same up to the names of symbols, and their values can be joined with what
they take. -/
def joining : Catalog ℚ :=
  (Catalog.ofKinds ["path", "feature"] "cost").extend
    [typed "join" [typeOf "path" (.symbol "X"), typeOf "feature" (.symbol "X")]
      (typeOf "feature" (.symbol "X")),
    typed "b" [typeOf "path" (.symbol "Y")] (typeOf "feature" (.symbol "Y")),
    typed "a" [typeOf "path" (.symbol "X")] (typeOf "feature" (.symbol "X"))] (by decide)

/-- A type with two axes. -/
def grid (x y : Dim) : PortType :=
  { kind := "path", shape := [x, y], metric := "l2", group := .empty }

/-- A grid mentions its two symbols. -/
lemma mentions_grid {x y s : String} :
    (grid (.symbol x) (.symbol y)).Mentions s ↔ s = x ∨ s = y := by
  simp [PortType.Mentions, grid]

/-- A type of one dimension mentions the symbols of it. -/
lemma mentions_typeOf {kind s : String} {d : Dim} : (typeOf kind d).Mentions s ↔ s ∈ d.symbols := by
  simp [PortType.Mentions, typeOf]

/-- The grid has plain symbols. -/
lemma plain_grid {s : String} (mentions : (grid (.symbol "A") (.symbol "B")).Mentions s) :
    '#' ∉ s.toList := by
  rcases mentions_grid.1 mentions with rfl | rfl <;> decide

/-- Either half of a grid can be extended. -/
def halves : Catalog ℚ :=
  (Catalog.ofKinds ["path", "feature", "vector"] "cost").extend
    [typed "left" [grid (.symbol "X") (.symbol "Y")] (typeOf "feature" (.symbol "X")),
    typed "right" [grid (.symbol "X") (.symbol "Y")] (typeOf "feature" (.symbol "Y")),
    typed "extend" [typeOf "feature" (.symbol "Z")] (typeOf "vector" ((Dim.symbol "Z").addNat 1))]
    (by decide)

end Sample

open Sample Decoder.Sample in
/-- The operators compete for a first position, and the third one joins it with the input. -/
theorem enumerates_of_build_joining :
    let input := typeOf "path" (.symbol "N")
    let output := typeOf "feature" (.symbol "K")
    (∀ s, input.Mentions s → '#' ∉ s.toList) ∧
      ∃ s, build joining input output (.whole 2) (.whole 2) (fun _ => .ok false) = .ok s ∧
        s.positions.map (fun p => (p.stage, p.inputs, p.candidates.map (·.name))) =
          [(1, [none], ["a", "b"]), (2, [none, some 0], ["join"])] ∧
        ∃ uses all, Enumerates joining (fun _ => .ok false) (.whole 2) input 2 uses all ∧
          s.Trims joining input output all ∧
          ∀ p ∈ s.positions, (p.candidates.map (·.name)).Nodup ∧
            p.candidates.Sublist joining.operators := by
  intro input output
  have plain : ∀ s, input.Mentions s → '#' ∉ s.toList := by
    intro s mentions
    obtain rfl : s = "N" := by simpa using mentions_typeOf.1 mentions
    decide
  have shown : (build joining input output (.whole 2) (.whole 2) fun _ => .ok false).toOption.map
      (fun s => s.positions.map fun p => (p.stage, p.inputs, p.candidates.map (·.name))) =
        some [(1, [none], ["a", "b"]), (2, [none, some 0], ["join"])] := by
    decide +kernel
  obtain ⟨s, built, positions⟩ := Option.map_eq_some_iff.1 shown
  have built := toOption_eq_some.1 built
  obtain ⟨uses, all, enumerates, trims, ordered⟩ := enumerates_of_build plain built
  refine ⟨plain, s, built, positions, uses, all, enumerates, trims,
    fun p hp => ⟨(ordered p hp).1, ?_⟩⟩
  exact (ordered p hp).2 (Scalar.sortable_ofField elementary) fun op _ =>
    le_refl (op.costOf joining.sortMetric)

end Supergraph

/-- Two positions are built for three operators. -/
lemma Decoder.Sample.build_graph :
    Supergraph.build catalog (typeOf "path" (.ofNat 3)) (typeOf "feature" (.symbol "K")) (.whole 1)
      (.whole 3) (fun _ => .ok false) = .ok graph := by
  with_unfolding_all rfl

end OperatorNet
