import Mathlib.Data.List.Sort
import OperatorNet.Proofs.Catalog.Reachable
import OperatorNet.Proofs.PortType.Keys
import OperatorNet.Proofs.Search.Enumeration
import OperatorNet.Proofs.Search.Materialization

/-!
# Lines of positions

A position that depends on positions of one input only stands at the end of a line (`exists_line`).
Operators that are chosen along a line are added to a network one after the other, without adapters,
and what has been built so far always resolves to a type alike to that of the last position
(`Line.exists_sketch`), although the network knows more about symbols than the positions do. So the
network of a selection along a line can be made, unless a number is too long to be written
(`materialize_of_unary`).
-/

namespace OperatorNet

open PortType

variable {α : Type}

namespace Supergraph

variable {s : Supergraph α} {p q : Position α} {ps : List (Position α)}

/-- Positions that read from one another in a row, the first one from the input. -/
inductive Line (s : Supergraph α) : List (Position α) → Position α → Prop
  | first {p : Position α} : p ∈ s.positions → p.inputs = [none] → Line s [p] p
  | next {front : List (Position α)} {q p : Position α} : Line s front q → p ∈ s.positions →
      p.inputs = [some q.id] → q.id < p.id → Line s (front ++ [p]) p

namespace Line

/-- A line ends at a position. -/
lemma mem (line : s.Line ps p) : p ∈ s.positions := by
  cases line with
  | first mem => exact mem
  | next _ mem => exact mem

/-- A line goes through positions. -/
lemma subset (line : s.Line ps p) : ∀ r ∈ ps, r ∈ s.positions := by
  induction line with
  | first mem => exact List.forall_mem_singleton.2 mem
  | next _ mem _ _ ih =>
    intro r hr
    rcases List.mem_append.1 hr with front | last
    · exact ih r front
    · exact List.mem_singleton.1 last ▸ mem

/-- A line is in ascending order, and its end comes last. -/
lemma ascending (line : s.Line ps p) :
    (ps.map (·.id)).Pairwise (· < ·) ∧ ∀ id ∈ ps.map (·.id), id ≤ p.id := by
  induction line with
  | first => exact ⟨List.pairwise_singleton _ _, by simp⟩
  | @next front q p line mem inputs less ih =>
    rw [List.map_append, List.pairwise_append]
    refine ⟨⟨ih.1, List.pairwise_singleton _ _, fun id hid id' hid' => ?_⟩, fun id hid => ?_⟩
    · rw [List.mem_singleton.1 hid']
      exact Int.lt_of_le_of_lt (ih.2 id hid) less
    · rcases List.mem_append.1 hid with front | last
      · exact Int.le_of_lt (Int.lt_of_le_of_lt (ih.2 id front) less)
      · exact Int.le_of_eq (List.mem_singleton.1 last)

/-- A line consists of the positions on which its end depends. -/
lemma mem_iff (line : s.Line ps p) (distinct : s.ids.Nodup) (id : Int) :
    id ∈ ps.map (·.id) ↔ Relation.ReflTransGen s.Reads p.id id := by
  induction line with
  | @first p mem inputs =>
    rw [Relation.ReflTransGen.cases_head_iff, List.map_singleton, List.mem_singleton, eq_comm]
    refine ⟨.inl, fun h => h.resolve_right ?_⟩
    rintro ⟨b, read, -⟩
    rw [reads_id distinct mem, inputs, List.mem_singleton] at read
    cases read
  | @next front q p line mem inputs less ih =>
    rw [Relation.ReflTransGen.cases_head_iff, List.map_append, List.mem_append, ih,
      List.map_singleton, List.mem_singleton, or_comm, eq_comm]
    refine or_congr Iff.rfl ⟨fun path => ⟨q.id, ?_, path⟩, ?_⟩
    · rw [reads_id distinct mem, inputs]
      exact List.mem_singleton.2 rfl
    · rintro ⟨b, read, path⟩
      rw [reads_id distinct mem, inputs, List.mem_singleton, Option.some_inj] at read
      exact read ▸ path

end Line

/-- A position that depends on positions of one input only stands at the end of a line. -/
lemma exists_line (distinct : s.ids.Nodup) (closed : s.Closed) (mem : p ∈ s.positions)
    (single : ∀ id, Relation.ReflTransGen s.Reads p.id id →
      ∀ q, s.find? id = some q → q.inputs.length = 1) : ∃ ps, s.Line ps p := by
  generalize size : p.id.toNat = n
  induction n using Nat.strong_induction_on generalizing p with
  | _ n ih =>
    obtain ⟨source, inputs⟩ := List.length_eq_one_iff.1
      (single p.id .refl p ((find?_eq_some_iff distinct).2 ⟨mem, rfl⟩))
    cases source with
    | none => exact ⟨[p], .first mem inputs⟩
    | some id =>
      have read : some id ∈ p.inputs := inputs ▸ List.mem_singleton.2 rfl
      obtain ⟨q, there, rfl, less⟩ := closed.earlier p mem id read
      have before := closed.nonneg q there
      obtain ⟨front, line⟩ := ih q.id.toNat (by omega) there
        (fun id path => single id (.head ((reads_id distinct mem).2 read) path)) rfl
      exact ⟨front ++ [p], line.next mem inputs less⟩

/-! ### What is built -/

/-- The type that a position reads from the input or from another position. -/
def Supplies (s : Supergraph α) (source : Option Int) (t : PortType) : Prop :=
  match source with
  | none => t = s.inputType
  | some id => ∃ q ∈ s.positions, q.id = id ∧ t = q.outType

section Trims

variable [Scalar α] {c : Catalog α} {excluded : Exclusion α} {maxFanIn : Number α}
  {input output : PortType} {stages : Nat} {uses : List Use} {all : List (Position α)}
  {op : Operator α} {t u : PortType}
  (trims : s.Trims c input output all)
  (laid : Laid c excluded maxFanIn input stages uses all)

include trims laid

/-- Each position was gathered from a row. -/
lemma Trims.gathers (mem : p ∈ s.positions) :
    ∃ row, Row (sourcesOf input all) p.stage row ∧ p.Gathers c excluded maxFanIn uses row := by
  obtain ⟨p₀, hp, -, rfl⟩ := (trims.positions p).1 mem
  obtain ⟨row, row_, gathers⟩ := laid.gathers p₀ hp
  exact ⟨row, row_, gathers.inputs, gathers.typed, gathers.candidates⟩

/-- A trimmed network is closed. -/
lemma Trims.closed : s.Closed := by
  constructor
  · intro p mem
    obtain ⟨p₀, hp, -, rfl⟩ := (trims.positions p).1 mem
    exact (laid.numbered.bounds hp).1
  · intro p mem id read
    obtain ⟨p₀, hp, ⟨e, he, path⟩, rfl⟩ := (trims.positions p).1 mem
    obtain ⟨row, row_, gathers⟩ := laid.gathers p₀ hp
    obtain ⟨source, hs, named⟩ := List.mem_map.1 (gathers.inputs ▸ read)
    rcases List.mem_cons.1 (row_.within source hs) with rfl | there
    · cases named
    · obtain ⟨q, hq, rfl⟩ := List.mem_map.1 there
      cases named
      have onward : Relation.ReflTransGen (Upstream all) e q.id := path.tail ⟨p₀, hp, rfl, read⟩
      exact ⟨_, (trims.positions _).2 ⟨q, hq, ⟨e, he, onward⟩, rfl⟩, rfl,
        laid.ascending p₀ hp q.id (Position.mem_sources.2 read)⟩

/-- The types of positions have no plain symbols but those of the input. -/
lemma Trims.not_mentions (mem : p ∈ s.positions) {symbol : String} (bare : '#' ∉ symbol.toList)
    (apart : ¬ input.Mentions symbol) : ¬ p.outType.Mentions symbol := by
  obtain ⟨p₀, hp, -, rfl⟩ := (trims.positions p).1 mem
  exact laid.not_mentions (List.mem_cons_of_mem _ (List.mem_map_of_mem hp)) bare apart

/-- A source supplies its own type. -/
lemma Trims.eq_of_supplies {source : Source} (mem : source ∈ sourcesOf input all)
    (supplies : s.Supplies source.id t) : t = source.type := by
  rcases List.mem_cons.1 mem with rfl | there
  · exact (supplies : t = s.inputType).trans trims.inputType
  · obtain ⟨p, hp, rfl⟩ := List.mem_map.1 there
    obtain ⟨q, hq, same, rfl⟩ := supplies
    obtain ⟨q₀, hq₀, -, rfl⟩ := (trims.positions q).1 hq
    have distinct : (all.map (·.id)).Nodup :=
      laid.numbered.pairwise.imp fun less => Int.ne_of_lt less
    rw [List.inj_on_of_nodup_map distinct hq₀ hp same]

/-- A candidate takes a type alike to what its position reads, and gives a type alike to that of the
position. -/
lemma Trims.takes (mem : p ∈ s.positions) {source : Option Int} (inputs : p.inputs = [source])
    (supplies : s.Supplies source t) (candidate : op ∈ p.candidates) (alike : Alike u t)
    {suffix : String} (fresh : u.Lacks suffix) :
    op ∈ c.registered ∧ op.arity = 1 ∧ ∃ v, op.valueType? suffix [u] = some v ∧
      Alike v p.outType := by
  obtain ⟨row, row_, gathers⟩ := trims.gathers laid mem
  have ids := gathers.inputs.symm.trans inputs
  obtain ⟨read, rfl, rfl⟩ := List.map_eq_singleton_iff.1 ids
  obtain ⟨offers, v, value, key⟩ := gathers.mem_candidates.1 candidate
  obtain rfl := trims.eq_of_supplies laid (row_.within read (List.mem_singleton.2 rfl)) supplies
  have unary : op.arity = 1 := by
    by_contra other
    rw [Operator.instanceOn, if_neg fun length => other length.symm] at value
    cases value
  have related := laid.value_alike row_ unary alike fresh
  rw [value] at related
  revert related
  cases op.valueType? suffix [u] with
  | none =>
    intro related
    cases related
  | some w =>
    intro related
    cases related with
    | some like => exact ⟨offers.registered, unary, w, rfl, like.trans (alike_of_signatureKey key)⟩

end Trims

/-! ### Networks of selections along lines -/

variable [Scalar α] {d : Decoder α} {op : Operator α} {t : PortType}

/-- An operator of one input is added where it takes what its position reads. -/
lemma sketchChoice_of_value {given : String → Prop} {g : Network α} {refs : Decoder.Refs}
    {n : Node α} {source : Option Int} {params : Params α} (direct : g.Direct given)
    (plain : ∀ t, given t → '#' ∉ t.toList) (there : n ∈ g.nodes) (found : s.find? p.id = some p)
    (inputs : p.inputs = [source]) (known : fetch source refs = some n.id)
    (registered : op ∈ s.catalog.registered) (unary : op.arity = 1)
    (chosen : d.params (.id p.id) (.text op.name) = .ok params)
    (takes : op.valueType? (toString g.suffixes) [g.value n] = some t) :
    ∃ b, d.sketchChoice s (refs, g) (.id p.id, .text op.name) =
        .ok (put (some p.id) g.nextId refs, g.withDirect op n b params) ∧
      (g.withDirect op n b params).Direct given ∧
      (g.withDirect op n b params).value (g.directNode op n b params) = t := by
  obtain ⟨b, added, direct', value⟩ :=
    direct.addNode_of_value (c := s.catalog) plain unary there params takes
  refine ⟨b, ?_, direct', value⟩
  have sources : p.inputs.mapM (fun source => Decoder.ref refs (source.map .id)) = .ok [n.id] := by
    rw [inputs]
    exact mapM_eq_ok.2 (.cons (Decoder.ref_eq_ok.2 known) .nil)
  have named : s.catalog.get op.name = .ok op := by
    rw [Catalog.get, Catalog.find?_name registered]
  have used : d.useOf s refs (.id p.id, .text op.name) = .ok (p, op, [n.id], params) := by
    simp only [Decoder.useOf, bind_eq_ok, pure_eq_ok]
    exact ⟨p, positionAt_id.2 found, params, chosen, [n.id], sources, op.name, rfl, op, named, rfl⟩
  exact Decoder.sketchChoice_eq_ok.2 ⟨p, op, [n.id], params, _, used, added, rfl⟩

/-- What has been built of the choices for a line: a network without adapters, with a node for every
choice, of which one stands for the last position. -/
structure Follows (s : Supergraph α) (p : Position α) (ops : List (Ref × Data Float))
    (refs : Decoder.Refs) (g : Network α) : Prop where
  direct : g.Direct s.inputType.Mentions
  last : ∃ n ∈ g.nodes, fetch (some p.id) refs = some n.id ∧ Alike (g.value n) p.outType
  nodes : g.nodes.map (fun n => n.operator.map (·.name)) = none :: ops.map (·.2.text?)

/-- A choice of a candidate for a position. -/
def Chosen (p : Position α) (q : Ref × Data Float) : Prop :=
  ∃ op ∈ p.candidates, q = (.id p.id, .text op.name)

section Run

variable {c : Catalog α} {excluded : Exclusion α} {maxFanIn : Number α} {input output : PortType}
  {stages : Nat} {uses : List Use} {all : List (Position α)} {ops : List (Ref × Data Float)}
  (trims : s.Trims c input output all)
  (laid : Laid c excluded maxFanIn input stages uses all)

include trims laid

/-- Once a choice is added, what has been built follows the line to its position. -/
lemma follows_sketchChoice {g : Network α} {refs : Decoder.Refs} {n : Node α} {source : Option Int}
    {choice : Ref × Data Float} (direct : g.Direct s.inputType.Mentions) (there : n ∈ g.nodes)
    (nodes : g.nodes.map (fun n => n.operator.map (·.name)) = none :: ops.map (·.2.text?))
    (mem : p ∈ s.positions) (inputs : p.inputs = [source]) (supplies : s.Supplies source t)
    (alike : Alike (g.value n) t) (known : fetch source refs = some n.id) (chosen : Chosen p choice)
    (params : ∃ v, d.params choice.1 choice.2 = .ok v) :
    ∃ refs' g', d.sketchChoice s (refs, g) choice = .ok (refs', g') ∧
      s.Follows p (ops ++ [choice]) refs' g' := by
  obtain ⟨op, candidate, rfl⟩ := chosen
  obtain ⟨v, params⟩ := params
  have plain : ∀ t, s.inputType.Mentions t → '#' ∉ t.toList := trims.inputType ▸ laid.plain
  obtain ⟨registered, unary, w, takes, like⟩ :=
    trims.takes laid mem inputs supplies candidate alike (direct.lacks plain there)
  have found : s.find? p.id = some p := (find?_eq_some_iff trims.nodup).2 ⟨mem, rfl⟩
  obtain ⟨b, added, direct', value⟩ := sketchChoice_of_value direct plain there found inputs known
    (trims.catalog ▸ registered) unary params takes
  refine ⟨_, _, added, direct', ⟨g.directNode op n b v, ?_, fetch_put_self .., value ▸ like⟩, ?_⟩
  · rw [Network.nodes_withDirect]
    exact List.mem_append_right _ (List.mem_singleton.2 rfl)
  · rw [Network.nodes_withDirect, List.map_append, List.map_map, List.map_append]
    exact congrArg (· ++ [some op.name]) nodes

/-- The choices for a line are sketched one after the other. -/
lemma Line.exists_sketch (line : s.Line ps p) (chosen : List.Forall₂ Chosen ps ops)
    (params : ∀ q ∈ ops, ∃ v, d.params q.1 q.2 = .ok v) :
    ∃ refs g, d.sketch s ops = .ok (refs, g) ∧ s.Follows p ops refs g := by
  induction line generalizing ops with
  -- the first choice is made on a network of the one input, which stands in for the node before
  | @first p mem inputs =>
    obtain ⟨choice, rest, only, others, rfl⟩ := List.forall₂_cons_left_iff.1 chosen
    cases others
    have start : ([Network.soleInput "x" s.inputType] : List (Node α)).map
        (fun n => n.operator.map (·.name)) =
          none :: ([] : List (Ref × Data Float)).map (·.2.text?) :=
      rfl
    have known : fetch none [((none : Option Int), (0 : Int))] =
        some (Network.soleInput "x" s.inputType : Node α).id := rfl
    obtain ⟨refs, g, added, follows⟩ := follows_sketchChoice trims laid
      (.onInput d.networkId "x" s.inputType) (List.mem_singleton.2 rfl) start mem inputs rfl
      ((Network.value_soleInput ..).symm ▸ Alike.refl _) known only
      (params choice (List.mem_singleton.2 rfl))
    refine ⟨refs, g, ?_, follows⟩
    rw [Decoder.sketch, List.foldlM_cons, added]
    rfl
  | @next front q p line mem inputs less ih =>
    obtain ⟨before, choice, _, rfl, earlier, last, ⟨⟩⟩ := forall₂_append_cons chosen
    obtain ⟨refs, g, built, follows⟩ := ih earlier fun q hq => params q (List.mem_append_left _ hq)
    obtain ⟨n, there, known, alike⟩ := follows.last
    obtain ⟨refs', g', added, follows'⟩ := follows_sketchChoice trims laid follows.direct there
      follows.nodes mem inputs ⟨q, line.mem, rfl, rfl⟩ alike known last
      (params choice (List.mem_append_right _ (List.mem_singleton.2 rfl)))
    refine ⟨refs', g', ?_, follows'⟩
    rw [Decoder.sketch_append, built]
    exact added

end Run

/-- A selection along the positions on which an exit depends, in ascending order, with a candidate
for each. -/
structure Selects (s : Supergraph α) (e : Int) (x : Selection) : Prop where
  exit : x.exit = some (.id e)
  route : ∃ ids : List Int, x.ops.map Prod.fst = ids.map .id ∧ ids.Pairwise (· < ·) ∧
    ∀ id, id ∈ ids ↔ Relation.ReflTransGen s.Reads e id
  offered : ∀ q ∈ x.ops, s.Offers q

omit [Scalar α] in
/-- A selection chooses a candidate at each position of a line. -/
lemma Line.forall₂_chosen (line : s.Line ps p) (distinct : s.ids.Nodup) {x : Selection}
    (selects : s.Selects p.id x) : List.Forall₂ Chosen ps x.ops := by
  obtain ⟨ids, refs, ascending, reached⟩ := selects.route
  have same : ids = ps.map (·.id) := ascending.eq_of_mem_iff line.ascending.1 fun id =>
    (reached id).trans (line.mem_iff distinct id).symm
  rw [same, List.map_map, ← List.forall₂_eq_eq_eq, List.forall₂_map_left_iff,
    List.forall₂_map_right_iff] at refs
  have offered := (List.forall₂_and_left _ _).2 ⟨selects.offered, refs⟩
  have listed := (List.forall₂_and_left _ _).2 ⟨line.subset, offered.flip⟩
  refine listed.imp fun r q h => ?_
  obtain ⟨mem, ⟨r', op, there, candidate, chosen⟩, ref⟩ := h
  rw [ref] at there
  change s.positionAt (.id r.id) = _ at there
  rw [positionAt_id, (find?_eq_some_iff distinct).2 ⟨mem, rfl⟩, Option.some_inj] at there
  subst there
  exact ⟨op, candidate, Prod.ext ref chosen⟩

variable {c : Catalog α} {excluded : Exclusion α} {maxFanIn : Number α} {input output : PortType}
  {depth : StageBound}

/-- Whatever candidates are chosen for an exit that depends on positions of one input only, they
make a network of the input and one operator for each position, without adapters, as long as its
types can be written after the input and after each choice. Only where they cannot there is no
network. -/
theorem materialize_of_unary (d : Decoder α) (plain : ∀ t, input.Mentions t → '#' ∉ t.toList)
    (plain_output : ∀ t, output.Mentions t → '#' ∉ t.toList)
    (apart : ∀ t, output.Mentions t → ¬ input.Mentions t)
    (built : build c input output depth maxFanIn excluded = .ok s) {e : Int} (exit : e ∈ s.exits)
    (single : ∀ id, Relation.ReflTransGen s.Reads e id →
      ∀ p, s.find? id = some p → p.inputs.length = 1)
    {x : Selection} (selects : s.Selects e x)
    (params : ∀ q ∈ x.ops, ∃ v, d.params q.1 q.2 = .ok v) :
    (∀ before, before <+: x.ops → ∃ refs g, d.sketch s before = .ok (refs, g) ∧ g.Writable) ∧
        (∃ g, d.materialize s x = .ok g ∧ g.adapterNodes = [] ∧
          g.nodes.map (fun n => n.operator.map (·.name)) = none :: x.ops.map (·.2.text?)) ∨
      (∃ before, before <+: x.ops ∧ ∃ refs g, d.sketch s before = .ok (refs, g) ∧ ¬ g.Writable) ∧
        d.materialize s x = .error .unwritable := by
  obtain ⟨uses, all, laid, trims⟩ := exists_laid_of_build plain built
  rw [trims.exits] at exit
  obtain ⟨p, hp, rfl⟩ := List.mem_map.1 exit
  obtain ⟨mem, answers⟩ := List.mem_filter.1 hp
  obtain ⟨ps, line⟩ := exists_line trims.nodup (trims.closed laid) mem single
  obtain ⟨refs, g, sketched, follows⟩ :=
    line.exists_sketch trims laid (line.forall₂_chosen trims.nodup selects) params
  have nothing : g.adapterNodes = [] :=
    List.filter_eq_nil_iff.2 fun n hn => by simp [follows.direct.direct n hn]
  -- the sketch is made in any case; whether it can be written decides which way it ends
  rcases Decoder.wire_of_sketch sketched nothing with ⟨writable, wired⟩ | ⟨long, failed⟩
  · obtain ⟨n, there, known, alike⟩ := follows.last
    have found := follows.direct.wired.find?_id there
    have located : g.locate n.id = .ok n.id :=
      Network.locate_eq_ok.2 ⟨List.mem_map_of_mem there, rfl⟩
    have fits : (g.bindings.unify? s.outputType n.template).isSome := by
      rw [trims.outputType]
      exact (follows.direct.isSome_unify?_iff plain_output (trims.inputType ▸ apart)
        (fun t mentions => trims.not_mentions laid mem (plain_output t mentions) (apart t mentions))
          there alike).2 answers
    obtain ⟨b, unified⟩ := Option.isSome_iff_exists.1 fits
    have target : Decoder.ref refs (some (.id p.id)) = .ok n.id := Ref.find_id known
    refine .inl ⟨writable, { g with
      outputId := some n.id
      metadata := g.metadata.insert "exit" (Ref.toDataOver α (.id p.id)) }, ?_, nothing,
      follows.nodes⟩
    simp only [Decoder.materialize, bind_eq_ok, selects.exit]
    refine ⟨(refs, g), wired, n.id, target, { g with outputId := some n.id }, ?_, n,
      Network.node_eq_ok.2 found, .ok b,
        worded_eq_ok.2 (Bindings.unify?_eq_some_iff.1 unified), rfl⟩
    simp only [Network.setOutput, bind_eq_ok, pure_eq_ok]
    exact ⟨n.id, located, rfl⟩
  · refine .inr ⟨long, ?_⟩
    rw [Decoder.materialize, failed]
    rfl

/-! ### Two halves of which one stands for both -/

namespace Sample

open Decoder.Sample

/-- The second half, extended. -/
def rightHalf : Selection :=
  ⟨some (.id 1), [(.id 0, .text "right"), (.id 1, .text "extend")]⟩

/-- The halves compete for the first position, and the second one is the exit. -/
lemma build_halves : ∃ s p q,
    build halves (grid (.symbol "A") (.symbol "B")) (typeOf "vector" (.symbol "K")) (.whole 2)
      (.whole 3) (fun _ => .ok false) = .ok s ∧
    s.exits = [1] ∧ s.positions = [p, q] ∧ p.id = 0 ∧ q.id = 1 ∧ p.inputs = [none] ∧
    q.inputs = [some 0] ∧
    p.candidates.map (·.name) = ["left", "right"] ∧ q.candidates.map (·.name) = ["extend"] ∧
    ((limited 1 (by decide)).materialize s rightHalf).isOk := by
  have shown : ∃ s, (build halves (grid (.symbol "A") (.symbol "B")) (typeOf "vector" (.symbol "K"))
      (.whole 2) (.whole 3) fun _ => .ok false).toOption = some s ∧
      decide
        (s.exits = [1] ∧ s.positions.map (fun p => (p.id, p.inputs, p.candidates.map (·.name))) =
        [(0, [none], ["left", "right"]), (1, [some 0], ["extend"])] ∧
        ((limited 1 (by decide)).materialize s rightHalf).isOk) := by
    rw [← Option.any_eq_true]
    decide +kernel
  obtain ⟨s, built, shown⟩ := shown
  obtain ⟨exits, positions, composes⟩ := of_decide_eq_true shown
  obtain ⟨p, rest, two, first, others⟩ := List.map_eq_cons_iff.1 positions
  obtain ⟨q, rfl, second⟩ := List.map_eq_singleton_iff.1 others
  obtain ⟨id, shown⟩ := Prod.mk.inj first
  obtain ⟨inputs, names⟩ := Prod.mk.inj shown
  obtain ⟨id', shown'⟩ := Prod.mk.inj second
  obtain ⟨inputs', names'⟩ := Prod.mk.inj shown'
  exact ⟨s, p, q, toOption_eq_some.1 built, exits, two, id, id', inputs, inputs', names,
    names', composes⟩

/-- An operator that takes the last value off the first of two axes. -/
def popping : Catalog ℚ :=
  (Catalog.ofKinds ["path", "feature"] "cost").extend
    [typed "pop" [grid ((Dim.symbol "S").addNat 1) (.symbol "U")] (typeOf "feature" (.symbol "S"))]
      (by decide)

/-- A grid whose second axis is longer than the first one by a number. -/
def offset (n : Nat) : PortType :=
  grid (.symbol "A") ((Dim.symbol "A").addNat n)

/-- The only operator. -/
def popped : Selection :=
  ⟨some (.id 0), [(.id 0, .text "pop")]⟩

/-- The operator stands alone at the exit. -/
lemma build_popping : ∃ s p,
    build popping (offset (Text.unwritable - 1)) (typeOf "feature" (.symbol "K")) (.whole 1)
      (.whole 3) (fun _ => .ok false) = .ok s ∧
    s.exits = [0] ∧ s.positions = [p] ∧ p.id = 0 ∧ p.inputs = [none] ∧
    p.candidates.map (·.name) = ["pop"] ∧ ((limited 1 (by decide)).materialize s popped).isOk =
      false := by
  have shown : ∃ s, (build popping (offset (Text.unwritable - 1)) (typeOf "feature" (.symbol "K"))
      (.whole 1) (.whole 3) fun _ => .ok false).toOption = some s ∧
      decide
        (s.exits = [0] ∧ s.positions.map (fun p => (p.id, p.inputs, p.candidates.map (·.name))) =
        [(0, [none], ["pop"])] ∧ ((limited 1 (by decide)).materialize s popped).isOk = false) := by
    rw [← Option.any_eq_true]
    decide +kernel
  obtain ⟨s, built, shown⟩ := shown
  obtain ⟨exits, positions, failed⟩ := of_decide_eq_true shown
  obtain ⟨p, only, shown⟩ := List.map_eq_singleton_iff.1 positions
  obtain ⟨id, shown⟩ := Prod.mk.inj shown
  obtain ⟨inputs, names⟩ := Prod.mk.inj shown
  exact ⟨s, p, toOption_eq_some.1 built, exits, only, id, inputs, names, failed⟩

/-- The type mentions one plain symbol. -/
lemma plain_typeOf {kind : String} {t : String}
    (mentions : (typeOf kind (.symbol "K")).Mentions t) :
    t = "K" ∧ '#' ∉ t.toList := by
  obtain rfl : t = "K" := by simpa using mentions_typeOf.1 mentions
  exact ⟨rfl, by decide⟩

end Sample

open Sample Decoder.Sample

/-- The half that does not have the type of its position is extended. -/
theorem materialize_of_unary_right :
    let d := limited 1 (by decide)
    let input := grid (.symbol "A") (.symbol "B")
    let output := typeOf "vector" (.symbol "K")
    (∀ t, input.Mentions t → '#' ∉ t.toList) ∧ (∀ t, output.Mentions t → '#' ∉ t.toList) ∧
      (∀ t, output.Mentions t → ¬ input.Mentions t) ∧
      ∃ s, build halves input output (.whole 2) (.whole 3) (fun _ => .ok false) = .ok s ∧
        1 ∈ s.exits ∧
        (∀ id, Relation.ReflTransGen s.Reads 1 id →
          ∀ p, s.find? id = some p → p.inputs.length = 1) ∧
        s.Selects 1 rightHalf ∧ (∀ q ∈ rightHalf.ops, ∃ v, d.params q.1 q.2 = .ok v) ∧
        ∃ g, d.materialize s rightHalf = .ok g ∧ g.adapterNodes = [] ∧
          g.nodes.map (fun n => n.operator.map (·.name)) = [none, some "right", some "extend"] := by
  intro d input output
  obtain ⟨s, p, q, built, exits, positions, id, id', inputs, inputs', names, names', composes⟩ :=
    build_halves
  have plain : ∀ t, input.Mentions t → '#' ∉ t.toList := fun _ => plain_grid
  have plain_output : ∀ t, output.Mentions t → '#' ∉ t.toList := fun _ mentions =>
    (plain_typeOf mentions).2
  have apart : ∀ t, output.Mentions t → ¬ input.Mentions t := fun t mentions => by
    rw [(plain_typeOf mentions).1, mentions_grid]
    decide
  have exit : (1 : Int) ∈ s.exits := exits ▸ List.mem_singleton.2 rfl
  have distinct : s.ids.Nodup := by
    rw [Supergraph.ids, positions, List.map_cons, List.map_singleton, id, id']
    decide
  have first : p ∈ s.positions := positions ▸ List.mem_cons_self ..
  have second : q ∈ s.positions := positions ▸ List.mem_cons_of_mem _ (List.mem_cons_self ..)
  -- the two positions are read one behind the other, and nothing else is
  have line : s.Line [p, q] q :=
    .next (.first first inputs) second (id.symm ▸ inputs') (by rw [id, id']; decide)
  have single : ∀ id, Relation.ReflTransGen s.Reads 1 id →
      ∀ p, s.find? id = some p → p.inputs.length = 1 := by
    intro _ _ r found
    have mem := List.mem_of_find?_eq_some found
    rw [positions, List.mem_cons, List.mem_singleton] at mem
    rcases mem with rfl | rfl
    · rw [inputs]; rfl
    · rw [inputs']; rfl
  have selects : s.Selects 1 rightHalf := by
    refine ⟨rfl, ⟨[0, 1], rfl, by decide, fun id₀ => ?_⟩, ?_⟩
    · rw [← id', ← line.mem_iff distinct, List.map_cons, List.map_singleton, id, id']
    · obtain ⟨op, candidate, name⟩ : ∃ op ∈ p.candidates, op.name = "right" :=
        List.mem_map.1 (names ▸ List.mem_cons_of_mem _ (List.mem_cons_self ..))
      obtain ⟨op', candidate', name'⟩ : ∃ op ∈ q.candidates, op.name = "extend" :=
        List.mem_map.1 (names' ▸ List.mem_cons_self ..)
      have there := positionAt_id.2 ((find?_eq_some_iff distinct).2 ⟨first, id⟩)
      have there' := positionAt_id.2 ((find?_eq_some_iff distinct).2 ⟨second, id'⟩)
      exact List.forall_mem_cons.2 ⟨⟨p, op, there, candidate, congrArg _ name.symm⟩,
        List.forall_mem_singleton.2 ⟨q, op', there', candidate', congrArg _ name'.symm⟩⟩
  have params : ∀ q ∈ rightHalf.ops, ∃ v, d.params q.1 q.2 = .ok v := fun q _ => ⟨.empty, rfl⟩
  refine ⟨plain, plain_output, apart, s, built, exit, single, selects, params, ?_⟩
  -- the composition found above rules the failure out
  rcases materialize_of_unary d plain plain_output apart built exit single selects params with
    ⟨-, made⟩ | ⟨-, failed⟩
  · exact made
  · rw [failed] at composes
    cases composes

/-- A value is taken off an axis that another one exceeds by the longest number. One more is too
long to be written, so that no network is made of the only choice. -/
theorem materialize_ne_ok_popped :
    let d := limited 1 (by decide)
    let input := offset (Text.unwritable - 1)
    let output := typeOf "feature" (.symbol "K")
    (∀ t, input.Mentions t → '#' ∉ t.toList) ∧ (∀ t, output.Mentions t → '#' ∉ t.toList) ∧
      (∀ t, output.Mentions t → ¬ input.Mentions t) ∧
      ∃ s, build popping input output (.whole 1) (.whole 3) (fun _ => .ok false) = .ok s ∧
        0 ∈ s.exits ∧
        (∀ id, Relation.ReflTransGen s.Reads 0 id →
          ∀ p, s.find? id = some p → p.inputs.length = 1) ∧
        s.Selects 0 popped ∧ (∀ q ∈ popped.ops, ∃ v, d.params q.1 q.2 = .ok v) ∧
        ∀ g, d.materialize s popped ≠ .ok g := by
  intro d input output
  obtain ⟨s, p, built, exits, positions, id, inputs, names, failed⟩ := build_popping
  -- the input has the one symbol A, which is neither marked nor the output's
  have only : ∀ t, input.Mentions t → t = "A" := fun t mentions => by
    have symbols : ((Dim.symbol "A").addNat (Text.unwritable - 1)).symbols = ["A"] := rfl
    simpa [PortType.Mentions, input, offset, grid, symbols] using mentions
  have exit : (0 : Int) ∈ s.exits := exits ▸ List.mem_singleton.2 rfl
  have distinct : s.ids.Nodup := by
    rw [Supergraph.ids, positions]
    exact List.nodup_singleton _
  have mem : p ∈ s.positions := positions ▸ List.mem_singleton.2 rfl
  have line : s.Line [p] p := .first mem inputs
  refine ⟨fun t mentions => only t mentions ▸ by decide,
    fun t mentions => (plain_typeOf mentions).2,
    fun t mentions both => ?_, s, built, exit, fun _ _ r found => ?_, ⟨rfl, ?_, ?_⟩,
    fun q _ => ⟨.empty, rfl⟩, fun g made => ?_⟩
  · exact absurd ((only t both).symm.trans (plain_typeOf mentions).1) (by decide)
  · have mem := List.mem_of_find?_eq_some found
    rw [positions, List.mem_singleton] at mem
    rw [mem, inputs]
    rfl
  · refine ⟨[0], rfl, List.pairwise_singleton _ _, fun id₀ => ?_⟩
    rw [← id, ← line.mem_iff distinct, List.map_singleton]
  · obtain ⟨op, candidate, name⟩ : ∃ op ∈ p.candidates, op.name = "pop" :=
      List.mem_map.1 (names ▸ List.mem_cons_self ..)
    have there := positionAt_id.2 ((find?_eq_some_iff distinct).2 ⟨mem, id⟩)
    exact List.forall_mem_singleton.2 ⟨p, op, there, candidate, congrArg _ name.symm⟩
  · rw [made] at failed
    cases failed

end Supergraph

end OperatorNet
