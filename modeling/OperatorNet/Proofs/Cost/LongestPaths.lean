import Mathlib.Order.Bounds.Defs
import OperatorNet.Proofs.Scalar.Sums
import OperatorNet.Proofs.Cost.Prices
import OperatorNet.Proofs.Network.Relevance
import OperatorNet.Proofs.Search.Repair

/-!
# Prices along paths

Where every use makes something of the largest number that it reads, the number of a node is the
greatest that comes about along a path from it, and it is unknown when a path has a use that makes
nothing (`Extends`). So the price of a network is, by the kind of its metric, the sum of the costs
of the live uses, the cost of the most expensive path, or the largest product of Lipschitz bounds
along a path; and nothing but live nodes matters to it (`Standing.exists_aggregate`). Inputs are
given, so a path ends at the first one that it comes to.
-/

namespace OperatorNet

open Scalar

variable {α : Type}

namespace Network

variable {g g' : Network α} {out m n : Node α} {op : Operator α} {nodes path : List (Node α)}

/-- A use of an operator that the output depends on. -/
structure LiveUse (g : Network α) (n : Node α) (op : Operator α) : Prop where
  mem : n ∈ g.nodes
  lives : g.Lives n.id
  uses : n.operator = some op

/-- Every live use reads something. -/
def Fed (g : Network α) : Prop :=
  ∀ n op, g.LiveUse n op → n.inputs ≠ []

/-- A live operator node reads a node of the network. -/
lemma Standing.exists_source (standing : g.Standing out) (fed : g.Fed) (use : g.LiveUse n op) :
    ∃ m ∈ g.nodes, m.id ∈ n.sources := by
  obtain ⟨r, hr⟩ := List.exists_mem_of_ne_nil n.inputs (fed n op use)
  obtain ⟨m, hm, id⟩ := standing.reads n use.mem use.lives r hr
  exact ⟨m, hm, List.mem_filterMap.2 ⟨r, hr, id⟩⟩

/-- A path leads to each live node. -/
lemma Standing.exists_path (standing : g.Standing out) (fed : g.Fed) (sourced : Sourced nodes)
    (live : ∀ n, n ∈ nodes ↔ n ∈ g.nodes ∧ g.Lives n.id) : ∀ n ∈ nodes, ∃ path, g.Path n path := by
  refine sourced.induction fun n hn earlier => ?_
  obtain ⟨mem, lives⟩ := (live n).1 hn
  cases uses : n.operator with
  | none => exact ⟨[n], .input mem uses⟩
  | some op =>
    obtain ⟨m, hm, read⟩ := standing.exists_source fed ⟨mem, lives, uses⟩
    have there : m ∈ nodes := (live m).2 ⟨hm, standing.source_lives mem lives read⟩
    obtain ⟨path, way⟩ := earlier m there read
    exact ⟨n :: path, .read mem uses read way⟩

/-- What a live use reads is found where every live node is listed. -/
lemma Standing.exists_fetch {β : Type} (standing : g.Standing out)
    (live : ∀ n, n ∈ nodes ↔ n ∈ g.nodes ∧ g.Lives n.id) {table : List (Int × β)}
    (each : ∀ n ∈ nodes, ∃ x, fetch n.id table = some x) (use : g.LiveUse n op) {s : Int}
    (read : s ∈ n.sources) : ∃ x, fetch s table = some x := by
  have lives := standing.source_lives use.mem use.lives read
  obtain ⟨m, hm, rfl⟩ := standing.exists_of_lives lives
  exact each m ((live m).2 ⟨hm, lives⟩)

/-- Live inputs read nothing. -/
def Given (g : Network α) : Prop :=
  ∀ n ∈ g.nodes, g.Lives n.id → n.operator = none → n.inputs = []

/-- All nodes of a path from a live node are live. -/
lemma Path.lives (way : g.Path n path) (standing : g.Standing out) (lives : g.Lives n.id) :
    ∀ m ∈ path, m ∈ g.nodes ∧ g.Lives m.id := by
  induction way with
  | input mem => exact List.forall_mem_singleton.2 ⟨mem, lives⟩
  | read mem _ read _ ih =>
    exact List.forall_mem_cons.2 ⟨⟨mem, lives⟩, ih (standing.source_lives mem lives read)⟩

/-- Where live inputs read nothing, a path from a live node goes on to the output. -/
lemma Standing.exists_path_from (standing : g.Standing out) (given : g.Given) {i : Int}
    (leads : Relation.ReflTransGen (Leads g.inputs) out.id i) :
    ∀ n ∈ g.nodes, n.id = i → ∀ path, g.Path n path → ∃ longer, g.Path out longer ∧
      path ⊆ longer := by
  induction leads with
  | refl =>
    intro n hn id path way
    obtain rfl := List.inj_on_of_nodup_map standing.distinct hn standing.out_mem id
    exact ⟨path, way, List.Subset.refl path⟩
  | tail before leads ih =>
    rintro n hn rfl path way
    obtain ⟨m, hm, rfl⟩ := List.mem_map.1 (mem_ids_of_leads leads)
    have read : n.id ∈ m.sources := sources_id standing.distinct hm ▸ mem_sources_iff.2 leads
    cases uses : m.operator with
    | none =>
      rw [Node.sources, given m hm ⟨out, standing.output, before⟩ uses] at read
      cases read
    | some op =>
      obtain ⟨longer, way, within⟩ := ih m hm rfl (m :: path) (.read hm uses read way)
      exact ⟨longer, way, List.Subset.trans (List.subset_cons_self m path) within⟩

/-- Numbers of nodes, some of them unknown. That of a use comes from the largest number that it
reads, by `extend`, and so do the numbers of paths, by `weight`. -/
structure Extends [LE α] (g : Network α) (value : Int → Option α) (weight : List (Node α) → α)
    (extend : Node α → Option (α → α)) : Prop where
  input : ∀ n ∈ g.nodes, g.Lives n.id → n.operator = none → value n.id = some (weight [n])
  unknown : ∀ n op, g.LiveUse n op → value n.id = none → extend n = none ∨
    ∃ s ∈ n.sources, value s = none
  known : ∀ n op x, g.LiveUse n op → value n.id = some x → ∃ f, extend n = some f ∧
    (∀ s ∈ n.sources, ∃ y, value s = some y ∧ f y ≤ x) ∧
      ∃ s ∈ n.sources, ∃ y, value s = some y ∧ f y = x
  path : ∀ n path f, extend n = some f → weight (n :: path) = f (weight path)
  mono : ∀ n op f x y, g.LiveUse n op → extend n = some f → x ≤ y → f x ≤ f y
  start : ∀ n, n.operator = none → extend n ≠ none

namespace Extends

variable [Scalar α] {value : Int → Option α} {weight : List (Node α) → α}
  {extend : Node α → Option (α → α)}

/-- What is known is the number of a path, and behind what is unknown some use makes nothing. -/
lemma exists_path (extending : g.Extends value weight extend) (standing : g.Standing out)
    (fed : g.Fed) (sourced : Sourced nodes) (live : ∀ n, n ∈ nodes ↔ n ∈ g.nodes ∧ g.Lives n.id) :
    ∀ n ∈ nodes, (∀ x, value n.id = some x → ∃ path, g.Path n path ∧ weight path = x) ∧
      (value n.id = none → ∃ path, g.Path n path ∧ ∃ m ∈ path, extend m = none) := by
  -- along the order of the live nodes; the two halves give a path for a value and for its absence
  refine sourced.induction fun n hn earlier => ?_
  obtain ⟨mem, lives⟩ := (live n).1 hn
  cases uses : n.operator with
  | none =>
    have known := extending.input n mem lives uses
    refine ⟨fun x found => ⟨[n], .input mem uses, Option.some.inj (known.symm.trans found)⟩,
      fun unknown => ?_⟩
    rw [known] at unknown
    cases unknown
  | some op =>
    have use : g.LiveUse n op := ⟨mem, lives, uses⟩
    have source : ∀ s ∈ n.sources, ∃ m ∈ nodes, m.id = s := fun s read =>
      List.mem_map.1 (sourced.mem_of_read hn read)
    constructor
    case left =>
      intro x known
      obtain ⟨f, extended, -, s, read, y, there, rfl⟩ := extending.known n op x use known
      obtain ⟨m, hm, rfl⟩ := source s read
      obtain ⟨path, way, rfl⟩ := (earlier m hm read).1 y there
      exact ⟨n :: path, .read mem uses read way, extending.path n path f extended⟩
    case right =>
      intro unknown
      rcases extending.unknown n op use unknown with nothing | ⟨s, read, unknown⟩
      · obtain ⟨path, way⟩ := standing.exists_path fed sourced live n hn
        obtain ⟨rest, rfl⟩ := way.exists_cons
        exact ⟨n :: rest, way, n, List.mem_cons_self .., nothing⟩
      · obtain ⟨m, hm, rfl⟩ := source s read
        obtain ⟨path, way, k, hk, nothing⟩ := (earlier m hm read).2 unknown
        exact ⟨n :: path, .read mem uses read way, k, List.mem_cons_of_mem _ hk, nothing⟩

/-- Where the number of a node is known, those of the paths from it are at most that, and every use
on them makes something. -/
lemma le_of_path [Exact α] [Arithmetic α] (extending : g.Extends value weight extend)
    (standing : g.Standing out) (way : g.Path n path) (lives : g.Lives n.id) {x : α}
    (known : value n.id = some x) : weight path ≤ x ∧ ∀ m ∈ path, extend m ≠ none := by
  induction way generalizing x with
  | @input n mem uses =>
    obtain rfl := Option.some.inj ((extending.input n mem lives uses).symm.trans known)
    exact ⟨Scalar.le_refl _, List.forall_mem_singleton.2 (extending.start n uses)⟩
  | @read n op m path mem uses read way ih =>
    have use : g.LiveUse n op := ⟨mem, lives, uses⟩
    obtain ⟨f, extended, each, -⟩ := extending.known n op x use known
    obtain ⟨y, there, below⟩ := each m.id read
    obtain ⟨le, others⟩ := ih (standing.source_lives mem lives read) there
    refine ⟨?_, List.forall_mem_cons.2 ⟨?_, others⟩⟩
    · rw [extending.path n path f extended]
      exact Arithmetic.le_trans (extending.mono n op f _ _ use extended le) below
    · rw [extended]
      exact Option.some_ne_none f

/-- The number of the output is unknown when a path has a use that makes nothing; else it is the
greatest of the numbers of paths. -/
lemma isGreatest [Exact α] [Arithmetic α] (extending : g.Extends value weight extend)
    (standing : g.Standing out) (fed : g.Fed) (sourced : Sourced nodes)
    (live : ∀ n, n ∈ nodes ↔ n ∈ g.nodes ∧ g.Lives n.id) :
    (value out.id = none ↔ ∃ path, g.Path out path ∧ ∃ m ∈ path, extend m = none) ∧
      ∀ x, value out.id = some x →
        IsGreatest {y | ∃ path, g.Path out path ∧ weight path = y} x := by
  have lives := standing.lives_out
  obtain ⟨reaches, unknown⟩ :=
    extending.exists_path standing fed sourced live out ((live out).2 ⟨standing.out_mem, lives⟩)
  refine ⟨⟨unknown, ?_⟩, fun x known => ⟨reaches x known, ?_⟩⟩
  · rintro ⟨path, way, m, hm, nothing⟩
    by_contra known
    obtain ⟨x, known⟩ := Option.ne_none_iff_exists'.1 known
    exact (extending.le_of_path standing way lives known).2 m hm nothing
  · rintro y ⟨path, way, rfl⟩
    exact (extending.le_of_path standing way lives known).1

end Extends

variable [Scalar α] {metric : String} {table : List (Int × α)}

/-! ### The most expensive path -/

section

attribute [local instance] commSemiring

/-- What the nodes of a path cost together. -/
def costAlong (metric : String) (path : List (Node α)) : α :=
  Scalar.sum (path.map (·.costOf metric))

/-- A node adds its own cost to the path after it. -/
lemma costAlong_cons [Commutative α] (n : Node α) (path : List (Node α)) :
    costAlong metric (n :: path) = n.costOf metric + costAlong metric path := by
  rw [costAlong, costAlong, sum_eq, sum_eq, List.map_cons, List.sum_cons]

end

/-- The largest value of some nodes is that of one of them. -/
lemma exists_largestOf (start : α) {ids : List Int} {s : Int} (read : s ∈ ids) {y : α}
    (found : fetch s table = some y) :
    ∃ s ∈ ids, fetch s table = some (largestOf table start ids) := by
  have listed : y ∈ ids.filterMap fun s => fetch s table := List.mem_filterMap.2 ⟨s, read, found⟩
  rw [largestOf]
  split
  next none => rw [none] at listed; cases listed
  next x xs all => exact List.mem_filterMap.1 (all ▸ maximum_mem x xs)

/-- The costs that are found node by node are those of the most expensive paths. -/
lemma extends_pathCosts [Exact α] [Arithmetic α] [Growing α] [Commutative α]
    (standing : g.Standing out) (fed : g.Fed) (sourced : Sourced nodes)
    (live : ∀ n, n ∈ nodes ↔ n ∈ g.nodes ∧ g.Lives n.id) :
    g.Extends (fetch · (pathCosts metric nodes)) (costAlong metric)
      fun n => some (n.costOf metric + ·) := by
  have each := (tabulates_pathCosts metric nodes).exists_fetch (local_pathCost metric) sourced
  generalize pathCosts metric nodes = table at each
  -- each live use has its own cost and the largest of its sources in the table
  have atUse : ∀ n op, g.LiveUse n op →
      fetch n.id table = some (n.costOf metric + largestOf table 0 n.sources) := by
    intro n op use
    obtain ⟨x, found, made⟩ := each n ((live n).2 ⟨use.mem, use.lives⟩)
    rw [pathCost, Node.isInput, use.uses, if_neg (by simp), Commutative.add_comm] at made
    rw [found, made]
  have atSource : ∀ n op, g.LiveUse n op → ∀ s ∈ n.sources, ∃ y, fetch s table = some y :=
    fun n op use s => standing.exists_fetch live (fun m hm => (each m hm).imp fun _ => And.left) use
  constructor
  case input =>
    intro n mem lives uses
    obtain ⟨x, found, made⟩ := each n ((live n).2 ⟨mem, lives⟩)
    rw [pathCost, Node.isInput, uses, if_pos (by rfl)] at made
    have free : costAlong metric [n] = 0 := by
      rw [costAlong_cons, Node.costOf, uses]
      exact Neutral.zero_add 0
    rw [found, made, free]
  case unknown =>
    intro n op use unknown
    rw [atUse n op use] at unknown
    cases unknown
  case known =>
    intro n op x use known
    obtain rfl := Option.some.inj ((atUse n op use).symm.trans known)
    refine ⟨_, rfl, fun s read => ?_, ?_⟩
    · obtain ⟨y, found⟩ := atSource n op use s read
      exact ⟨y, found, Growing.add_le_add_left _ (le_largestOf read found)⟩
    · obtain ⟨m, -, read⟩ := standing.exists_source fed use
      obtain ⟨y, found⟩ := atSource n op use m.id read
      obtain ⟨s, read, largest⟩ := exists_largestOf 0 read found
      exact ⟨s, read, _, largest, rfl⟩
  case path =>
    intro n path f extended
    obtain rfl := Option.some.inj extended
    exact costAlong_cons n path
  case mono =>
    intro n op f x y _ extended le
    obtain rfl := Option.some.inj extended
    exact Growing.add_le_add_left _ le
  case start => exact fun n _ => Option.some_ne_none _

/-! ### The largest product of bounds -/

/-- The Lipschitz bound of a node on its own, if there is one; inputs stretch nothing. -/
def ownBound? (n : Node α) : Option α :=
  match n.operator with
  | none => some 1
  | some op => (op.lipschitz n.overrides).toOption.join

/-- The product of the bounds of the nodes of a path; those that have none count as one. -/
def boundAlong (path : List (Node α)) : α :=
  (path.map fun n => (ownBound? n).getD 1).foldr (· * ·) 1

/-- Bounds that are neither negative nor refused. -/
def Bounded (g : Network α) : Prop :=
  ∀ n op, g.LiveUse n op → ∃ own, op.lipschitz n.overrides = .ok own ∧ ∀ x, own = some x → 0 ≤ x

omit [Scalar α] in
/-- Prices that are not all known have an unknown one among them. -/
lemma unknown_mem_of_mapM {prices : List (Price α)} (unknown : prices.mapM Price.value? = none) :
    .unknown ∈ prices := by
  induction prices with
  | nil => cases unknown
  | cons price rest ih =>
    cases price with
    | unknown => exact List.mem_cons_self ..
    | known x =>
      cases all : rest.mapM Price.value? with
      | none => exact List.mem_cons_of_mem _ (ih all)
      | some xs =>
        rw [List.mapM_cons, all] at unknown
        cases unknown

/-- A node has the bound that its operator gives it. -/
lemma ownBound?_of_use {own : Option α} (uses : n.operator = some op)
    (given : op.lipschitz n.overrides = .ok own) : ownBound? n = own := by
  rw [ownBound?, uses]
  simp only [given]
  rfl

/-- The bounds of live nodes are not negative. -/
lemma Bounded.nonneg (bounded : g.Bounded) (use : g.LiveUse n op) {b : α}
    (own : ownBound? n = some b) :
    0 ≤ b := by
  obtain ⟨own', given, nonneg⟩ := bounded n op use
  exact nonneg b (ownBound?_of_use use.uses given ▸ own)

/-- The bound of a use is unknown without one of its own or behind an unknown one, and else it is
the product of its own one and the largest that it reads. -/
lemma boundOf_cases {table : List (Int × Price α)} {own : Option α} {price : Price α}
    (uses : n.operator = some op) (given : op.lipschitz n.overrides = .ok own)
    (bound : boundOf table n = .ok price)
    (there : ∃ s ∈ n.sources, ∃ price, fetch s table = some price) :
    (price = .unknown ∧ (own = none ∨ ∃ s ∈ n.sources, fetch s table = some .unknown)) ∨
      ∃ b x xs, own = some b ∧ (n.sources.filterMap fun s => fetch s table) = (x :: xs).map .known ∧
        price = .known (b * maximum x xs) := by
  simp only [boundOf, uses, given, bind, Except.bind, pure, Except.pure] at bound
  cases own with
  | none =>
    cases bound
    exact .inl ⟨rfl, .inl rfl⟩
  | some b =>
    cases all : (n.sources.filterMap fun s => fetch s table).mapM Price.value? with
    | none =>
      rw [all] at bound
      cases bound
      obtain ⟨s, read, found⟩ := List.mem_filterMap.1 (unknown_mem_of_mapM all)
      exact .inl ⟨rfl, .inr ⟨s, read, found⟩⟩
    | some values =>
      rw [all] at bound
      have known := eq_known_of_mapM all
      cases values with
      | nil =>
        obtain ⟨s, read, price, found⟩ := there
        have listed : price ∈ n.sources.filterMap fun s => fetch s table :=
          List.mem_filterMap.2 ⟨s, read, found⟩
        rw [known] at listed
        cases listed
      | cons x xs =>
        cases bound
        exact .inr ⟨b, x, xs, rfl, known, rfl⟩

/-- A live use and all that it reads have prices in the table of bounds. Its own is unknown where
its bound or the price of a source is, and else its bound times the largest price of a source. -/
lemma exists_pathBound (standing : g.Standing out) (fed : g.Fed) (bounded : g.Bounded)
    (sourced : Sourced nodes) (live : ∀ n, n ∈ nodes ↔ n ∈ g.nodes ∧ g.Lives n.id)
    {table : List (Int × Price α)}
    (found : Tabulates (fun done n x => boundOf done n = .ok x) nodes table)
    (use : g.LiveUse n op) :
    (∀ s ∈ n.sources, ∃ price, fetch s table = some price) ∧
      ∃ price, fetch n.id table = some price ∧
        ((price = .unknown ∧
            (ownBound? n = none ∨ ∃ s ∈ n.sources, fetch s table = some .unknown)) ∨
          ∃ b x xs, ownBound? n = some b ∧
            (n.sources.filterMap fun s => fetch s table) = (x :: xs).map .known ∧
            price = .known (b * maximum x xs)) := by
  have each := found.exists_fetch local_boundOf sourced
  have sources : ∀ s ∈ n.sources, ∃ price, fetch s table = some price := fun s =>
    standing.exists_fetch live (fun m hm => (each m hm).imp fun _ => And.left) use
  obtain ⟨price, there, bound⟩ := each n ((live n).2 ⟨use.mem, use.lives⟩)
  obtain ⟨own, given, -⟩ := bounded n op use
  obtain ⟨m, -, read⟩ := standing.exists_source fed use
  rw [ownBound?_of_use use.uses given]
  exact ⟨sources, price, there, boundOf_cases use.uses given bound ⟨m.id, read, sources m.id read⟩⟩

/-- The bounds that are found node by node are the largest products of bounds along paths. -/
lemma extends_pathBounds [Exact α] [Arithmetic α] [Commutative α] (standing : g.Standing out)
    (fed : g.Fed) (bounded : g.Bounded) (sourced : Sourced nodes)
    (live : ∀ n, n ∈ nodes ↔ n ∈ g.nodes ∧ g.Lives n.id) {table : List (Int × Price α)}
    (found : Tabulates (fun done n x => boundOf done n = .ok x) nodes table) :
    g.Extends (fun i => (fetch i table).bind Price.value?) boundAlong
      fun n => (ownBound? n).map (· * ·) := by
  have each := found.exists_fetch local_boundOf sourced
  have atUse {n : Node α} {op : Operator α} (use : g.LiveUse n op) :=
    exists_pathBound standing fed bounded sourced live found use
  -- what the step may give, an unknown price or a known one, decides the cases below
  constructor
  case input =>
    intro n mem lives uses
    obtain ⟨price, found, bound⟩ := each n ((live n).2 ⟨mem, lives⟩)
    simp only [boundOf, uses] at bound
    cases bound
    have one : boundAlong [n] = 1 := by
      rw [boundAlong, List.map_singleton, ownBound?, uses]
      exact Arithmetic.mul_one 1
    rw [found, one]
    rfl
  case unknown =>
    intro n op use unknown
    obtain ⟨price, found, ⟨rfl, nothing | ⟨s, read, behind⟩⟩ | ⟨b, x, xs, -, -, rfl⟩⟩ :=
      (atUse use).2
    · exact .inl (by rw [nothing]; rfl)
    · exact .inr ⟨s, read, by rw [behind]; rfl⟩
    · rw [found] at unknown
      cases unknown
  case known =>
    intro n op z use known
    obtain ⟨sources, price, found, ⟨rfl, -⟩ | ⟨b, x, xs, own, all, rfl⟩⟩ := atUse use
    · rw [found] at known
      cases known
    rw [found] at known
    cases known
    refine ⟨(b * ·), by rw [own]; rfl, fun s read => ?_, ?_⟩
    · obtain ⟨price, found⟩ := sources s read
      have listed : price ∈ (x :: xs).map .known := all ▸ List.mem_filterMap.2 ⟨s, read, found⟩
      obtain ⟨y, hy, rfl⟩ := List.mem_map.1 listed
      exact ⟨y, by rw [found]; rfl,
        Arithmetic.mul_le_mul_of_nonneg_left (le_maximum hy) (bounded.nonneg use own)⟩
    · have listed : .known (maximum x xs) ∈ n.sources.filterMap fun s => fetch s table :=
        all ▸ List.mem_map_of_mem (maximum_mem x xs)
      obtain ⟨s, read, found⟩ := List.mem_filterMap.1 listed
      exact ⟨s, read, _, by rw [found]; rfl, rfl⟩
  case path =>
    intro n path f extended
    obtain ⟨b, own, rfl⟩ := Option.map_eq_some_iff.1 extended
    rw [boundAlong, List.map_cons, own]
    rfl
  case mono =>
    intro n op f x y use extended le
    obtain ⟨b, own, rfl⟩ := Option.map_eq_some_iff.1 extended
    exact Arithmetic.mul_le_mul_of_nonneg_left le (bounded.nonneg use own)
  case start =>
    intro n uses
    rw [ownBound?, uses]
    exact Option.some_ne_none _

/-! ### Prices -/

open Classical in
/-- The uses of operators that the output depends on. -/
noncomputable def liveUses (g : Network α) : List (Node α) :=
  g.nodes.filter fun n => decide (g.Lives n.id) && !n.isInput

section

attribute [local instance] commSemiring

omit [Scalar α] in
/-- The live operator nodes are the live nodes that are no inputs. -/
lemma mem_liveUses : n ∈ g.liveUses ↔ (n ∈ g.nodes ∧ g.Lives n.id) ∧ n.isInput = false := by
  simp [liveUses, and_assoc]

/-- The costs of the live uses have one sum, in whatever order they are added up. -/
lemma sum_liveUses [Commutative α] (sourced : Sourced nodes) (distinct : g.ids.Nodup)
    (live : ∀ n, n ∈ nodes ↔ n ∈ g.nodes ∧ g.Lives n.id) :
    Scalar.sum ((nodes.filter fun n => !n.isInput).map (·.costOf metric)) =
      Scalar.sum (g.liveUses.map (·.costOf metric)) := by
  have perm : (nodes.filter fun n => !n.isInput).Perm g.liveUses := by
    refine (List.perm_ext_iff_of_nodup ?_ ?_).2 fun n => ?_
    · exact (List.Nodup.of_map _ sourced.distinct).filter _
    · exact (List.Nodup.of_map _ distinct).filter _
    · rw [List.mem_filter, live, mem_liveUses, Bool.not_eq_true']
  rw [sum_eq, sum_eq, (perm.map _).sum_eq]

end

/-- Where live inputs read nothing, the uses on paths are all live ones. -/
lemma Standing.exists_unbounded_iff (standing : g.Standing out) (fed : g.Fed) (given : g.Given)
    (sourced : Sourced nodes) (live : ∀ n, n ∈ nodes ↔ n ∈ g.nodes ∧ g.Lives n.id) :
    (∃ path, g.Path out path ∧ ∃ n ∈ path, ownBound? n = none) ↔
      ∃ n op, g.LiveUse n op ∧ ownBound? n = none := by
  constructor
  · rintro ⟨path, way, n, hn, nothing⟩
    obtain ⟨mem, lives⟩ := way.lives standing standing.lives_out n hn
    cases uses : n.operator with
    | none =>
      rw [ownBound?, uses] at nothing
      cases nothing
    | some op => exact ⟨n, op, ⟨mem, lives, uses⟩, nothing⟩
  · rintro ⟨n, op, ⟨mem, lives, uses⟩, nothing⟩
    obtain ⟨path, way⟩ := standing.exists_path fed sourced live n ((live n).2 ⟨mem, lives⟩)
    obtain ⟨rest, rfl⟩ := way.exists_cons
    obtain ⟨out', output, leads⟩ := lives
    obtain rfl := Except.ok.inj (standing.output.symm.trans output)
    obtain ⟨longer, way, within⟩ := standing.exists_path_from given leads n mem rfl _ way
    exact ⟨longer, way, n, within (List.mem_cons_self ..), nothing⟩

/-- What the price of a network is, by the kind of the metric. A path ends at the first input. -/
def PricedByPaths (g : Network α) (out : Node α) (metric : String) : MetricKind → Price α → Prop
  | .additive, price => price = .known (Scalar.sum (g.liveUses.map (·.costOf metric)))
  | .criticalPath, price => ∃ x, price = .known x ∧
      IsGreatest {y | ∃ path, g.Path out path ∧ costAlong metric path = y} x
  | .lipschitz, price =>
      (price = .unknown ↔ ∃ path, g.Path out path ∧ ∃ n ∈ path, ownBound? n = none) ∧
      (g.Given → (price = .unknown ↔ ∃ n op, g.LiveUse n op ∧ ownBound? n = none)) ∧
      ∀ x, price = .known x → IsGreatest {y | ∃ path, g.Path out path ∧ boundAlong path = y} x

variable {kinds : MetricKinds} {kind : MetricKind}

/-- A network is priced by its live uses and paths, and networks with the same live nodes have one
price. -/
theorem Standing.exists_aggregate [Exact α] [Arithmetic α] [Growing α] [Commutative α]
    (standing : g.Standing out) (fed : g.Fed) (bounded : kind = .lipschitz → g.Bounded)
    (isKind : metricKind metric kinds = .ok kind) :
    ∃ price, g.PricedByPaths out metric kind price ∧
      ∀ g', g.Agrees g' → g'.aggregate metric kinds = .ok price := by
  obtain ⟨rs, nodes, sourced, live, orders⟩ := standing.exists_order
  have priced : ∀ g', g.Agrees g' → g'.aggregate metric kinds = _ := fun g' agrees =>
    aggregate_eq isKind (orders g' agrees).2.2 (standing.output_eq agrees)
  have last : out ∈ nodes := (live out).2 ⟨standing.out_mem, standing.lives_out⟩
  -- a sum needs no paths; the two other kinds of metrics extend values along them
  cases kind with
  | additive =>
    exact ⟨_, congrArg Price.known (sum_liveUses sourced standing.distinct live), priced⟩
  | criticalPath =>
    obtain ⟨-, greatest⟩ :=
      (extends_pathCosts standing fed sourced live).isGreatest standing fed sourced live
    obtain ⟨x, found, -⟩ :=
      (tabulates_pathCosts metric nodes).exists_fetch (local_pathCost metric) sourced out last
    simp only [found, Option.getD_some] at priced
    exact ⟨_, ⟨x, rfl, greatest x found⟩, priced⟩
  | lipschitz =>
    have gives : ∀ n ∈ nodes, ∀ op, n.operator = some op →
        ∃ own, op.lipschitz n.overrides = .ok own := by
      intro n hn op uses
      obtain ⟨mem, lives⟩ := (live n).1 hn
      obtain ⟨own, given, -⟩ := bounded rfl n op ⟨mem, lives, uses⟩
      exact ⟨own, given⟩
    obtain ⟨table, done, found⟩ := exists_pathBounds gives .nil
    obtain ⟨unknown, greatest⟩ :=
      (extends_pathBounds standing fed (bounded rfl) sourced live found).isGreatest
      standing fed sourced live
    obtain ⟨price, there, -⟩ := found.exists_fetch local_boundOf sourced out last
    simp only [done, Except.map, there, Option.getD_some] at priced
    simp only [there, Option.bind_some, Option.map_eq_none_iff] at unknown greatest
    have unbounded : price = .unknown ↔ ∃ path, g.Path out path ∧
        ∃ n ∈ path, ownBound? n = none := by
      rw [← unknown]
      cases price with
      | known x => exact iff_of_false (by simp) (Option.some_ne_none x)
      | unknown => exact iff_of_true rfl rfl
    refine ⟨price, ⟨unbounded, fun given => ?_, fun x known => ?_⟩, priced⟩
    · exact unbounded.trans (standing.exists_unbounded_iff fed given sourced live)
    · exact greatest x (by rw [known]; rfl)

end Network

/-! ### Paths that meet, and an input that reads -/

namespace Network.Sample

open Decoder.Sample (elementary)
open scoped Decoder.Sample

/-- An operator with a cost in time and, possibly, a bound. -/
def timed (name : String) (latency : ℚ) (stability : Option ℚ) : Operator ℚ :=
  { name, inTypes := [typeOf "path" [.symbol "X"]]
    outType := typeOf "path" [.symbol "X"], differentiable := true, invariance := .empty
    stability, cost := .ofList [("latency", latency)], params := .empty, adapter := false,
      executor := none }

/-- A node that reads from others. -/
def nodeWith (id : Int) (operator : Option (Operator ℚ)) (reads : List Int) : Node ℚ :=
  { id, name := (operator.map (·.name)).getD "x", operator, inputs := reads.map .id
    template := typeOf "path" [.ofNat 3], resolved := typeOf "path" [.ofNat 3]
    params := some .empty, inserted := false }

/-- What reads from both branches, from one of them twice. -/
def meeting : Node ℚ :=
  nodeWith 3 (timed "join" 1 (some 3)) [1, 2, 1]

/-- Two branches that meet, and a node without a bound that nothing reads. -/
def diamond : Network ℚ :=
  { Network.empty "g" with
    nodes := [nodeWith 0 none [], nodeWith 1 (timed "double" 2 (some 2)) [0],
      nodeWith 2 (timed "halve" 5 (some (1 / 2))) [0], meeting,
        nodeWith 4 (timed "open" 7 none) [3]]
    nextId := 5, inputIds := [0], outputId := some 3 }

/-- A network that is put in order, with an output and without dangling references, is standing. -/
lemma standing_of_order {g : Network ℚ} {out : Node ℚ} (order : List Int) (distinct : g.ids.Nodup)
    (ordered : g.order = .ok order) (output : g.output = .ok out)
    (reads : ∀ n ∈ g.nodes, ∀ r ∈ n.inputs, ∃ m ∈ g.nodes, r.id? = some m.id) : g.Standing out :=
  ⟨distinct, exists_order_iff.1 ⟨order, ordered⟩, output, fun n mem _ => reads n mem⟩

/-- A network whose operators all read something is fed. -/
lemma fed_of_uses {g : Network ℚ} (reads : ∀ n ∈ g.nodes, n.operator.isSome → n.inputs ≠ []) :
    g.Fed :=
  fun n _ use => reads n use.mem (by rw [use.uses]; rfl)

/-- The diamond is standing. -/
lemma standing_diamond : diamond.Standing meeting :=
  standing_of_order [0, 1, 2, 3, 4] (by decide) (by with_unfolding_all rfl) rfl (by decide)

/-- The diamond is fed. -/
lemma fed_diamond : diamond.Fed :=
  fed_of_uses (by decide)

/-- The diamond has bounds that are known and not negative. -/
lemma bounded_diamond : diamond.Bounded := by
  have each : ∀ n ∈ diamond.nodes, ∀ op ∈ n.operator, op.executor.isNone ∧
      ∀ x ∈ op.stability, 0 ≤ x := by
    simp [diamond, meeting, nodeWith, timed]
  intro n op use
  obtain ⟨alone, nonneg⟩ := each n use.mem op use.uses
  refine ⟨op.stability, ?_, nonneg⟩
  rw [Operator.lipschitz, Option.isNone_iff_eq_none.1 alone]
  cases op.stability <;> rfl

/-- An input that was made to read from an operator, and an operator that reads from it. -/
def relay : Network ℚ :=
  { Network.empty "g" with
    nodes := [nodeWith 0 none [], nodeWith 1 (timed "first" 2 none) [0], nodeWith 2 none [1],
      nodeWith 3 (timed "second" 1 none) [2]]
    nextId := 4, inputIds := [0, 2], outputId := some 3 }

/-- The relay is standing. -/
lemma standing_relay : relay.Standing (nodeWith 3 (timed "second" 1 none) [2]) :=
  standing_of_order [0, 1, 2, 3] (by decide) (by with_unfolding_all rfl) rfl (by decide)

/-- The relay is fed. -/
lemma fed_relay : relay.Fed :=
  fed_of_uses (by decide)

end Network.Sample

/-- A path from a node against the wires to an input, whatever lies on it. -/
inductive Network.Route (g : Network α) : Node α → List (Node α) → Prop
  | input {n} : n ∈ g.nodes → n.operator = none → Route g n [n]
  | read {n m path} : n ∈ g.nodes → m.id ∈ n.sources → Route g m path → Route g n (n :: path)

open Network Network.Sample
open Decoder.Sample (elementary)
open scoped Decoder.Sample

/-- The bound of two branches that meet is that along the one that stretches more. -/
theorem exists_aggregate_diamond : diamond.Standing meeting ∧ diamond.Fed ∧ diamond.Bounded ∧
    metricKind "lipschitz" .none = .ok .lipschitz ∧
      diamond.aggregate "lipschitz" .none = .ok (.known 6) ∧
    ∃ price, diamond.PricedByPaths meeting "lipschitz" .lipschitz price ∧
      ∀ g', diamond.Agrees g' → g'.aggregate "lipschitz" .none = .ok price := by
  have := arithmetic_ofField elementary
  have := growing_ofField elementary
  have := commutative_ofField elementary
  exact ⟨standing_diamond, fed_diamond, bounded_diamond, rfl, by with_unfolding_all rfl,
    standing_diamond.exists_aggregate fed_diamond (fun _ => bounded_diamond) rfl⟩

/-- An input that reads from a node has no cost of what it reads. -/
theorem aggregate_relay : ∃ out path, relay.Standing out ∧ relay.Fed ∧
    (∀ n ∈ relay.nodes, 0 ≤ n.costOf "latency") ∧ metricKind "latency" .none = .ok .criticalPath ∧
    relay.Route out path ∧ costAlong "latency" path = 3 ∧
    relay.aggregate "latency" .none = .ok (.known 1) := by
  refine ⟨nodeWith 3 (timed "second" 1 none) [2], relay.nodes.reverse, standing_relay,
    fed_relay, by decide, rfl, ?_, by decide +kernel, by with_unfolding_all rfl⟩
  exact .read (by simp [relay]) (by decide) (.read (by simp [relay]) (by decide)
    (.read (by simp [relay]) (by decide) (.input (by simp [relay]) rfl)))

end OperatorNet
