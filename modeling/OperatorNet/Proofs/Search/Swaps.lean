import Mathlib.Data.List.Perm.Subperm
import OperatorNet.Proofs.Search.Ancestors
import OperatorNet.Search.Selection

/-!
# Swaps

`Supergraph.Swap` says which selections are next to one another, and `swap_of_mem` and `mem_of_swap`
that the neighbours of a selection are the selections next to it. Swaps do not lead far: all that
can be reached from a selection is spanned by it (`Spanned.swap`), and what is spanned by a
selection is counted by its bound (`length_le_selectionBound`).
-/

namespace OperatorNet

variable {α : Type} [Scalar α]

/-- The operators that a swap may put in a position. -/
def Position.pool (p : Position α) : List (Operator α) :=
  if p.isFrozen then p.fixed else p.mixing

omit [Scalar α] in
/-- What a position may swap in is a candidate. -/
lemma Position.mem_candidates_of_mem_pool {p : Position α} {op : Operator α} (mem : op ∈ p.pool) :
    op ∈ p.candidates := by
  unfold pool at mem
  split at mem <;> exact (List.mem_filter.1 mem).1

namespace Supergraph

variable {s : Supergraph α} {T : α} {x y z start : Selection}

/-- One selection is next to another one: one operator is replaced by another one that may take its
position, or another exit is taken, where positions that had an operator keep it. -/
inductive Swap (s : Supergraph α) (T : α) (x : Selection) : Selection → Prop
  | operator {choice p op} : choice ∈ x.ops → s.positionAt choice.1 = .ok p → op ∈ p.pool →
      choice.2.text? ≠ some op.name → Swap s T x (x.replace choice.1 (.text op.name))
  | route {e y} : e ∈ s.exits → x.exit.bind Ref.id? ≠ some e →
      s.routeSelection T e (some x) = .ok y → Swap s T x y

omit [Scalar α] in
/-- The swaps at a position put in each other candidate of its pool. -/
lemma swapsAt_eq_ok {choice : Ref × Data Float} {group : List (Selection × Data Float)} :
    s.swapsAt x choice = .ok group ↔ ∃ p, s.positionAt choice.1 = .ok p ∧
      group = (p.pool.filter fun op => choice.2.text? ≠ some op.name).map fun op =>
        (x.replace choice.1 (.text op.name), .text op.name) := by
  simp only [swapsAt, bind_eq_ok, pure_eq_ok]
  exact exists_congr fun p => and_congr_right fun _ => eq_comm

/-- A reroute selects the best route to another exit. -/
lemma rerouted_eq_ok {e : Int} {group : List (Selection × Data Float)} :
    s.rerouted T x e = .ok group ↔ ∃ y name, s.routeSelection T e (some x) = .ok y ∧
      y.get (.id e) = .ok name ∧ group = [(y, name)] := by
  simp only [rerouted, bind_eq_ok, pure_eq_ok]
  constructor
  · rintro ⟨y, route, name, got, rfl⟩
    exact ⟨y, name, route, got, rfl⟩
  · rintro ⟨y, name, route, got, rfl⟩
    exact ⟨y, route, name, got, rfl⟩

/-- What is listed is a swap. -/
lemma swap_of_mem {group : List (Selection × Data Float)} {name : Data Float}
    (listed : .ok group ∈ s.neighbourGroups T x) (mem : (y, name) ∈ group) : s.Swap T x y := by
  rcases List.mem_append.1 listed with atPosition | atExit
  · obtain ⟨choice, hc, same⟩ := List.mem_map.1 atPosition
    obtain ⟨p, there, rfl⟩ := swapsAt_eq_ok.1 same
    obtain ⟨op, hop, eq⟩ := List.mem_map.1 mem
    cases eq
    obtain ⟨pool, other⟩ := List.mem_filter.1 hop
    exact .operator hc there pool (of_decide_eq_true other)
  · obtain ⟨e, he, same⟩ := List.mem_map.1 atExit
    obtain ⟨y', name', route, -, rfl⟩ := rerouted_eq_ok.1 same
    cases List.mem_singleton.1 mem
    obtain ⟨exit, other⟩ := List.mem_filter.1 he
    exact .route exit (of_decide_eq_true other) route

/-- A swap is listed. -/
lemma mem_of_swap (swap : s.Swap T x y) : ∃ listed ∈ s.neighbourGroups T x,
    ∀ group, listed = .ok group → ∃ name, (y, name) ∈ group := by
  cases swap with
  | @operator choice p op hc there pool other =>
    refine ⟨s.swapsAt x choice, List.mem_append_left _ (List.mem_map_of_mem hc), ?_⟩
    intro group same
    obtain ⟨p', there', rfl⟩ := swapsAt_eq_ok.1 same
    obtain rfl := Except.ok.inj (there.symm.trans there')
    exact ⟨.text op.name,
      List.mem_map_of_mem (List.mem_filter.2 ⟨pool, decide_eq_true other⟩)⟩
  | @route e _ exit other route =>
    refine ⟨s.rerouted T x e, List.mem_append_right _ (List.mem_map_of_mem
      (List.mem_filter.2 ⟨exit, decide_eq_true other⟩)), ?_⟩
    intro group same
    obtain ⟨y', name, route', -, rfl⟩ := rerouted_eq_ok.1 same
    obtain rfl := Except.ok.inj (route.symm.trans route')
    exact ⟨name, List.mem_singleton.2 rfl⟩

/-- Listing the neighbours lists all groups of them. -/
lemma neighbours_eq_ok {l : List (Selection × Data Float)} : s.neighbours T x = .ok l ↔
    ∃ groups : List (List (Selection × Data Float)),
      s.neighbourGroups T x = groups.map .ok ∧ l = groups.flatten := by
  simp only [neighbours, map_eq_pure_bind, bind_eq_ok, pure_eq_ok, mapM_eq_ok, id_eq]
  constructor
  · rintro ⟨groups, listed, rfl⟩
    refine ⟨groups, ?_, rfl⟩
    rw [← List.forall₂_eq_eq_eq, List.forall₂_map_right_iff]
    exact listed
  · rintro ⟨groups, listed, rfl⟩
    refine ⟨groups, ?_, rfl⟩
    rw [← List.forall₂_eq_eq_eq, List.forall₂_map_right_iff] at listed
    exact listed

/-- Each neighbour is a swap. -/
lemma swap_of_mem_neighbours {l : List (Selection × Data Float)} {next : Selection × Data Float}
    (listed : s.neighbours T x = .ok l) (mem : next ∈ l) : s.Swap T x next.1 := by
  obtain ⟨groups, all, rfl⟩ := neighbours_eq_ok.1 listed
  obtain ⟨group, there, inside⟩ := List.mem_flatten.1 mem
  exact swap_of_mem (all ▸ List.mem_map_of_mem there) inside

/-- Each swap is a neighbour. -/
lemma exists_of_swap {l : List (Selection × Data Float)} (listed : s.neighbours T x = .ok l)
    (swap : s.Swap T x y) : ∃ name, (y, name) ∈ l := by
  obtain ⟨groups, all, rfl⟩ := neighbours_eq_ok.1 listed
  obtain ⟨_, mem, inside⟩ := mem_of_swap swap
  rw [all] at mem
  obtain ⟨group, there, rfl⟩ := List.mem_map.1 mem
  obtain ⟨name, member⟩ := inside group rfl
  exact ⟨name, List.mem_flatten.2 ⟨group, there, member⟩⟩

/-! ### What swaps lead to -/

/-- What swaps may choose when they begin with a selection. -/
def options (s : Supergraph α) (T : α) (start : Selection) : List (Data Float) :=
  start.ops.map Prod.snd ++ s.positions.filterMap (fun p => (p.preferred T).toOption)
    ++ s.positions.flatMap fun p => p.candidates.map fun op => .text op.name

/-- A selection at the positions of a given one or of an exit, among the options. -/
structure Spanned (s : Supergraph α) (T : α) (start y : Selection) : Prop where
  places : y.exit = start.exit ∧ y.ops.map Prod.fst = start.ops.map Prod.fst ∨
    ∃ e ∈ s.exits, ∃ ids, s.ancestors e = .ok ids ∧ y.exit = some (.id e) ∧
      y.ops.map Prod.fst = ids.map .id
  choices : ∀ q ∈ y.ops, q.2 ∈ s.options T start

/-- A selection is spanned from itself. -/
lemma Spanned.refl : s.Spanned T start start where
  places := .inl ⟨rfl, rfl⟩
  choices _ mem := List.mem_append_left _ (List.mem_append_left _ (List.mem_map_of_mem mem))

omit [Scalar α] in
/-- A position that is got is one of the network. -/
lemma mem_positions_of_positionAt {r : Ref} {p : Position α} (there : s.positionAt r = .ok p) :
    p ∈ s.positions := by
  obtain ⟨n, -, found⟩ := Ref.exists_of_find there
  exact List.mem_of_find?_eq_some found

omit [Scalar α] in
/-- A position is got when it is found. -/
lemma position_eq_ok {id : Int} {p : Position α} :
    s.position id = .ok p ↔ s.find? id = some p := by
  rw [position]
  cases s.find? id with
  | none => exact ⟨fun h => absurd h fail_ne_ok, nofun⟩
  | some q => exact ⟨fun h => congrArg some (Except.ok.inj h), fun h => congrArg Except.ok
      (Option.some.inj h)⟩

/-- What is selected for a route: at every position on the way what is kept, or else what the
position takes by itself. -/
lemma routeSelection_eq_ok {e : Int} {kept : Option Selection}
    (route : s.routeSelection T e kept = .ok y) : ∃ ids, s.ancestors e = .ok ids ∧
      y.exit = some (.id e) ∧ List.Forall₂ (fun id q => ∃ p own, s.find? id = some p ∧
        p.preferred T = .ok own ∧ q = (.id id, (kept.bind (·.get? id)).getD own)) ids y.ops := by
  simp only [routeSelection, bind_eq_ok, pure_eq_ok, mapM_eq_ok] at route
  obtain ⟨ids, ancestors, ops, chosen, rfl⟩ := route
  refine ⟨ids, ancestors, rfl, chosen.imp fun id q each => ?_⟩
  obtain ⟨p, there, own, prefers, rfl⟩ := each
  exact ⟨p, own, position_eq_ok.1 there, prefers, rfl⟩

omit [Scalar α] in
/-- Positions on the way, with anything selected for them. -/
lemma map_fst_of_forall₂ {ids : List Int} {ops : List (Ref × Data Float)}
    {P : Int → Ref × Data Float → Prop} (each : ∀ id q, P id q → q.1 = .id id)
    (chosen : List.Forall₂ P ids ops) : ops.map Prod.fst = ids.map .id := by
  induction chosen with
  | nil => rfl
  | cons first _ ih => rw [List.map_cons, List.map_cons, each _ _ first, ih]

omit [Scalar α] in
/-- What is got from a selection is chosen there. -/
lemma mem_of_get?_eq_some {id : Int} {choice : Data Float} (got : x.get? id = some choice) :
    ∃ q ∈ x.ops, q.1.id? = some id ∧ q.2 = choice := by
  obtain ⟨q, found, same⟩ := Option.map_eq_some_iff.1 got
  have named := List.find?_some found
  exact ⟨q, List.mem_reverse.1 (List.mem_of_find?_eq_some found), of_decide_eq_true named, same⟩

/-- Swaps stay among what is spanned by the selection that they began with. -/
lemma Spanned.swap (spanned : s.Spanned T start y) (swap : s.Swap T y z) :
    s.Spanned T start z := by
  cases swap with
  | @operator choice p op _ there pool _ =>
    have candidate : (.text op.name : Data Float) ∈ s.options T start :=
      List.mem_append_right _ (List.mem_flatMap.2 ⟨p, mem_positions_of_positionAt there,
        List.mem_map_of_mem (Position.mem_candidates_of_mem_pool pool)⟩)
    have refs : (y.replace choice.1 (.text op.name)).ops.map Prod.fst = y.ops.map Prod.fst := by
      rw [Selection.replace, List.map_map]
      rfl
    constructor
    · rw [refs]
      exact spanned.places
    · intro q hq
      obtain ⟨old, mem, rfl⟩ := List.mem_map.1 hq
      dsimp only
      split
      · exact candidate
      · exact spanned.choices old mem
  | @route e _ exit _ route =>
    obtain ⟨ids, ancestors, target, chosen⟩ := routeSelection_eq_ok route
    constructor
    · refine .inr ⟨e, exit, ids, ancestors, target, map_fst_of_forall₂ ?_ chosen⟩
      rintro id q ⟨p, own, -, -, rfl⟩
      rfl
    · intro q hq
      obtain ⟨id, -, p, own, there, prefers, rfl⟩ := exists_of_mem_forall₂ chosen hq
      cases kept : y.get? id with
      | some choice =>
        obtain ⟨old, mem, -, rfl⟩ := mem_of_get?_eq_some kept
        simpa only [Option.bind_some, kept, Option.getD_some] using spanned.choices old mem
      | none =>
        simp only [Option.bind_some, kept, Option.getD_none]
        refine List.mem_append_left _ (List.mem_append_right _ (List.mem_filterMap.2
          ⟨p, List.mem_of_find?_eq_some there, ?_⟩))
        rw [prefers]
        rfl

/-! ### Counting -/

/-- All ways to choose an option for each of some references. -/
def fillings (options : List (Data Float)) : List Ref → List (List (Ref × Data Float))
  | [] => [[]]
  | r :: rest => options.flatMap fun d => (fillings options rest).map ((r, d) :: ·)

omit [Scalar α] in
/-- There are as many fillings as choices at each place. -/
lemma length_fillings (options : List (Data Float)) (rs : List Ref) :
    (fillings options rs).length = options.length.pow rs.length := by
  induction rs with
  | nil => rfl
  | cons r rest ih =>
    simp only [fillings, List.length_flatMap, List.length_map, ih, List.map_const',
      List.sum_replicate_nat, List.length_cons]
    exact Nat.mul_comm ..

omit [Scalar α] in
/-- A row of choices is one of the fillings. -/
lemma mem_fillings {options : List (Data Float)} {rs : List Ref} {ops : List (Ref × Data Float)}
    (refs : ops.map Prod.fst = rs) (chosen : ∀ q ∈ ops, q.2 ∈ options) :
    ops ∈ fillings options rs := by
  induction ops generalizing rs with
  | nil =>
    subst refs
    exact List.mem_singleton.2 rfl
  | cons q rest ih =>
    subst refs
    rw [List.forall_mem_cons] at chosen
    exact List.mem_flatMap.2 ⟨q.2, chosen.1, List.mem_map_of_mem (ih rfl chosen.2)⟩

/-- All selections that are spanned by a given one. -/
def span (s : Supergraph α) (T : α) (start : Selection) : List Selection :=
  let options := s.options T start
  s.exits.foldr (fun e all =>
    match s.ancestors e with
    | .ok ids => (fillings options (ids.map .id)).map (⟨some (.id e), ·⟩) ++ all
    | .error _ => all) ((fillings options (start.ops.map Prod.fst)).map (⟨start.exit, ·⟩))

/-- What is spanned is in the span. -/
lemma Spanned.mem_span (spanned : s.Spanned T start y) : y ∈ s.span T start := by
  unfold span
  rcases spanned.places with ⟨exit, refs⟩ | ⟨e, he, ids, ancestors, exit, refs⟩
  · generalize s.exits = exits
    induction exits with
    | nil =>
      refine List.mem_map.2 ⟨y.ops, mem_fillings refs spanned.choices, ?_⟩
      rw [← exit]
    | cons e rest ih =>
      rw [List.foldr_cons]
      split
      · exact List.mem_append_right _ ih
      · exact ih
  · generalize s.exits = exits at he
    induction exits with
    | nil => cases he
    | cons e' rest ih =>
      rw [List.foldr_cons]
      rcases List.mem_cons.1 he with rfl | later
      · rw [ancestors]
        refine List.mem_append_left _ (List.mem_map.2
          ⟨y.ops, mem_fillings refs spanned.choices, ?_⟩)
        rw [← exit]
      · split
        · exact List.mem_append_right _ (ih later)
        · exact ih later

omit [Scalar α] in
/-- The candidates of all positions, counted. -/
lemma length_flatMap_candidates (positions : List (Position α)) :
    (positions.flatMap fun p => p.candidates.map fun op => (.text op.name : Data Float)).length =
      positions.foldr (fun p n => p.candidates.length + n) 0 := by
  induction positions with
  | nil => rfl
  | cons p rest ih =>
    rw [List.flatMap_cons, List.length_append, List.length_map, ih, List.foldr_cons]

/-- There are at most as many options as choices, positions and candidates. -/
lemma length_options_le : (s.options T start).length ≤
    start.ops.length + s.positions.length + s.candidateCount := by
  have alone := List.length_filterMap_le (fun p => (Position.preferred p T).toOption) s.positions
  rw [options, List.length_append, List.length_append, length_flatMap_candidates, List.length_map,
    candidateCount]
  omega

/-- The span is not longer than the bound. -/
lemma length_span_le : (s.span T start).length ≤ s.selectionBound start := by
  have few : (s.options T start).length ≤ _ := length_options_le
  have fills : ∀ rs, (fillings (s.options T start) rs).length ≤
      (start.ops.length + s.positions.length + s.candidateCount).pow rs.length := fun rs => by
    rw [length_fillings]
    exact Nat.pow_le_pow_left few _
  unfold span selectionBound
  induction s.exits with
  | nil => simpa using fills (start.ops.map Prod.fst)
  | cons e rest ih =>
    rw [List.foldr_cons, List.foldr_cons]
    cases s.ancestors e with
    | error f => exact ih
    | ok ids =>
      have more := fills (ids.map .id)
      simp only [List.length_append, List.length_map] at more ⊢
      exact Nat.add_le_add more ih

/-- Different selections that are spanned are no more than the bound. -/
lemma length_le_selectionBound {visited : List Selection} (distinct : visited.Nodup)
    (all : ∀ y ∈ visited, s.Spanned T start y) : visited.length ≤ s.selectionBound start := by
  have inside : visited ⊆ s.span T start := fun y hy => (all y hy).mem_span
  exact Nat.le_trans (distinct.subperm inside).length_le length_span_le

end Supergraph

end OperatorNet
