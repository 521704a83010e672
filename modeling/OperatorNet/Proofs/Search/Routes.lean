import OperatorNet.Proofs.Search.Evolution

/-!
# Selections of routes

A selection is proper when it goes along the ancestors of an exit and chooses a candidate for each
of them. In an orderly supergraph the ranked selections are proper (`proper_of_mem_ranked`), and
other candidates and swaps keep them so (`Proper.replace`, `Proper.swap`). Proper selections that
equal each other are the same (`Proper.eq_of_key_eq`).
-/

namespace OperatorNet

variable {α : Type} [Scalar α]

/-- What a settled position takes by itself is a candidate. -/
lemma Position.Settled.exists_of_preferred {p : Position α} {T : α} {choice : Data Float}
    (settled : p.Settled) (prefers : p.preferred T = .ok choice) :
    ∃ op ∈ p.candidates, choice = .text op.name := by
  unfold preferred at prefers
  split at prefers
  next c _ chosen =>
    obtain rfl := Except.ok.inj prefers
    exact (settled c chosen).2
  next =>
    split at prefers
    next =>
      simp only [bind_eq_ok, pure_eq_ok] at prefers
      obtain ⟨op, first, rfl⟩ := prefers
      exact ⟨op, mem_candidates_of_firstFixed first, rfl⟩
    next =>
      simp only [map_eq_pure_bind, bind_eq_ok, pure_eq_ok, heaviest] at prefers
      obtain ⟨name, ⟨-, -, heaviest⟩, rfl⟩ := prefers
      split at heaviest
      next => exact absurd heaviest fail_ne_ok
      next =>
        split at heaviest
        next op there =>
          obtain rfl := Except.ok.inj heaviest
          exact ⟨op, (List.mem_filter.1 (List.mem_of_getElem? there)).1, rfl⟩
        next => exact absurd heaviest fail_ne_ok

namespace Supergraph

variable {s : Supergraph α} {T : α} {x y z : Selection}

omit [Scalar α] in
/-- A reference to an id gets the position that is found. -/
lemma positionAt_id {id : Int} {p : Position α} :
    s.positionAt (.id id) = .ok p ↔ s.find? id = some p := by
  constructor
  · intro there
    obtain ⟨n, same, found⟩ := Ref.exists_of_find there
    rw [Ref.id?_id, Option.some_inj] at same
    exact same ▸ found
  · exact Ref.find_id

/-- What is chosen for a position is one of its candidates. -/
def Offers (s : Supergraph α) (q : Ref × Data Float) : Prop :=
  ∃ p op, s.positionAt q.1 = .ok p ∧ op ∈ p.candidates ∧ q.2 = .text op.name

/-- A selection goes along the ancestors of an exit and chooses a candidate for each of them. -/
structure Proper (s : Supergraph α) (x : Selection) : Prop where
  places : ∃ e ∈ s.exits, ∃ ids, s.ancestors e = .ok ids ∧ x.exit = some (.id e) ∧
    x.ops.map Prod.fst = ids.map .id
  offered : ∀ q ∈ x.ops, s.Offers q

omit [Scalar α] in
/-- A proper selection chooses at ids. -/
lemma Proper.exists_id (proper : s.Proper x) {q : Ref × Data Float} (mem : q ∈ x.ops) :
    ∃ id, q.1 = .id id := by
  obtain ⟨e, -, ids, -, -, refs⟩ := proper.places
  have listed : q.1 ∈ ids.map Ref.id := refs ▸ List.mem_map_of_mem mem
  obtain ⟨id, -, same⟩ := List.mem_map.1 listed
  exact ⟨id, same.symm⟩

omit [Scalar α] in
/-- What a proper selection chooses is on offer. -/
lemma Proper.exists_of_get? (proper : s.Proper x) {id : Int} {choice : Data Float}
    (got : x.get? id = some choice) : s.Offers (.id id, choice) := by
  obtain ⟨q, mem, named, rfl⟩ := mem_of_get?_eq_some got
  obtain ⟨n, ref⟩ := proper.exists_id mem
  rw [ref, Ref.id?_id, Option.some_inj] at named
  subst named
  obtain ⟨p, op, there, candidate, chosen⟩ := proper.offered q mem
  exact ⟨p, op, ref ▸ there, candidate, chosen⟩

/-- The selection of a route is proper, if what it keeps is. -/
lemma proper_of_routeSelection (settled : ∀ p ∈ s.positions, p.Settled) {e : Int}
    {kept : Option Selection} (exit : e ∈ s.exits) (keeps : ∀ x, kept = some x → s.Proper x)
    (route : s.routeSelection T e kept = .ok y) : s.Proper y := by
  obtain ⟨ids, ancestors, target, chosen⟩ := routeSelection_eq_ok route
  refine ⟨⟨e, exit, ids, ancestors, target, map_fst_of_forall₂ ?_ chosen⟩, fun q hq => ?_⟩
  · rintro id q ⟨p, own, -, -, rfl⟩
    rfl
  · obtain ⟨id, -, p, own, there, prefers, rfl⟩ := exists_of_mem_forall₂ chosen hq
    cases taken : kept.bind (·.get? id) with
    | some choice =>
      obtain ⟨x, same, got⟩ := Option.bind_eq_some_iff.1 taken
      exact (keeps x same).exists_of_get? got
    | none =>
      obtain ⟨op, candidate, rfl⟩ :=
        (settled p (List.mem_of_find?_eq_some there)).exists_of_preferred prefers
      exact ⟨p, op, positionAt_id.2 there, candidate, rfl⟩

/-- Ranking gives the selections of the exits. -/
lemma exists_of_mem_ranked {ranked : List Selection}
    (list : s.rankedSelections T = .ok ranked) (mem : x ∈ ranked) :
    ∃ e ∈ s.exits, s.routeSelection T e none = .ok x := by
  simp only [rankedSelections, bind_eq_ok] at list
  obtain ⟨weights, -, selections, routes, weighed, each, list⟩ := list
  have sorted : ranked = (sortBy Ranked.before weighed).map (·.selection) := by
    split at list
    · obtain ⟨-, -, same⟩ := bind_eq_ok.1 list
      exact (Except.ok.inj same).symm
    · exact (Except.ok.inj list).symm
  rw [sorted] at mem
  obtain ⟨entry, listed, rfl⟩ := List.mem_map.1 mem
  obtain ⟨q, hq, made⟩ := exists_of_mem_forall₂ (mapM_eq_ok.1 each) (mem_sortBy.1 listed)
  simp only [bind_eq_ok, pure_eq_ok] at made
  obtain ⟨weight, -, cost, -, rfl⟩ := made
  have routed : q.1 ∈ selections := by
    obtain ⟨-, -, same⟩ := List.mem_zipIdx hq
    exact same ▸ List.getElem_mem _
  obtain ⟨e, exit, route⟩ := exists_of_mem_forall₂ (mapM_eq_ok.1 routes) routed
  exact ⟨e, exit, route⟩

/-- Ranked selections are proper. -/
lemma proper_of_mem_ranked (settled : ∀ p ∈ s.positions, p.Settled) {ranked : List Selection}
    (list : s.rankedSelections T = .ok ranked) (mem : x ∈ ranked) : s.Proper x := by
  obtain ⟨e, exit, route⟩ := exists_of_mem_ranked list mem
  exact proper_of_routeSelection settled exit (fun _ none => by cases none) route

omit [Scalar α] in
/-- Another candidate may be chosen for a position. -/
lemma Proper.replace (proper : s.Proper x) {r : Ref} {p : Position α} {op : Operator α}
    (there : s.positionAt r = .ok p) (candidate : op ∈ p.candidates) :
    s.Proper (x.replace r (.text op.name)) := by
  obtain ⟨e, exit, ids, ancestors, target, refs⟩ := proper.places
  refine ⟨⟨e, exit, ids, ancestors, target, ?_⟩, fun q hq => ?_⟩
  · rw [← refs, Selection.replace, List.map_map]
    rfl
  · obtain ⟨old, mem, rfl⟩ := List.mem_map.1 hq
    by_cases same : old.1.same r = true
    · -- the reference equals the same id, so it is the same position
      obtain ⟨n, named, found⟩ := Ref.exists_of_find there
      obtain ⟨id, ref⟩ := proper.exists_id mem
      have equal := Ref.id?_of_same same
      rw [ref, named, Ref.id?_id, Option.some_inj] at equal
      subst equal
      refine ⟨p, op, ?_, candidate, if_pos same⟩
      rw [ref]
      exact positionAt_id.2 found
    · obtain ⟨p', op', there', candidate', chosen⟩ := proper.offered old mem
      exact ⟨p', op', there', candidate', (if_neg same).trans chosen⟩

/-- Swaps lead from proper selections to proper ones. -/
lemma Proper.swap (settled : ∀ p ∈ s.positions, p.Settled) (proper : s.Proper x)
    (swap : s.Swap T x y) : s.Proper y := by
  cases swap with
  | operator _ there pool _ =>
    exact proper.replace there (Position.mem_candidates_of_mem_pool pool)
  | route exit _ route =>
    exact proper_of_routeSelection settled exit (fun _ same => Option.some.inj same ▸ proper) route

/-! ### Telling selections apart -/

omit [Scalar α] in
/-- A proper selection chooses names at ids. -/
lemma Proper.exists_of_mem (proper : s.Proper x) {q : Ref × Data Float} (mem : q ∈ x.ops) :
    ∃ id name, q = (.id id, .text name) := by
  obtain ⟨id, ref⟩ := proper.exists_id mem
  obtain ⟨p, op, -, -, chosen⟩ := proper.offered q mem
  exact ⟨id, op.name, Prod.ext ref chosen⟩

omit [Scalar α] in
/-- Proper selections with the same key are the same. -/
lemma Proper.eq_of_key_eq (hx : s.Proper x) (hy : s.Proper y) (same : x.key = y.key) : x = y := by
  obtain ⟨e, -, -, -, exit, -⟩ := hx.places
  obtain ⟨e', -, -, -, exit', -⟩ := hy.places
  obtain ⟨exits, ops⟩ := Prod.ext_iff.1 same
  have target : x.exit = y.exit := by
    dsimp only [Selection.key] at exits
    rw [exit, exit'] at exits ⊢
    cases exits
    rfl
  have chosen : x.ops = y.ops := by
    refine eq_of_map_eq ops fun q hq q' hq' keys => ?_
    obtain ⟨id, name, rfl⟩ := hx.exists_of_mem hq
    obtain ⟨id', name', rfl⟩ := hy.exists_of_mem hq'
    cases keys
    rfl
  exact congrArg₂ Selection.mk target chosen

end Supergraph

end OperatorNet
