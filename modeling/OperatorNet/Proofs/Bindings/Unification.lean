import OperatorNet.Proofs.Bindings.Difference
import OperatorNet.Proofs.Bindings.Solutions
import OperatorNet.Proofs.PortType.Agreement

/-!
# What unification does

A successful unification of two dimensions either finds them equal or lets one free symbol stand for
a dimension over other free symbols, and that equation says the same as the equality of the two
(`solve_cases`). So the new bindings are well formed and are satisfied by exactly those assignments
that satisfied the old ones and make the two sides equal. The same holds of types, axis by axis, and
of lists of slots.
-/

namespace OperatorNet.Bindings

variable {b b' : Bindings}

/-- The bindings in which one more symbol stands for something. -/
def solving (b : Bindings) (s : String) (e : Dim) : Bindings :=
  { b with solved := b.solved ++ [(s, e)] }

/-- One more equation is one more condition. -/
lemma satisfies_solving {σ : String → Nat} {s : String} {e : Dim} :
    (b.solving s e).Satisfies σ ↔ b.Satisfies σ ∧ σ s = e.eval σ := by
  simp only [Satisfies, solving, List.mem_append, List.mem_singleton]
  constructor
  · intro all
    exact ⟨fun p hp => all p (.inl hp), all (s, e) (.inr rfl)⟩
  · rintro ⟨old, new⟩ p (hp | rfl)
    · exact old p hp
    · exact new

/-- Bindings stay well formed when a free symbol is solved by others that are free. -/
lemma WellFormed.solving (wf : b.WellFormed) {s : String} {e : Dim} (free : b.Free s)
    (covers : ∀ t ∈ e.symbols, b.Free t) (proper : s ∉ e.symbols) : (b.solving s e).WellFormed := by
  constructor
  · rw [Bindings.solving, List.pairwise_append]
    refine ⟨wf.apart, List.pairwise_singleton _ _, fun p hp q hq => ?_⟩
    rw [List.mem_singleton] at hq
    subst hq
    have solved : p.1 ∈ b.solvedSymbols := List.mem_map_of_mem hp
    refine ⟨?_, fun occurs => covers _ occurs solved⟩
    rintro (rfl : p.1 = s)
    exact free solved
  · intro p hp
    rcases List.mem_append.1 hp with old | new
    · exact wf.proper p old
    · rw [List.mem_singleton] at new
      subst new
      exact proper

/-- Letting a symbol stand for a dimension succeeds when the dimension does not mention it. -/
lemma assign_eq_some_iff {s : String} {e : Dim} :
    b.assign s e = some b' ↔ s ∉ e.symbols ∧ b' = b.solving s e := by
  unfold assign
  split
  · simp_all
  · simp_all [solving, eq_comm]

/-- One equation that says the same as the equality of two dimensions, for a symbol of theirs. -/
structure Solves (x y : Dim) (s : String) (e : Dim) : Prop where
  mentioned : s ∈ x.symbols ∨ s ∈ y.symbols
  covers : ∀ t ∈ e.symbols, t ∈ x.symbols ∨ t ∈ y.symbols
  proper : s ∉ e.symbols
  iff : ∀ σ, x.eval σ = y.eval σ ↔ σ s = e.eval σ

/-- An equation is solved for one of the symbols that it has on one side only. -/
lemma solveOne_eq_some {x y : Dim} (solved : b.solveOne x y = some b') :
    ∃ s e, Solves x y s e ∧ b' = b.solving s e := by
  unfold solveOne at solved
  split at solved
  next s n single =>
    simp only at solved
    split at solved
    next whole =>
      obtain ⟨divides, nonneg⟩ := whole
      obtain ⟨proper, rfl⟩ := assign_eq_some_iff.1 solved
      obtain ⟨ne, here, elsewhere⟩ := Dim.difference_eq_singleton_iff.1 single
      refine ⟨s, _, ⟨?_, by simp, proper, fun σ => ?_⟩, rfl⟩
      · rw [Dim.mem_symbols_iff, Dim.mem_symbols_iff]
        omega
      · have weight := Dim.weigh_difference σ x y
        rw [single] at weight
        simp only [weigh, Int.add_zero] at weight
        obtain ⟨q, gap⟩ := divides
        rw [gap, Int.mul_ediv_cancel_left q ne] at nonneg ⊢
        rw [Dim.eval_ofNat]
        -- The equation is `n * σ s = n * q` on both sides.
        have cancel : n * (σ s : Int) = n * q ↔ (σ s : Int) = q := Int.mul_eq_mul_left_iff ne
        have sides : x.eval σ = y.eval σ ↔ n * (σ s : Int) = n * q := by
          rw [← gap, weight, Dim.eval, Dim.eval]
          omega
        rw [sides, cancel]
        omega
    next => cases solved
  next => cases solved

/-- What a successful solution of an equation does: nothing, or one more symbol stands for
something. -/
lemma solve_cases {x y : Dim} (solved : b.solve x y = some b') :
    (x = y ∧ b' = b) ∨ ∃ s e, Solves x y s e ∧ b' = b.solving s e := by
  unfold solve at solved
  split at solved
  next same =>
    cases solved
    exact .inl ⟨same, rfl⟩
  next differ =>
    split at solved
    next => cases solved
    next =>
      split at solved
      next s left =>
        obtain rfl := Dim.symbol?_eq_some_iff.1 left
        obtain ⟨proper, rfl⟩ := assign_eq_some_iff.1 solved
        exact .inr ⟨s, y, ⟨by simp, fun t ht => .inr ht, proper, by simp⟩, rfl⟩
      next s _ right =>
        obtain rfl := Dim.symbol?_eq_some_iff.1 right
        obtain ⟨proper, rfl⟩ := assign_eq_some_iff.1 solved
        exact .inr ⟨s, x, ⟨by simp, fun t ht => .inl ht, proper, by simp [eq_comm]⟩, rfl⟩
      next => exact .inr (solveOne_eq_some solved)

/-- New bindings come from old ones and an added condition. -/
structure Refines (b b' : Bindings) (condition : (String → Nat) → Prop) : Prop where
  wellFormed : b'.WellFormed
  satisfies_iff : ∀ σ, b'.Satisfies σ ↔ b.Satisfies σ ∧ condition σ

/-- Conditions may be stated in other words. -/
lemma Refines.congr {C D : (String → Nat) → Prop} (refines : Refines b b' C)
    (same : ∀ σ, C σ ↔ D σ) : Refines b b' D :=
  ⟨refines.wellFormed, fun σ => by rw [refines.satisfies_iff, same]⟩

/-- Conditions added one after the other are added together. -/
lemma Refines.trans {b'' : Bindings} {C D : (String → Nat) → Prop} (first : Refines b b' C)
    (second : Refines b' b'' D) : Refines b b'' fun σ => C σ ∧ D σ :=
  ⟨second.wellFormed, fun σ => by rw [second.satisfies_iff, first.satisfies_iff, and_assoc]⟩

/-- Unifying two dimensions says that they are equal, and nothing else. -/
lemma Refines.of_unifyDim (wf : b.WellFormed) {x y : Dim} (unified : b.unifyDim x y = some b') :
    Refines b b' fun σ => x.eval σ = y.eval σ := by
  have met : (b.meetBoth x y).WellFormed := ⟨wf.apart, wf.proper⟩
  have freeOf : ∀ d t, t ∈ (b.resolve d).symbols → b.Free t := fun _ _ => wf.free_of_mem_resolve
  rcases solve_cases unified with ⟨same, rfl⟩ | ⟨s, e, solves, rfl⟩
  · refine ⟨met, fun σ => ⟨fun satisfied => ⟨satisfied, ?_⟩, And.left⟩⟩
    exact wf.resolve_eq_iff.1 same σ satisfied
  · have free : ∀ t, t ∈ (b.resolve x).symbols ∨ t ∈ (b.resolve y).symbols → b.Free t :=
      fun t occurs => occurs.elim (freeOf x t) (freeOf y t)
    refine ⟨met.solving (free s solves.mentioned) (fun t ht => free t (solves.covers t ht))
      solves.proper, fun σ => ?_⟩
    rw [satisfies_solving, ← solves.iff σ]
    change b.Satisfies σ ∧ _ ↔ _
    refine and_congr_right fun satisfied => ?_
    rw [eval_resolve satisfied, eval_resolve satisfied]

/-- Unifying axes adds the condition that they are equal one by one. -/
lemma Refines.of_unifyAxes (wf : b.WellFormed) {place : Nat} {axes : List (Dim × Dim)}
    (unified : b.unifyAxes place axes = .ok b') :
    Refines b b' fun σ => ∀ p ∈ axes, p.1.eval σ = p.2.eval σ := by
  induction axes generalizing b place with
  | nil =>
    cases unified
    exact ⟨wf, by simp⟩
  | cons p rest ih =>
    rw [unifyAxes] at unified
    split at unified
    next b₁ first =>
      have head := Refines.of_unifyDim wf first
      exact (head.trans (ih head.wellFormed unified)).congr fun σ => by simp
    next => cases unified

/-- Two shapes of one rank have the same sizes when they agree axis by axis. -/
lemma map_eval_eq_iff {σ : String → Nat} {xs ys : List Dim} (length : xs.length = ys.length) :
    xs.map (Dim.eval σ) = ys.map (Dim.eval σ) ↔ ∀ p ∈ xs.zip ys, p.1.eval σ = p.2.eval σ := by
  induction xs generalizing ys with
  | nil => simp_all [eq_comm]
  | cons x xs ih =>
    cases ys with
    | nil => cases length
    | cons y ys =>
      simp only [List.length_cons, Nat.add_right_cancel_iff] at length
      simp [ih length]

/-- Unifying two types says that they agree, and nothing else. -/
lemma Refines.of_unify (wf : b.WellFormed) {t c : PortType} (unified : b.unify t c = .ok b') :
    Refines b b' fun σ => PortType.Agree σ t c := by
  unfold unify at unified
  split at unified
  next => cases unified
  next kind =>
    split at unified
    next => cases unified
    next metric =>
      split at unified
      next => cases unified
      next group =>
        split at unified
        next => cases unified
        next rank =>
          rw [not_not] at kind metric group rank
          refine (Refines.of_unifyAxes wf unified).congr fun σ => ?_
          rw [← map_eval_eq_iff rank]
          exact ⟨fun values => ⟨kind, metric, group, values⟩, PortType.Agree.values⟩

/-- Types are unified when they are alike apart from their axes, and all axes are. -/
lemma unify?_eq (b : Bindings) (t c : PortType) :
    b.unify? t c =
      if t.kind = c.kind ∧ t.metric = c.metric ∧ t.group = c.group ∧
          t.shape.length = c.shape.length then
        (b.unifyAxes 0 (t.shape.zip c.shape)).toOption
      else none := by
  unfold unify? unify
  by_cases kind : t.kind = c.kind
  · by_cases metric : t.metric = c.metric
    · by_cases group : t.group = c.group
      · by_cases rank : t.shape.length = c.shape.length
        · simp [kind, metric, group, rank]
        · simp [kind, metric, group, rank, Except.toOption]
      · simp [kind, metric, group, Except.toOption]
    · simp [kind, metric, Except.toOption]
  · simp [kind, Except.toOption]

/-- Types are unified with a result when no mismatch is found. -/
lemma unify?_eq_some_iff {t c : PortType} : b.unify? t c = some b' ↔ b.unify t c = .ok b' := by
  unfold unify?
  cases b.unify t c <;> simp [Except.toOption]

/-- Types are not unified when a mismatch is found. -/
lemma unify?_eq_none_iff {t c : PortType} : b.unify? t c = none ↔ ∃ m, b.unify t c = .error m := by
  unfold unify?
  cases b.unify t c <;> simp [Except.toOption]

/-- Without slots there is nothing to unify. -/
@[simp] lemma unifySlots?_nil (b : Bindings) : b.unifySlots? [] = some b :=
  rfl

/-- Slots are unified one after the other. -/
lemma unifySlots?_cons (b : Bindings) (p : PortType × PortType)
    (rest : List (PortType × PortType)) :
    b.unifySlots? (p :: rest) = (b.unify? p.1 p.2).bind (·.unifySlots? rest) := by
  unfold unifySlots? unifySlots unify?
  rw [List.foldlM_cons]
  cases b.unify p.1 p.2 <;> rfl

/-- Slots are unified one part after the other. -/
lemma unifySlots?_append (b : Bindings) (l m : List (PortType × PortType)) :
    b.unifySlots? (l ++ m) = (b.unifySlots? l).bind (·.unifySlots? m) := by
  induction l generalizing b with
  | nil => rfl
  | cons p rest ih =>
    rw [List.cons_append, unifySlots?_cons, unifySlots?_cons, Option.bind_assoc]
    exact congrArg _ (funext ih)

/-- Making every candidate fit its template adds the condition that they all agree. -/
lemma Refines.of_unifySlots (wf : b.WellFormed) {slots : List (PortType × PortType)}
    (unified : b.unifySlots slots = .ok b') :
    Refines b b' fun σ => ∀ p ∈ slots, PortType.Agree σ p.1 p.2 := by
  induction slots generalizing b with
  | nil =>
    cases unified
    exact ⟨wf, by simp⟩
  | cons p rest ih =>
    rw [unifySlots, List.foldlM_cons] at unified
    cases first : b.unify p.1 p.2 with
    | error m =>
      rw [first] at unified
      cases unified
    | ok b₁ =>
      rw [first] at unified
      have head := Refines.of_unify wf first
      exact (head.trans (ih head.wellFormed unified)).congr fun σ => by simp

/-- `of_unifySlots` when the reason of a failure does not matter. -/
lemma Refines.of_unifySlots? (wf : b.WellFormed) {slots : List (PortType × PortType)}
    (unified : b.unifySlots? slots = some b') :
    Refines b b' fun σ => ∀ p ∈ slots, PortType.Agree σ p.1 p.2 := by
  refine Refines.of_unifySlots wf ?_
  unfold unifySlots? at unified
  cases attempt : b.unifySlots slots with
  | error m => rw [attempt] at unified; cases unified
  | ok b₁ => rw [attempt] at unified; cases unified; rfl

/-- Two types resolve alike exactly when they agree under every assignment that satisfies the
bindings. -/
lemma WellFormed.resolveType_eq_iff (wf : b.WellFormed) {t c : PortType} :
    b.resolveType t = b.resolveType c ↔ ∀ σ, b.Satisfies σ → PortType.Agree σ t c := by
  constructor
  · intro same σ satisfied
    obtain ⟨kind, shape, metric, group⟩ := PortType.mk.injEq .. ▸ same
    refine ⟨kind, metric, group, ?_⟩
    have values : ∀ d : List Dim, (d.map b.resolve).map (Dim.eval σ) = d.map (Dim.eval σ) := by
      intro d
      rw [List.map_map]
      exact List.map_congr_left fun x _ => eval_resolve satisfied x
    rw [← values, shape, values]
  · intro agree
    obtain ⟨σ₀, satisfied⟩ := wf.satisfiable
    obtain ⟨kind, metric, group, values⟩ := agree σ₀ satisfied
    have length : t.shape.length = c.shape.length := by
      simpa using congrArg List.length values
    have shape : t.shape.map b.resolve = c.shape.map b.resolve := by
      refine List.ext_getElem (by simpa using length) fun i hi hi' => ?_
      rw [List.getElem_map, List.getElem_map]
      rw [List.length_map] at hi hi'
      refine wf.resolve_eq_iff.2 fun σ satisfied => ?_
      refine (map_eval_eq_iff length).1 (agree σ satisfied).values (t.shape[i], c.shape[i]) ?_
      exact List.mem_iff_getElem.2 ⟨i, by simpa using ⟨hi, hi'⟩, List.getElem_zip⟩
    simp only [resolveType, PortType.mapDims, kind, metric, group, shape]

end OperatorNet.Bindings
