import OperatorNet.Proofs.Bindings.Unification

/-!
# Equations that one symbol solves

An equation between resolved dimensions is accepted exactly when it can be solved for one symbol
(`isSome_solve_iff`). Nothing of this depends on the bindings, and it does not depend on the names
of symbols either (`solvable_rename_iff`).
-/

namespace OperatorNet

/-- A renaming that another one undoes is undone in a dimension too. -/
lemma Dim.rename_rename_of_leftInverse {π π' : String → String} {d : Dim}
    (inverse : ∀ s ∈ d.symbols, π' (π s) = s) : (d.rename π).rename π' = d := by
  apply Dim.eval_ext
  intro σ
  rw [Dim.eval_rename, Dim.eval_rename]
  exact Dim.eval_congr fun s hs => by rw [inverse s hs]

/-- A symbol is renamed to the symbol of its new name. -/
@[simp] lemma Dim.rename_symbol (π : String → String) (s : String) :
    (symbol s).rename π = symbol (π s) := by
  rw [rename, symbol_substitute]

/-- Renaming leaves the number in a dimension as it is. -/
@[simp] lemma Dim.const_rename (π : String → String) (d : Dim) : (d.rename π).const = d.const := by
  rw [← Dim.eval_zero, ← Dim.eval_zero, Dim.eval_rename]

namespace Bindings

/-- Two dimensions can be made equal by solving one symbol: they are equal, or one is a symbol that
the other does not mention, or the multiplicities of one symbol alone differ and it comes out as a
natural number. -/
inductive Solvable (x y : Dim) : Prop where
  | same : x = y → Solvable x y
  | left {s} : x = .symbol s → s ∉ y.symbols → Solvable x y
  | right {s} : y = .symbol s → s ∉ x.symbols → Solvable x y
  | single {s n} : (∀ t, x ≠ .symbol t) → (∀ t, y ≠ .symbol t) → x.difference y = [(s, n)] →
    n ∣ (y.const : Int) - x.const → 0 ≤ ((y.const : Int) - x.const) / n → Solvable x y

/-- A single differing symbol is solved for where it comes out as a natural number. -/
lemma isSome_solveOne_iff {b : Bindings} {x y : Dim} :
    (b.solveOne x y).isSome ↔ ∃ s n, x.difference y = [(s, n)] ∧
      n ∣ (y.const : Int) - x.const ∧ 0 ≤ ((y.const : Int) - x.const) / n := by
  unfold solveOne
  split
  next s n single =>
    rw [single]
    simp only [assign, Dim.symbols_ofNat, List.not_mem_nil, if_false]
    constructor
    · intro solved
      split at solved
      next whole => exact ⟨s, n, rfl, whole⟩
      next => cases solved
    · rintro ⟨s', n', eq, whole⟩
      cases eq
      rw [if_pos whole]
      rfl
  next other =>
    refine ⟨nofun, ?_⟩
    rintro ⟨s, n, single, -⟩
    exact absurd single (other s n)

/-- Letting a symbol stand for a dimension succeeds when the dimension does not mention it. -/
lemma isSome_assign_iff {b : Bindings} {s : String} {e : Dim} :
    (b.assign s e).isSome ↔ s ∉ e.symbols := by
  simp only [Option.isSome_iff_exists, assign_eq_some_iff, exists_and_left, exists_eq, and_true]

/-- Different numbers cannot be made equal. -/
lemma not_solvable_of_isConcrete {x y : Dim} (ne : x ≠ y) (left : x.isConcrete)
    (right : y.isConcrete) : ¬ Solvable x y := by
  rw [Dim.isConcrete_iff] at left right
  intro solvable
  cases solvable with
  | same eq => exact ne eq
  | left eq _ => rw [eq] at left; cases left
  | right eq _ => rw [eq] at right; cases right
  | single _ _ single _ _ =>
    obtain ⟨nonzero, here, -⟩ := Dim.difference_eq_singleton_iff.1 single
    have zero : ∀ {d : Dim} s, d.symbols = [] → d.coeff s = 0 := by
      intro d s none
      by_contra nonzero
      have occurs := Dim.mem_symbols_iff.2 nonzero
      rw [none] at occurs
      cases occurs
    rw [zero _ left, zero _ right] at here
    exact nonzero here.symm

/-- Bindings make two resolved dimensions equal where this is possible by solving one symbol. -/
lemma isSome_solve_iff {b : Bindings} {x y : Dim} : (b.solve x y).isSome ↔ Solvable x y := by
  unfold solve
  split
  next same => exact ⟨fun _ => .same same, fun _ => rfl⟩
  next differ =>
    split
    next concrete =>
      rw [Bool.and_eq_true] at concrete
      exact ⟨nofun, fun h => absurd h (not_solvable_of_isConcrete differ concrete.1 concrete.2)⟩
    next =>
      split
      next s left =>
        obtain rfl := Dim.symbol?_eq_some_iff.1 left
        rw [isSome_assign_iff]
        -- a symbol on the left is solved for unless the right side mentions it
        refine ⟨.left rfl, fun solvable => ?_⟩
        cases solvable with
        | same eq => exact absurd eq differ
        | left eq absent =>
          cases eq
          exact absent
        | right eq absent =>
          subst eq
          rw [Dim.symbols_symbol, List.mem_singleton] at absent ⊢
          exact Ne.symm absent
        | single notSymbol _ _ _ _ => exact absurd rfl (notSymbol s)
      next s none right =>
        obtain rfl := Dim.symbol?_eq_some_iff.1 right
        rw [isSome_assign_iff]
        -- otherwise a symbol on the right, in the same way
        refine ⟨.right rfl, fun solvable => ?_⟩
        cases solvable with
        | same eq => exact absurd eq differ
        | left eq _ => rw [Dim.symbol?_eq_some_iff.2 eq] at none; cases none
        | right eq absent =>
          cases eq
          exact absent
        | single _ notSymbol _ _ _ => exact absurd rfl (notSymbol s)
      next left right =>
        -- neither side is a symbol: one symbol must make up the difference
        have notSymbol : ∀ {d : Dim}, d.symbol? = none → ∀ t, d ≠ .symbol t := by
          intro d none t eq
          rw [Dim.symbol?_eq_some_iff.2 eq] at none
          cases none
        rw [isSome_solveOne_iff]
        constructor
        · rintro ⟨s, n, single, whole, positive⟩
          exact .single (notSymbol left) (notSymbol right) single whole positive
        · intro solvable
          cases solvable with
          | same eq => exact absurd eq differ
          | left eq _ => exact absurd eq (notSymbol left _)
          | right eq _ => exact absurd eq (notSymbol right _)
          | single _ _ single whole positive => exact ⟨_, _, single, whole, positive⟩

/-- Names that are kept apart can be given back, and the old ones are kept apart again. -/
lemma exists_rename_back {x y : Dim} {π : String → String}
    (inj : Set.InjOn π {s | s ∈ x.symbols ∨ s ∈ y.symbols}) :
    ∃ π' : String → String, (∀ s, s ∈ x.symbols ∨ s ∈ y.symbols → π' (π s) = s) ∧
      (x.rename π).rename π' = x ∧ (y.rename π).rename π' = y ∧
      Set.InjOn π' {t | t ∈ (x.rename π).symbols ∨ t ∈ (y.rename π).symbols} := by
  have inverse := inj.leftInvOn_invFunOn
  have named : ∀ t, t ∈ (x.rename π).symbols ∨ t ∈ (y.rename π).symbols →
      ∃ s, (s ∈ x.symbols ∨ s ∈ y.symbols) ∧ t = π s := by
    rintro t (mem | mem) <;> obtain ⟨s, hs, eq⟩ := Dim.mem_symbols_rename.1 mem
    · exact ⟨s, .inl hs, eq⟩
    · exact ⟨s, .inr hs, eq⟩
  refine ⟨_, fun s hs => inverse hs, ?_, ?_, ?_⟩
  · exact Dim.rename_rename_of_leftInverse fun s hs => inverse (.inl hs)
  · exact Dim.rename_rename_of_leftInverse fun s hs => inverse (.inr hs)
  · intro t ht u hu same
    obtain ⟨s, hs, rfl⟩ := named t ht
    obtain ⟨s', hs', rfl⟩ := named u hu
    rw [inverse hs, inverse hs'] at same
    rw [same]

/-- A single differing symbol stays the only one under other names. -/
lemma difference_rename {x y : Dim} {π : String → String}
    (inj : Set.InjOn π {s | s ∈ x.symbols ∨ s ∈ y.symbols}) {s : String} {n : Int}
    (single : x.difference y = [(s, n)]) : (x.rename π).difference (y.rename π) = [(π s, n)] := by
  obtain ⟨nonzero, here, elsewhere⟩ := Dim.difference_eq_singleton_iff.1 single
  have keepX : ∀ s, s ∈ x.symbols ∨ s ∈ y.symbols → (x.rename π).coeff (π s) = x.coeff s :=
    fun s hs => Dim.coeff_rename fun t ht same => inj (.inl ht) hs same
  have keepY : ∀ s, s ∈ x.symbols ∨ s ∈ y.symbols → (y.rename π).coeff (π s) = y.coeff s :=
    fun s hs => Dim.coeff_rename fun t ht same => inj (.inr ht) hs same
  have occurs : s ∈ x.symbols ∨ s ∈ y.symbols := by
    rw [Dim.mem_symbols_iff, Dim.mem_symbols_iff]
    omega
  refine Dim.difference_eq_singleton_iff.2 ⟨nonzero, ?_, fun t ne => ?_⟩
  · rw [keepX s occurs, keepY s occurs, here]
  · by_cases named : ∃ u, (u ∈ x.symbols ∨ u ∈ y.symbols) ∧ t = π u
    · obtain ⟨u, hu, rfl⟩ := named
      rw [keepX u hu, keepY u hu]
      exact elsewhere u fun eq => ne (by rw [eq])
    · have absent : ∀ d : Dim, (∀ u ∈ d.symbols, u ∈ x.symbols ∨ u ∈ y.symbols) →
          (d.rename π).coeff t = 0 := by
        intro d covers
        by_contra occurs
        obtain ⟨u, hu, eq⟩ := Dim.mem_symbols_rename.1 (Dim.mem_symbols_iff.2 occurs)
        exact named ⟨u, covers u hu, eq⟩
      rw [absent x fun u => .inl, absent y fun u => .inr]

/-- Other names do not keep dimensions from being made equal. -/
lemma Solvable.rename {x y : Dim} {π : String → String}
    (inj : Set.InjOn π {s | s ∈ x.symbols ∨ s ∈ y.symbols}) (solvable : Solvable x y) :
    Solvable (x.rename π) (y.rename π) := by
  obtain ⟨π', -, backX, backY, -⟩ := exists_rename_back inj
  cases solvable with
  | same eq => exact .same (by rw [eq])
  | @left s eq absent =>
    subst eq
    refine .left (Dim.rename_symbol π s) fun mem => ?_
    obtain ⟨t, ht, same⟩ := Dim.mem_symbols_rename.1 mem
    rw [inj (.inl (by simp)) (.inr ht) same] at absent
    exact absent ht
  | @right s eq absent =>
    subst eq
    refine .right (Dim.rename_symbol π s) fun mem => ?_
    obtain ⟨t, ht, same⟩ := Dim.mem_symbols_rename.1 mem
    rw [inj (.inr (by simp)) (.inl ht) same] at absent
    exact absent ht
  | @single s n leftNot rightNot single whole positive =>
    refine .single ?_ ?_ (difference_rename inj single) ?_ ?_
    · intro t eq
      exact leftNot (π' t) (by rw [← backX, eq, Dim.rename_symbol])
    · intro t eq
      exact rightNot (π' t) (by rw [← backY, eq, Dim.rename_symbol])
    · rw [Dim.const_rename, Dim.const_rename]
      exact whole
    · rw [Dim.const_rename, Dim.const_rename]
      exact positive

/-- Whether dimensions can be made equal does not depend on names. -/
lemma solvable_rename_iff {x y : Dim} {π : String → String}
    (inj : Set.InjOn π {s | s ∈ x.symbols ∨ s ∈ y.symbols}) :
    Solvable (x.rename π) (y.rename π) ↔ Solvable x y := by
  refine ⟨fun solvable => ?_, Solvable.rename inj⟩
  obtain ⟨π', -, backX, backY, apart⟩ := exists_rename_back inj
  have again := solvable.rename apart
  rwa [backX, backY] at again

end Bindings

end OperatorNet
