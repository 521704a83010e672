import OperatorNet.Proofs.Bindings.Symmetry

/-!
# Equations with one unknown

Where no more than one symbol is left in two resolved dimensions, each is a multiple of that symbol
and a number (`Dim.eval_of_only`), and the equation between them is one line of arithmetic
(`Dim.substitute_eq_iff`). A symbol with a multiplicity is solved for wherever it comes out as a
natural number. A symbol that stands alone is solved for only where the other side does not mention
it: `T` is not made equal to `T + T`, though zero solves that equation. These are the only equations
with one unknown that can be solved and are refused (`isSome_unifyDim_iff_of_only`).
-/

namespace OperatorNet

namespace Dim

variable {x y : Dim} {s : String} {n : Nat}

/-- A dimension in which no other symbol occurs is a multiple of a symbol and a number. -/
lemma eval_of_only (only : ∀ t ∈ x.symbols, t = s) (σ : String → Nat) :
    x.eval σ = x.coeff s * σ s + x.const := by
  obtain ⟨terms, const, ascending, positive⟩ := x
  match terms with
  | [] => simp [eval, coeff, evalTerms]
  | [p] =>
    have name : p.1 = s := only p.1 (by simp [symbols])
    simp [eval, coeff, evalTerms, name]
  | p :: q :: rest =>
    have first : p.1 = s := only p.1 (by simp [symbols])
    have second : q.1 = s := only q.1 (by simp [symbols])
    have before : p.1 < q.1 := (List.pairwise_cons.1 ascending).1 q.1 (by simp)
    rw [first, second] at before
    exact absurd before (String.lt_irrefl s)

/-- A dimension of one symbol has no other with a multiplicity. -/
lemma coeff_of_only {t : String} (only : ∀ t ∈ x.symbols, t = s) (ne : t ≠ s) : x.coeff t = 0 :=
  of_not_not fun occurs => ne (only t (mem_symbols_iff.2 occurs))

/-- Dimensions in which no other symbol occurs are told apart by one multiplicity and the number. -/
lemma eq_of_only (left : ∀ t ∈ x.symbols, t = s) (right : ∀ t ∈ y.symbols, t = s)
    (coeff : x.coeff s = y.coeff s) (const : x.const = y.const) : x = y := by
  apply eval_ext
  intro σ
  rw [eval_of_only left, eval_of_only right, coeff, const]

/-- A number is put in for the only symbol. -/
lemma substitute_eq_iff (left : ∀ t ∈ x.symbols, t = s) (right : ∀ t ∈ y.symbols, t = s) :
    x.substitute (onlySymbol s (.ofNat n)) = y.substitute (onlySymbol s (.ofNat n)) ↔
      x.coeff s * n + x.const = y.coeff s * n + y.const := by
  have value : ∀ {d : Dim} σ, (∀ t ∈ d.symbols, t = s) →
      (d.substitute (onlySymbol s (.ofNat n))).eval σ = d.coeff s * n + d.const := by
    intro d σ only
    rw [eval_substitute, eval_of_only only, onlySymbol, if_pos rfl, eval_ofNat]
  constructor
  · intro same
    have values := congrArg (eval fun _ => 0) same
    rwa [value _ left, value _ right] at values
  · intro same
    apply eval_ext
    intro σ
    rw [value σ left, value σ right, same]

/-- A symbol has itself once. -/
@[simp] lemma coeff_symbol_self (s : String) : (symbol s).coeff s = 1 := by
  simp [coeff, symbol, evalTerms]

/-- A symbol has no number beside it. -/
@[simp] lemma const_symbol (s : String) : (symbol s).const = 0 :=
  rfl

/-- The number in a multiple is the multiple of the number. -/
@[simp] lemma const_scale (n : Nat) (d : Dim) : (d.scale n).const = n * d.const := by
  rw [← eval_zero, eval_scale, eval_zero]

/-- A multiple has each symbol that many times as often. -/
@[simp] lemma coeff_scale (n : Nat) (d : Dim) (s : String) :
    (d.scale n).coeff s = n * d.coeff s := by
  have value := eval_scale (indicator s) n d
  rw [eval_indicator, eval_indicator, const_scale, Nat.mul_add] at value
  omega

/-- A multiple of a symbol has no other symbol. -/
lemma symbols_scale_symbol (n : Nat) (s : String) : ∀ t ∈ ((symbol s).scale n).symbols, t = s := by
  intro t occurs
  rw [mem_symbols_iff, coeff_scale] at occurs
  by_contra ne
  refine occurs ?_
  rw [coeff, symbol, evalTerms, evalTerms, indicator_of_ne (Ne.symm ne)]
  simp

/-- A symbol alone, beside a multiple of the same symbol. -/
def Outgrown (x y : Dim) : Prop :=
  ∃ s n, 2 ≤ n ∧ x = symbol s ∧ y = (symbol s).scale n

/-- An outgrown side is one and the other side at least two where all symbols are one. -/
lemma Outgrown.eval_one (outgrown : Outgrown x y) :
    x.eval (fun _ => 1) = 1 ∧ 2 ≤ y.eval fun _ => 1 := by
  obtain ⟨s, n, twice, rfl, rfl⟩ := outgrown
  rw [eval_scale, eval_symbol, Nat.mul_one]
  exact ⟨rfl, twice⟩

end Dim

namespace Bindings

variable {x y : Dim} {s : String} {n : Nat}

/-- A symbol that stands alone is solved for, unless it faces a multiple of itself. -/
lemma Solvable.of_alone (right : ∀ t ∈ y.symbols, t = s)
    (solves : (Dim.symbol s).coeff s * n + (Dim.symbol s).const = y.coeff s * n + y.const)
    (regular : ¬ Dim.Outgrown (.symbol s) y) : Solvable (.symbol s) y := by
  rw [Dim.coeff_symbol_self, Dim.const_symbol, Nat.one_mul, Nat.add_zero] at solves
  rcases Nat.lt_or_ge (y.coeff s) 2 with few | many
  · by_cases mentioned : s ∈ y.symbols
    · -- once on both sides, the symbol goes out and no number is left
      rw [Dim.mem_symbols_iff] at mentioned
      have once : y.coeff s = 1 := by omega
      rw [once, Nat.one_mul] at solves
      refine .same (Dim.eq_of_only (by simp) right ?_ ?_)
      · rw [Dim.coeff_symbol_self, once]
      · rw [Dim.const_symbol]
        omega
    · exact .left rfl mentioned
  · have most := Nat.mul_le_mul_right n many
    refine absurd ⟨s, y.coeff s, many, rfl, ?_⟩ regular
    refine Dim.eq_of_only right (Dim.symbols_scale_symbol _ s) ?_ ?_
    · rw [Dim.coeff_scale, Dim.coeff_symbol_self, Nat.mul_one]
    · rw [Dim.const_scale, Dim.const_symbol, Nat.mul_zero]
      omega

/-- A symbol that has different multiplicities on two sides where it does not stand alone is solved
for. -/
lemma Solvable.of_differs (left : ∀ t ∈ x.symbols, t = s) (right : ∀ t ∈ y.symbols, t = s)
    (solves : x.coeff s * n + x.const = y.coeff s * n + y.const) (differ : x.coeff s ≠ y.coeff s)
    (leftNot : x ≠ .symbol s) (rightNot : y ≠ .symbol s) : Solvable x y := by
  have alone : ∀ {d : Dim}, (∀ t ∈ d.symbols, t = s) → d ≠ .symbol s → ∀ t, d ≠ .symbol t := by
    intro d only ne t eq
    rw [only t (by rw [eq]; simp)] at eq
    exact ne eq
  have nonzero : (x.coeff s : Int) - y.coeff s ≠ 0 := by omega
  have gap : (y.const : Int) - x.const = ((x.coeff s : Int) - y.coeff s) * n := by
    have whole : (x.coeff s : Int) * n + x.const = y.coeff s * n + y.const := by
      exact_mod_cast solves
    rw [Int.sub_mul]
    omega
  refine .single (alone left leftNot) (alone right rightNot)
    (Dim.difference_eq_singleton_iff.2 ⟨nonzero, rfl, fun t ne => ?_⟩) ⟨n, gap⟩ ?_
  · rw [Dim.coeff_of_only left ne, Dim.coeff_of_only right ne]
  · rw [gap, Int.mul_ediv_cancel_left _ nonzero]
    omega

/-- An equation that one symbol solves has a solution. -/
lemma Solvable.exists_solution (left : ∀ t ∈ x.symbols, t = s) (right : ∀ t ∈ y.symbols, t = s)
    (solvable : Solvable x y) : ∃ n, x.coeff s * n + x.const = y.coeff s * n + y.const := by
  -- a symbol that the other side does not mention takes the number on that side
  have alone : ∀ {d : Dim} {t}, t = s → t ∉ d.symbols → d.coeff s = 0 := by
    rintro d t rfl absent
    rwa [Dim.mem_symbols_iff, not_not] at absent
  cases solvable with
  | same eq => exact ⟨0, by rw [eq]⟩
  | @left t eq absent =>
    have name : t = s := left t (by rw [eq]; simp)
    refine ⟨y.const, ?_⟩
    rw [eq, alone name absent, name, Dim.coeff_symbol_self, Dim.const_symbol]
    omega
  | @right t eq absent =>
    have name : t = s := right t (by rw [eq]; simp)
    refine ⟨x.const, ?_⟩
    rw [eq, alone name absent, name, Dim.coeff_symbol_self, Dim.const_symbol]
    omega
  | @single t m _ _ single whole positive =>
    obtain ⟨nonzero, here, -⟩ := Dim.difference_eq_singleton_iff.1 single
    have name : t = s := by
      by_contra ne
      rw [Dim.coeff_of_only left ne, Dim.coeff_of_only right ne] at here
      exact nonzero here.symm
    subst name
    obtain ⟨q, gap⟩ := whole
    rw [gap, Int.mul_ediv_cancel_left q nonzero] at positive
    obtain ⟨n, rfl⟩ := Int.eq_ofNat_of_zero_le positive
    refine ⟨n, ?_⟩
    rw [← here, Int.sub_mul] at gap
    have whole : (x.coeff t : Int) * n + x.const = y.coeff t * n + y.const := by omega
    exact_mod_cast whole

/-- A symbol is not solved for where it faces a multiple of itself. -/
lemma Solvable.not_outgrown (solvable : Solvable x y) : ¬ Dim.Outgrown x y := by
  intro outgrown
  obtain ⟨-, more⟩ := outgrown.eval_one
  obtain ⟨s, n, twice, rfl, rfl⟩ := outgrown
  have mentioned : s ∈ ((Dim.symbol s).scale n).symbols := by
    rw [Dim.mem_symbols_iff, Dim.coeff_scale, Dim.coeff_symbol_self]
    omega
  have larger : ∀ t, (Dim.symbol s).scale n ≠ .symbol t := by
    intro t eq
    rw [eq, Dim.eval_symbol] at more
    omega
  cases solvable with
  | same eq => exact larger s eq.symm
  | left eq absent =>
    cases eq
    exact absent mentioned
  | right eq _ => exact larger _ eq
  | single notSymbol _ _ _ _ => exact notSymbol s rfl

/-- An equation with one unknown can be solved for a symbol when some number solves it and neither
side is a symbol alone that faces a multiple of itself. -/
lemma solvable_iff_of_only (left : ∀ t ∈ x.symbols, t = s) (right : ∀ t ∈ y.symbols, t = s) :
    Solvable x y ↔ (∃ n, x.coeff s * n + x.const = y.coeff s * n + y.const) ∧
      ¬ (Dim.Outgrown x y ∨ Dim.Outgrown y x) := by
  constructor
  · intro solvable
    refine ⟨solvable.exists_solution left right, ?_⟩
    exact not_or.2 ⟨solvable.not_outgrown, solvable.symm.not_outgrown⟩
  · rintro ⟨⟨n, solves⟩, regular⟩
    rw [not_or] at regular
    by_cases leftAlone : x = .symbol s
    · subst leftAlone
      exact .of_alone right solves regular.1
    by_cases rightAlone : y = .symbol s
    · subst rightAlone
      exact (Solvable.of_alone left solves.symm regular.2).symm
    by_cases same : x.coeff s = y.coeff s
    · rw [same, Nat.add_left_cancel_iff] at solves
      exact .same (Dim.eq_of_only left right same solves)
    · exact .of_differs left right solves same leftAlone rightAlone

/-- Whatever the bindings have been used for before, an equation whose resolved sides mention no
more than one symbol is accepted exactly when some number put in for that symbol makes the sides
equal, unless one side is that symbol alone and the other a multiple of it, which only zero
solves. -/
theorem isSome_unifyDim_iff_of_only (uses : List Forest.Use) (x y : Dim) (s : String)
    (only : ∀ t, t ∈ ((uses.foldl afterUse empty).resolve x).symbols ∨
      t ∈ ((uses.foldl afterUse empty).resolve y).symbols → t = s) :
    let b := uses.foldl afterUse empty
    (b.unifyDim x y).isSome ↔
      (∃ n, (b.resolve x).substitute (onlySymbol s (.ofNat n)) =
        (b.resolve y).substitute (onlySymbol s (.ofNat n))) ∧
      ¬ (Dim.Outgrown (b.resolve x) (b.resolve y) ∨ Dim.Outgrown (b.resolve y) (b.resolve x)) := by
  intro b
  have left : ∀ t ∈ (b.resolve x).symbols, t = s := fun t ht => only t (.inl ht)
  have right : ∀ t ∈ (b.resolve y).symbols, t = s := fun t ht => only t (.inr ht)
  rw [unifyDim, isSome_solve_iff, solvable_iff_of_only left right]
  simp only [Dim.substitute_eq_iff left right]

open Sample in
/-- `C` has become twice `B`, so the sides are four times `B` and one, and five times `B`. -/
theorem isSome_unifyDim_doubled :
    let b := doubled.foldl afterUse empty
    let x := .symbol "C" + .symbol "C" + .ofNat 1
    let y := .symbol "C" + .symbol "C" + .symbol "B"
    (∀ t, t ∈ (b.resolve x).symbols ∨ t ∈ (b.resolve y).symbols → t = "B") ∧
      (b.unifyDim x y).isSome := by
  intro b x y
  have left : (b.resolve x).symbols = ["B"] := by decide +kernel
  have right : (b.resolve y).symbols = ["B"] := by decide +kernel
  have only : ∀ t, t ∈ (b.resolve x).symbols ∨ t ∈ (b.resolve y).symbols → t = "B" := by
    rw [left, right]
    simp
  have values : (b.resolve x).eval (fun _ => 1) = 5 ∧ (b.resolve y).eval (fun _ => 1) = 5 := by
    decide +kernel
  refine ⟨only, (isSome_unifyDim_iff_of_only doubled x y "B" only).2 ⟨⟨1, by decide +kernel⟩, ?_⟩⟩
  rintro (outgrown | outgrown)
  · exact absurd (values.1.symm.trans outgrown.eval_one.1) (by decide)
  · exact absurd (values.2.symm.trans outgrown.eval_one.1) (by decide)

/-- Zero makes `T` and `T + T` equal, and unification refuses them. -/
theorem not_isSome_unifyDim_twice :
    let x := Dim.symbol "T"
    let y := Dim.symbol "T" + Dim.symbol "T"
    ¬ ((empty.unifyDim x y).isSome ↔
      ∃ n, (empty.resolve x).substitute (onlySymbol "T" (.ofNat n)) =
        (empty.resolve y).substitute (onlySymbol "T" (.ofNat n))) := by
  intro x y accepted
  have refused : (empty.unifyDim x y).isSome = false := by decide +kernel
  rw [accepted.2 ⟨0, by decide +kernel⟩] at refused
  cases refused

end Bindings

end OperatorNet
