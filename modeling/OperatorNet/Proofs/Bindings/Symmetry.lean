import Mathlib.Data.List.Zip
import OperatorNet.Proofs.Bindings.Renaming
import OperatorNet.Proofs.Bindings.Termination

/-!
# Unification from either side

Swapping the two sides of an equation may turn a link between symbols around, so the dimensions that
come later are resolved to other symbols. What can be said about a symbol stays the same: bindings
that are satisfied by the same assignments (`Equivalent`) accept an equation from either side and
are equivalent again afterwards (`Equivalent.unifyDim_swap`). So types unify from either side
(`unify?_swap`), and every symbol has the same size in the end.
-/

namespace OperatorNet.Bindings

/-- Bindings that are satisfied by the same assignments. -/
structure Equivalent (b₁ b₂ : Bindings) : Prop where
  left : b₁.WellFormed
  right : b₂.WellFormed
  satisfies_iff : ∀ σ, b₁.Satisfies σ ↔ b₂.Satisfies σ

variable {b b₁ b₂ : Bindings} {x y : Dim}

/-- Bindings are equivalent to themselves. -/
protected lemma Equivalent.refl (wf : b.WellFormed) : Equivalent b b :=
  ⟨wf, wf, fun _ => Iff.rfl⟩

/-- Whether dimensions can be made equal by solving one symbol does not depend on their sides. -/
lemma Solvable.symm (solvable : Solvable x y) : Solvable y x := by
  cases solvable with
  | same eq => exact .same eq.symm
  | left eq absent => exact .right eq absent
  | right eq absent => exact .left eq absent
  | @single s n leftNot rightNot single whole positive =>
    obtain ⟨nonzero, here, elsewhere⟩ := Dim.difference_eq_singleton_iff.1 single
    have gap : (x.const : Int) - y.const = -((y.const : Int) - x.const) := by omega
    refine .single (s := s) (n := -n) rightNot leftNot ?_ ?_ ?_
    · exact Dim.difference_eq_singleton_iff.2
        ⟨by omega, by omega, fun t ne => (elsewhere t ne).symm⟩
    · rw [gap, Int.neg_dvd, Int.dvd_neg]
      exact whole
    · rw [gap, Int.ediv_neg, Int.neg_ediv_of_dvd whole, Int.neg_neg]
      exact positive

/-- Equivalent bindings resolve dimensions alike up to the names of symbols, so they accept the same
equations. -/
lemma Equivalent.isSome_unifyDim_iff (equivalent : Equivalent b₁ b₂) (x y : Dim) :
    (b₁.unifyDim x y).isSome ↔ (b₂.unifyDim x y).isSome := by
  have renamed : Renamed (fun _ => True) id b₁ b₂ :=
    ⟨equivalent.left, equivalent.right, fun _ _ => ⟨trivial, fun _ _ => trivial⟩,
      fun σ => (equivalent.satisfies_iff σ).symm⟩
  have unified := renamed.unifyDim (Function.injective_id.injOn) (x := x) (y := y)
    (fun _ _ => trivial) fun _ _ => trivial
  have keep : ∀ d : Dim, d.rename id = d := fun d => d.substitute_symbol
  rw [keep, keep] at unified
  exact isSome_iff_of_rel unified

/-- Two dimensions can be unified just when they can the other way round. -/
lemma isSome_unifyDim_swap (b : Bindings) (x y : Dim) :
    (b.unifyDim x y).isSome ↔ (b.unifyDim y x).isSome := by
  rw [unifyDim, unifyDim, isSome_solve_iff, isSome_solve_iff]
  exact ⟨Solvable.symm, Solvable.symm⟩

/-- Equivalent bindings unify dimensions from either side, to equivalent bindings. -/
lemma Equivalent.unifyDim_swap (equivalent : Equivalent b₁ b₂) (x y : Dim) :
    Option.Rel Equivalent (b₁.unifyDim x y) (b₂.unifyDim y x) := by
  have accepted := (equivalent.isSome_unifyDim_iff x y).trans (isSome_unifyDim_swap b₂ x y)
  refine rel_of_isSome_iff accepted fun b₁' b₂' first second => ?_
  have refines₁ := Refines.of_unifyDim equivalent.left first
  have refines₂ := Refines.of_unifyDim equivalent.right second
  refine ⟨refines₁.wellFormed, refines₂.wellFormed, fun σ => ?_⟩
  rw [refines₁.satisfies_iff, refines₂.satisfies_iff, equivalent.satisfies_iff, eq_comm]

/-- One axis after the other, equivalent bindings stay equivalent. -/
lemma Equivalent.unifyAxes_swap (equivalent : Equivalent b₁ b₂) (place : Nat)
    (axes : List (Dim × Dim)) :
    Option.Rel Equivalent (b₁.unifyAxes place axes).toOption
      (b₂.unifyAxes place (axes.map Prod.swap)).toOption := by
  have alike : Alike Equivalent (fun _ _ => True) (b₁.unifyAxes place axes)
      (b₂.unifyAxes place (axes.map Prod.swap)) :=
    unifyAxes_alike (fun equivalent p _ => ⟨equivalent.unifyDim_swap p.1 p.2, fun _ => trivial⟩)
      equivalent place
  exact alike.toOption

/-- Equivalent bindings stay so when two types are unified the one way and the other way round. -/
lemma Equivalent.unify_swap (equivalent : Equivalent b₁ b₂) (t c : PortType) :
    Option.Rel Equivalent (b₁.unify? t c) (b₂.unify? c t) := by
  have axes := equivalent.unifyAxes_swap 0 (t.shape.zip c.shape)
  rw [List.zip_swap] at axes
  have alike : (c.kind = t.kind ∧ c.metric = t.metric ∧ c.group = t.group ∧
      c.shape.length = t.shape.length) ↔ t.kind = c.kind ∧ t.metric = c.metric ∧
        t.group = c.group ∧ t.shape.length = c.shape.length := by
    simp only [eq_comm]
  rw [unify?_eq, unify?_eq]
  simp only [alike]
  split
  next => exact axes
  next => exact .none

/-- A symbol has a size when it has that value under every assignment that satisfies the
bindings. -/
lemma WellFormed.size?_eq_some_iff (wf : b.WellFormed) {s : String} {n : Nat} :
    b.size? s = some n ↔ ∀ σ, b.Satisfies σ → σ s = n := by
  have number : b.resolve (.ofNat n) = .ofNat n := resolve_of_free nofun
  have known : b.size? s = some n ↔ b.resolve (.symbol s) = .ofNat n := by
    rw [size?, Dim.size?]
    constructor
    · intro found
      split at found
      next concrete =>
        have none := Dim.isConcrete_iff.1 concrete
        refine Dim.eval_ext fun σ => ?_
        rw [← Option.some.inj found, Dim.eval_ofNat, ← Dim.eval_zero]
        exact Dim.eval_congr fun t ht => by rw [none] at ht; cases ht
      next => cases found
    · intro eq
      rw [eq]
      rfl
  rw [known, ← number, wf.resolve_eq_iff]
  simp only [Dim.eval_symbol, Dim.eval_ofNat]

/-- Equivalent bindings know the same sizes. -/
lemma Equivalent.size?_eq (equivalent : Equivalent b₁ b₂) (s : String) :
    b₁.size? s = b₂.size? s := by
  refine Option.ext fun n => ?_
  rw [equivalent.left.size?_eq_some_iff, equivalent.right.size?_eq_some_iff]
  simp only [equivalent.satisfies_iff]

/-- Bindings are well formed, whatever they have been used for. -/
lemma wellFormed_foldl_afterUse (uses : List Forest.Use) :
    (uses.foldl afterUse empty).WellFormed := by
  obtain ⟨_, -, represents, -⟩ := Forest.represents_empty.afterAll_eq_some uses
  exact represents.wellFormed

/-- Unification is symmetric, whatever the bindings have been used for before: two types unify in
one order exactly when they unify in the other, to bindings that are satisfied by the same
assignments and under which every symbol has the same size, or none. -/
theorem unify?_swap (uses : List Forest.Use) (t c : PortType) :
    let b := uses.foldl afterUse empty
    ((b.unify? t c).isSome ↔ (b.unify? c t).isSome) ∧
      ∀ b₁ b₂, b.unify? t c = some b₁ → b.unify? c t = some b₂ →
        (∀ σ, b₁.Satisfies σ ↔ b₂.Satisfies σ) ∧ ∀ s, b₁.size? s = b₂.size? s := by
  intro b
  have swapped := (Equivalent.refl (wellFormed_foldl_afterUse uses)).unify_swap t c
  refine ⟨isSome_iff_of_rel swapped, fun b₁ b₂ first second => ?_⟩
  change Option.Rel Equivalent (b.unify? t c) (b.unify? c t) at swapped
  rw [first, second] at swapped
  cases swapped with
  | some equivalent => exact ⟨equivalent.satisfies_iff, equivalent.size?_eq⟩

namespace Sample

/-- A type with two axes. -/
def pair (x y : Dim) : PortType :=
  { kind := "feature", shape := [x, y], metric := "l2", group := .empty }

/-- The symbol `C` has become twice the symbol `B`. -/
def doubled : List Forest.Use :=
  [.unifyDim (.symbol "C") (.symbol "B" + .symbol "B")]

end Sample

open Sample in
/-- From the one side `A` is linked to `B`, from the other `B` to `A`; the second axis is six either
way, and both symbols are three. -/
theorem unify?_swap_linked :
    let b := doubled.foldl afterUse empty
    let t := pair (.symbol "A") (.symbol "C")
    let c := pair (.symbol "B") (.ofNat 6)
    b.unify? t c ≠ b.unify? c t ∧ ∃ b₁ b₂, b.unify? t c = some b₁ ∧ b.unify? c t = some b₂ ∧
      (∀ σ, b₁.Satisfies σ ↔ b₂.Satisfies σ) ∧ b₁.size? "A" = some 3 ∧ b₂.size? "A" = some 3 := by
  intro b t c
  obtain ⟨accepted, same⟩ := unify?_swap doubled t c
  have known : (b.unify? t c).map (·.size? "A") = some (some 3) := by decide +kernel
  obtain ⟨b₁, first, size⟩ := Option.map_eq_some_iff.1 known
  obtain ⟨b₂, second⟩ := Option.isSome_iff_exists.1 (accepted.1 (first ▸ rfl))
  obtain ⟨satisfied, sizes⟩ := same b₁ b₂ first second
  exact ⟨by decide +kernel, b₁, b₂, first, second, satisfied, size, sizes "A" ▸ size⟩

end OperatorNet.Bindings
