import Mathlib.Data.Set.Function
import Mathlib.Tactic.Choose
import OperatorNet.Proofs.Bindings.Solutions
import OperatorNet.Proofs.Bindings.Solvable

/-!
# Unification under other names

Two bindings may be reached in different ways and over different symbols. Where each assignment that
satisfies the one can be read off an assignment that satisfies the other (`Corresponds`), resolving
gives the same dimensions up to the names of symbols (`Corresponds.exists_rename`): what a free
symbol reads off takes the value one while all other free symbols count nothing, so it is a symbol
again.

Whether two dimensions can be made equal by solving one symbol does not depend on the names of
symbols (`solvable_rename_iff`), nor on how the bindings came about: bindings satisfied by the same
assignments up to a renaming (`Renamed`) accept the same equations, and what they become is again
satisfied by the same assignments (`Renamed.unifyDim`). A relation that unifying dimensions keeps
under other names (`Follows`) is kept by unifying types and slots (`Follows.unifySlots`).
-/

namespace OperatorNet.Bindings

/-- Assignments that satisfy `b₁` are read off those that satisfy `b₂` by `φ`, and the other way
round by `ψ`; on the symbols in `P` nothing is lost, and no free symbol of `b₂` is always zero. -/
structure Corresponds (b₁ b₂ : Bindings) (P : String → Prop) (φ ψ : String → Dim) : Prop where
  back : ∀ τ, b₂.Satisfies τ → b₁.Satisfies fun s => (φ s).eval τ
  forth : ∀ σ, b₁.Satisfies σ → b₂.Satisfies fun t => (ψ t).eval σ
  inverse : ∀ σ s, P s → b₁.Satisfies σ → (φ s).eval (fun t => (ψ t).eval σ) = σ s
  live : ∀ t, b₂.Free t → ∃ σ, b₁.Satisfies σ ∧ 0 < (ψ t).eval σ

namespace Corresponds

variable {b₁ b₂ : Bindings} {P : String → Prop} {φ ψ : String → Dim}

/-- What a free symbol reads off has the value of that symbol. -/
lemma eval_resolve_free (cor : Corresponds b₁ b₂ P φ ψ) (wf₁ : b₁.WellFormed) {f : String}
    (free : b₁.Free f) (known : P f) (τ : String → Nat) :
    (b₂.resolve (φ f)).eval (fun t => (ψ t).eval (b₁.extend τ)) = τ f := by
  have satisfied := wf₁.satisfies_extend τ
  rw [eval_resolve (cor.forth _ satisfied), cor.inverse _ f known satisfied, extend_of_free free]

/-- A free symbol reads off a symbol. -/
lemma resolve_free (cor : Corresponds b₁ b₂ P φ ψ) (wf₁ : b₁.WellFormed) (wf₂ : b₂.WellFormed)
    {f : String} (free : b₁.Free f) (known : P f) : ∃ g, b₂.resolve (φ f) = .symbol g := by
  have value := cor.eval_resolve_free wf₁ free known
  have const : (b₂.resolve (φ f)).const = 0 := by
    have least := Dim.const_le_eval (b₂.resolve (φ f)) fun t => (ψ t).eval (b₁.extend fun _ => 0)
    rw [value] at least
    exact Nat.le_zero.1 least
  refine Dim.eq_symbol_of_eval_eq_one const ((value (indicator f)).trans (indicator_self f)) ?_
  intro g mem
  have below : ∀ τ, (b₁.resolve (ψ g)).eval τ ≤ τ f := by
    intro τ
    rw [← value τ, eval_resolve_eq_extend]
    exact Dim.le_eval_of_mem (fun t => (ψ t).eval (b₁.extend τ)) mem
  obtain ⟨σ, satisfied, positive⟩ := cor.live g (wf₂.free_of_mem_resolve mem)
  rw [← eval_resolve satisfied] at positive
  have none : (b₁.resolve (ψ g)).const = 0 := by
    have zero := below fun _ => 0
    rw [Dim.eval_zero] at zero
    exact Nat.le_zero.1 zero
  obtain ⟨h, occurs⟩ := Dim.exists_mem_symbols none positive
  -- A symbol that makes `g` count makes what `f` reads off count, so it is `f`.
  have counts := Dim.le_eval_of_mem (indicator h) occurs
  have same : f = h := by
    by_contra ne
    have := below (indicator h)
    rw [indicator_of_ne ne] at this
    rw [indicator_self] at counts
    omega
  rw [← same, indicator_self, eval_resolve_eq_extend] at counts
  exact counts

/-- Dimensions resolve alike up to the names of symbols. -/
theorem exists_rename (cor : Corresponds b₁ b₂ P φ ψ) (wf₁ : b₁.WellFormed)
    (wf₂ : b₂.WellFormed) :
    ∃ π : String → String, Set.InjOn π {s | b₁.Free s ∧ P s} ∧
      ∀ d, (∀ s ∈ (b₁.resolve d).symbols, P s) →
        b₂.resolve (d.substitute φ) = (b₁.resolve d).rename π := by
  have named : ∀ f, ∃ g, b₁.Free f ∧ P f → b₂.resolve (φ f) = .symbol g := by
    intro f
    by_cases known : b₁.Free f ∧ P f
    · obtain ⟨g, hg⟩ := cor.resolve_free wf₁ wf₂ known.1 known.2
      exact ⟨g, fun _ => hg⟩
    · exact ⟨f, fun h => absurd h known⟩
  -- injective, as an indicator of one free symbol tells it from every other
  choose π hπ using named
  refine ⟨π, ?_, ?_⟩
  · intro f hf h hh same
    have value := cor.eval_resolve_free wf₁ hf.1 hf.2 (indicator f)
    rw [hπ f hf, same, ← hπ h hh, cor.eval_resolve_free wf₁ hh.1 hh.2, indicator_self] at value
    by_contra ne
    rw [indicator_of_ne (Ne.symm ne)] at value
    cases value
  · intro d known
    have through : b₂.resolve (d.substitute φ) = b₂.resolve ((b₁.resolve d).substitute φ) := by
      refine wf₂.resolve_eq_iff.2 fun τ satisfied => ?_
      rw [Dim.eval_substitute, Dim.eval_substitute, eval_resolve (cor.back τ satisfied)]
    have inside : b₂.resolve ((b₁.resolve d).substitute φ) =
        (b₁.resolve d).substitute fun s => b₂.resolve (φ s) := by
      apply Dim.eval_ext
      intro τ
      rw [eval_resolve_eq_extend, Dim.eval_substitute, Dim.eval_substitute]
      simp only [eval_resolve_eq_extend]
    rw [through, inside, Dim.rename]
    exact Dim.substitute_congr fun s hs => hπ s ⟨wf₁.free_of_mem_resolve hs, known s hs⟩

end Corresponds

end OperatorNet.Bindings

/-! ### Bindings over symbols, and new names for them -/

namespace OperatorNet

/-- A mismatch with its symbols under other names. -/
def Mismatch.rename (ρ : String → String) : Mismatch → Mismatch
  | axis place actual expected => axis place (actual.rename ρ) (expected.rename ρ)
  | m => m

namespace Bindings

/-- Bindings over the symbols in `P`. -/
def Within (P : String → Prop) (b : Bindings) : Prop :=
  ∀ p ∈ b.solved, P p.1 ∧ p.2.Within P

section Support

variable {b b' : Bindings} {P : String → Prop}

/-- Whether sizes satisfy bindings depends on the symbols that may occur there only. -/
lemma Within.satisfies_congr (within : b.Within P) {σ τ : String → Nat}
    (same : ∀ s, P s → σ s = τ s) : b.Satisfies σ ↔ b.Satisfies τ := by
  refine forall₂_congr fun p hp => ?_
  rw [same p.1 (within p hp).1, Dim.eval_congr fun s hs => same s ((within p hp).2 s hs)]

/-- Resolving brings in no other symbols. -/
lemma Within.resolve (within : b.Within P) {d : Dim} (covers : d.Within P) :
    (b.resolve d).Within P := by
  intro s mem
  by_contra outside
  exact notMem_symbols_replaceAll (fun occurs => outside (covers s occurs))
    (fun p hp occurs => outside ((within p hp).2 s occurs)) mem

/-- Resolving a type brings in no symbols from outside. -/
lemma Within.resolveType (within : b.Within P) {t : PortType} (covers : t.Within P) :
    (b.resolveType t).Within P := by
  intro d hd
  obtain ⟨e, he, rfl⟩ := List.mem_map.1 hd
  exact within.resolve (covers e he)

/-- Unifying dimensions brings in no symbols from outside. -/
lemma Within.unifyDim (within : b.Within P) {x y : Dim} (left : x.Within P) (right : y.Within P)
    (unified : b.unifyDim x y = some b') : b'.Within P := by
  rcases solve_cases unified with ⟨-, rfl⟩ | ⟨s, e, solves, rfl⟩
  · exact within
  · have covers : ∀ t, t ∈ (b.resolve x).symbols ∨ t ∈ (b.resolve y).symbols → P t :=
      fun t occurs => occurs.elim (within.resolve left t) (within.resolve right t)
    intro p hp
    rcases List.mem_append.1 hp with old | new
    · exact within p old
    · rw [List.mem_singleton] at new
      subst new
      exact ⟨covers s solves.mentioned, fun t ht => covers t (solves.covers t ht)⟩

/-- Unifying axes brings in no other symbols. -/
lemma Within.unifyAxes (within : b.Within P) {place : Nat} {axes : List (Dim × Dim)}
    (covers : ∀ p ∈ axes, p.1.Within P ∧ p.2.Within P) (unified : b.unifyAxes place axes = .ok b') :
    b'.Within P := by
  induction axes generalizing b place with
  | nil =>
    cases unified
    exact within
  | cons p rest ih =>
    rw [Bindings.unifyAxes] at unified
    split at unified
    next b₁ first =>
      obtain ⟨left, right⟩ := covers p (by simp)
      exact ih (within.unifyDim left right first) (fun q hq => covers q (by simp [hq])) unified
    next => cases unified

/-- Unifying types brings in no other symbols. -/
lemma Within.unify (within : b.Within P) {t c : PortType} (left : t.Within P) (right : c.Within P)
    (unified : b.unify? t c = some b') : b'.Within P := by
  rw [unify?_eq] at unified
  split at unified
  next =>
    cases axes : b.unifyAxes 0 (t.shape.zip c.shape) with
    | error m =>
      rw [axes] at unified
      cases unified
    | ok b₁ =>
      rw [axes] at unified
      cases unified
      refine within.unifyAxes (fun p hp => ?_) axes
      exact ⟨left p.1 (List.of_mem_zip hp).1, right p.2 (List.of_mem_zip hp).2⟩
  next => cases unified

/-- Unifying slots brings in no other symbols. -/
lemma Within.unifySlots (within : b.Within P) {slots : List (PortType × PortType)}
    (covers : ∀ p ∈ slots, p.1.Within P ∧ p.2.Within P) (unified : b.unifySlots? slots = some b') :
    b'.Within P := by
  induction slots generalizing b with
  | nil =>
    cases unified
    exact within
  | cons p rest ih =>
    rw [unifySlots?_cons, Option.bind_eq_some_iff] at unified
    obtain ⟨b₁, first, others⟩ := unified
    obtain ⟨left, right⟩ := covers p (by simp)
    exact ih (within.unify left right first) (fun q hq => covers q (by simp [hq])) others

/-- Bindings over some symbols are bindings over more. -/
lemma Within.mono {Q : String → Prop} (within : b.Within P) (more : ∀ s, P s → Q s) : b.Within Q :=
  fun p hp => ⟨more _ (within p hp).1, fun s hs => more s ((within p hp).2 s hs)⟩

end Support

/-- Results that are there together are related when all of them are. -/
lemma rel_of_isSome_iff {β γ : Type} {R : β → γ → Prop} {x : Option β} {y : Option γ}
    (together : x.isSome ↔ y.isSome) (related : ∀ b c, x = some b → y = some c → R b c) :
    Option.Rel R x y := by
  cases x with
  | none =>
    cases y with
    | none => exact .none
    | some c => cases together.2 rfl
  | some b =>
    obtain ⟨c, rfl⟩ := Option.isSome_iff_exists.1 (together.1 rfl)
    exact .some (related b c rfl rfl)

/-- Two related outcomes are both there or both missing. -/
lemma isSome_iff_of_rel {β γ : Type} {R : β → γ → Prop} {x : Option β} {y : Option γ}
    (related : Option.Rel R x y) : x.isSome ↔ y.isSome := by
  cases related with
  | none => exact Iff.rfl
  | some _ => exact ⟨fun _ => rfl, fun _ => rfl⟩

/-! ### Bindings side by side -/

/-- Results of unification that are related bindings, or related reasons of a failure. -/
inductive Alike (R : Bindings → Bindings → Prop) (E : Mismatch → Mismatch → Prop) :
    Except Mismatch Bindings → Except Mismatch Bindings → Prop where
  | ok {b₁ b₂} : R b₁ b₂ → Alike R E (.ok b₁) (.ok b₂)
  | error {m n} : E m n → Alike R E (.error m) (.error n)

/-- Where dimensions over the symbols in `P` unify, they do so under other names as well, and
related bindings become related ones; where they do not, they fail for related reasons. -/
structure Follows (P : String → Prop) (ρ : String → String) (R : Bindings → Bindings → Prop)
    (E : Mismatch → Mismatch → Prop) : Prop where
  unifyDim : ∀ {b₁ b₂}, R b₁ b₂ → ∀ x y : Dim, x.Within P → y.Within P →
    Option.Rel R (b₁.unifyDim x y) (b₂.unifyDim (x.rename ρ) (y.rename ρ))
  axis : ∀ {b₁ b₂}, R b₁ b₂ → ∀ (place : Nat) (x y : Dim), x.Within P → y.Within P →
    E (.axis place (b₁.resolve x) (b₁.resolve y))
      (.axis place (b₂.resolve (x.rename ρ)) (b₂.resolve (y.rename ρ)))
  heads : ∀ m : Mismatch, m.rename ρ = m → E m m

section Alike

variable {P : String → Prop} {ρ : String → String} {R : Bindings → Bindings → Prop}
  {E : Mismatch → Mismatch → Prop} {b₁ b₂ : Bindings}

/-- Results that are alike stay alike when the reasons of failures are forgotten. -/
lemma Alike.toOption {r₁ r₂ : Except Mismatch Bindings} (alike : Alike R E r₁ r₂) :
    Option.Rel R r₁.toOption r₂.toOption := by
  cases alike with
  | ok related => exact .some related
  | error _ => exact .none

/-- Axes unify side by side if the dimensions of each of them do. -/
lemma unifyAxes_alike {f : Dim × Dim → Dim × Dim} {axes : List (Dim × Dim)}
    (each : ∀ {b₁ b₂}, R b₁ b₂ → ∀ p ∈ axes,
      Option.Rel R (b₁.unifyDim p.1 p.2) (b₂.unifyDim (f p).1 (f p).2) ∧
      ∀ place, E (.axis place (b₁.resolve p.2) (b₁.resolve p.1))
        (.axis place (b₂.resolve (f p).2) (b₂.resolve (f p).1)))
    (related : R b₁ b₂) (place : Nat) :
    Alike R E (b₁.unifyAxes place axes) (b₂.unifyAxes place (axes.map f)) := by
  induction axes generalizing b₁ b₂ place with
  | nil => exact .ok related
  | cons p rest ih =>
    obtain ⟨head, fails⟩ := each related p (List.mem_cons_self ..)
    rw [List.map_cons, Bindings.unifyAxes, Bindings.unifyAxes]
    generalize b₁.unifyDim p.1 p.2 = first at head
    generalize b₂.unifyDim (f p).1 (f p).2 = second at head
    cases head with
    | none => exact .error (fails place)
    | some related =>
      exact ih (fun related q hq => each related q (List.mem_cons_of_mem p hq)) related (place + 1)

/-- Types unify side by side under other names. -/
lemma Follows.unify (follows : Follows P ρ R E) (related : R b₁ b₂) {t c : PortType}
    (left : t.Within P) (right : c.Within P) :
    Alike R E (b₁.unify t c) (b₂.unify (t.rename ρ) (c.rename ρ)) := by
  have unified : Alike R E (b₁.unifyAxes 0 (t.shape.zip c.shape))
      (b₂.unifyAxes 0 ((t.shape.zip c.shape).map fun p => (p.1.rename ρ, p.2.rename ρ))) := by
    refine unifyAxes_alike (fun related p hp => ?_) related 0
    have known₁ := left p.1 (List.of_mem_zip hp).1
    have known₂ := right p.2 (List.of_mem_zip hp).2
    exact ⟨follows.unifyDim related _ _ known₁ known₂,
      fun place => follows.axis related place _ _ known₂ known₁⟩
  have zips : (t.rename ρ).shape.zip (c.rename ρ).shape =
      (t.shape.zip c.shape).map fun p => (p.1.rename ρ, p.2.rename ρ) :=
    List.zip_map ..
  have rank : ∀ d : PortType, (d.rename ρ).shape.length = d.shape.length := fun _ =>
    List.length_map ..
  rw [Bindings.unify, Bindings.unify, zips, rank, rank]
  change Alike R E _ (if t.kind ≠ c.kind then _ else if t.metric ≠ c.metric then _
    else if t.group ≠ c.group then _ else _)
  -- renaming changes nothing that is compared before the axes
  split
  next => exact .error (follows.heads _ rfl)
  next =>
    split
    next => exact .error (follows.heads _ rfl)
    next =>
      split
      next => exact .error (follows.heads _ rfl)
      next =>
        split
        next => exact .error (follows.heads _ rfl)
        next => exact unified

/-- Slots unify side by side under other names. -/
lemma Follows.unifySlots (follows : Follows P ρ R E) (related : R b₁ b₂)
    {slots : List (PortType × PortType)} (covers : ∀ p ∈ slots, p.1.Within P ∧ p.2.Within P) :
    Alike R E (b₁.unifySlots slots)
      (b₂.unifySlots (slots.map fun p => (p.1.rename ρ, p.2.rename ρ))) := by
  induction slots generalizing b₁ b₂ with
  | nil => exact .ok related
  | cons p rest ih =>
    rw [List.forall_mem_cons] at covers
    obtain ⟨⟨left, right⟩, covers⟩ := covers
    have head := follows.unify related left right
    rw [List.map_cons, Bindings.unifySlots, Bindings.unifySlots, List.foldlM_cons, List.foldlM_cons]
    generalize b₁.unify p.1 p.2 = first at head
    generalize b₂.unify (p.1.rename ρ) (p.2.rename ρ) = second at head
    cases head with
    | ok related => exact ih related covers
    | error fails => exact .error fails

end Alike

/-! ### The same assignments under other names -/

/-- Bindings over the symbols in `P` and bindings that are satisfied by the same assignments when
the names of symbols are changed. -/
structure Renamed (P : String → Prop) (ρ : String → String) (b₁ b₂ : Bindings) : Prop where
  source : b₁.WellFormed
  target : b₂.WellFormed
  within : b₁.Within P
  satisfies_iff : ∀ σ, b₂.Satisfies σ ↔ b₁.Satisfies fun s => σ (ρ s)

/-- Bindings that know nothing are over all symbols. -/
lemma Within.empty (P : String → Prop) : empty.Within P :=
  nofun

/-- Bindings that know nothing stay so under other names. -/
lemma Renamed.empty (P : String → Prop) (ρ : String → String) : Renamed P ρ empty empty :=
  ⟨.empty, .empty, .empty P, fun _ => by simp⟩

section Names

variable {P : String → Prop} {ρ : String → String} {b₁ b₂ : Bindings}
  (inj : Set.InjOn ρ {s | P s})

include inj

/-- Names that are kept apart can be read back; other names are given the number one. -/
lemma exists_reading : ∃ ψ : String → Dim,
    (∀ s, P s → ψ (ρ s) = .symbol s) ∧ ∀ t, (∀ s, P s → ρ s ≠ t) → ψ t = .ofNat 1 := by
  classical
  refine ⟨fun t => if h : ∃ s, P s ∧ ρ s = t then .symbol h.choose else .ofNat 1, ?_, ?_⟩
  · intro s known
    have named : ∃ s', P s' ∧ ρ s' = ρ s := ⟨s, known, rfl⟩
    simp only [dif_pos named]
    rw [inj named.choose_spec.1 known named.choose_spec.2]
  · intro t unnamed
    refine dif_neg ?_
    rintro ⟨s, known, eq⟩
    exact unnamed s known eq

/-- Under other names dimensions resolve alike up to the names of free symbols. -/
lemma Renamed.exists_rename (renamed : Renamed P ρ b₁ b₂) :
    ∃ π : String → String, Set.InjOn π {s | b₁.Free s ∧ P s} ∧
      ∀ d : Dim, d.Within P → b₂.resolve (d.rename ρ) = (b₁.resolve d).rename π := by
  obtain ⟨ψ, read, other⟩ := exists_reading inj
  have cor : Corresponds b₁ b₂ P (fun s => .symbol (ρ s)) ψ := by
    refine ⟨fun τ satisfied => ?_, fun σ satisfied => ?_, fun σ s known satisfied => ?_,
      fun t free => ?_⟩
    · simp only [Dim.eval_symbol]
      exact (renamed.satisfies_iff τ).1 satisfied
    · refine (renamed.satisfies_iff _).2
        ((renamed.within.satisfies_congr fun s known => ?_).2 satisfied)
      rw [read s known, Dim.eval_symbol]
    · rw [Dim.eval_symbol, read s known, Dim.eval_symbol]
    · have satisfied := renamed.target.satisfies_extend (indicator t)
      refine ⟨_, (renamed.satisfies_iff _).1 satisfied, ?_⟩
      by_cases named : ∃ s, P s ∧ ρ s = t
      · obtain ⟨s, known, rfl⟩ := named
        rw [read s known, Dim.eval_symbol, extend_of_free free, indicator_self]
        exact Nat.one_pos
      · rw [other t fun s known eq => named ⟨s, known, eq⟩, Dim.eval_ofNat]
        exact Nat.one_pos
  obtain ⟨π, injective, same⟩ := cor.exists_rename renamed.source renamed.target
  exact ⟨π, injective, fun d covers => same d (renamed.within.resolve covers)⟩

/-- Dimensions unify under other names exactly when they unify. -/
lemma Renamed.unifyDim (renamed : Renamed P ρ b₁ b₂) {x y : Dim} (left : x.Within P)
    (right : y.Within P) :
    Option.Rel (Renamed P ρ) (b₁.unifyDim x y) (b₂.unifyDim (x.rename ρ) (y.rename ρ)) := by
  obtain ⟨π, injective, same⟩ := renamed.exists_rename inj
  have known : ∀ s, s ∈ (b₁.resolve x).symbols ∨ s ∈ (b₁.resolve y).symbols → b₁.Free s ∧ P s := by
    rintro s (mem | mem)
    · exact ⟨renamed.source.free_of_mem_resolve mem, renamed.within.resolve left s mem⟩
    · exact ⟨renamed.source.free_of_mem_resolve mem, renamed.within.resolve right s mem⟩
  have accepted : (b₁.unifyDim x y).isSome ↔ (b₂.unifyDim (x.rename ρ) (y.rename ρ)).isSome := by
    rw [Bindings.unifyDim, Bindings.unifyDim, isSome_solve_iff, isSome_solve_iff, same x left,
      same y right, solvable_rename_iff (injective.mono known)]
  refine rel_of_isSome_iff accepted fun b₁' b₂' first second => ?_
  have refines₁ := Refines.of_unifyDim renamed.source first
  have refines₂ := Refines.of_unifyDim renamed.target second
  refine ⟨refines₁.wellFormed, refines₂.wellFormed, renamed.within.unifyDim left right first,
    fun σ => ?_⟩
  rw [refines₂.satisfies_iff, renamed.satisfies_iff, refines₁.satisfies_iff, Dim.eval_rename,
    Dim.eval_rename]

/-- Unifying two dimensions follows a renaming. -/
lemma Renamed.follows : Follows P ρ (Renamed P ρ) fun _ _ => True where
  unifyDim renamed _ _ left right := renamed.unifyDim inj left right
  axis _ _ _ _ _ _ := trivial
  heads _ _ := trivial

/-- Types unify under other names exactly when they unify. -/
lemma Renamed.unify (renamed : Renamed P ρ b₁ b₂) {t c : PortType} (left : t.Within P)
    (right : c.Within P) :
    Option.Rel (Renamed P ρ) (b₁.unify? t c) (b₂.unify? (t.rename ρ) (c.rename ρ)) :=
  ((Renamed.follows inj).unify renamed left right).toOption

/-- Slots unify under other names exactly when they unify. -/
theorem Renamed.unifySlots (renamed : Renamed P ρ b₁ b₂) {slots : List (PortType × PortType)}
    (covers : ∀ p ∈ slots, p.1.Within P ∧ p.2.Within P) :
    Option.Rel (Renamed P ρ) (b₁.unifySlots? slots)
      (b₂.unifySlots? (slots.map fun p => (p.1.rename ρ, p.2.rename ρ))) :=
  ((Renamed.follows inj).unifySlots renamed covers).toOption

end Names

/-- Bindings that are satisfied by the same assignments accept the same slots. -/
lemma isSome_unifySlots?_congr {b₁ b₂ : Bindings} (wf₁ : b₁.WellFormed) (wf₂ : b₂.WellFormed)
    (same : ∀ σ, b₁.Satisfies σ ↔ b₂.Satisfies σ) (slots : List (PortType × PortType)) :
    (b₁.unifySlots? slots).isSome ↔ (b₂.unifySlots? slots).isSome := by
  have renamed : Renamed (fun _ => True) id b₁ b₂ :=
    ⟨wf₁, wf₂, fun _ _ => ⟨trivial, fun _ _ => trivial⟩, fun σ => (same σ).symm⟩
  have all : ∀ p ∈ slots, p.1.Within (fun _ => True) ∧ p.2.Within fun _ => True :=
    fun _ _ => ⟨fun _ _ _ _ => trivial, fun _ _ _ _ => trivial⟩
  have unified := renamed.unifySlots (Function.injective_id.injOn) all
  have keep : ∀ t : PortType, t.rename id = t := fun t => t.rename_eq_self fun _ _ _ _ => rfl
  simp only [keep, Prod.mk.eta, List.map_id'] at unified
  exact isSome_iff_of_rel unified

end Bindings

end OperatorNet
