import Mathlib.Logic.Relation
import OperatorNet.Proofs.Bindings.History
import OperatorNet.Proofs.Bindings.Walks

/-!
# Forests that come about

Whatever is done to the forest without symbols, one walk after the other, every walk ends, and the
forest is sound (`Forest.Sound`): links lead to roots, only roots carry a dimension, no root depends
on itself, and what is resolved is made of unbound roots and resolves to itself. A root that carries
a dimension stays as it is, and the forest answers like the bindings (`afterAll_sound`). An
assignment respects the links and the values of such a forest exactly if it satisfies the bindings
(`satisfies_afterAll_iff`).
-/

namespace OperatorNet

open Bindings

namespace Bindings

variable {b b' : Bindings}

/-- The bindings after a use of a forest that represents them. -/
def afterUse (b : Bindings) : Forest.Use → Bindings
  | .find s => b.meet [s]
  | .resolveSymbol s => b.meet [s]
  | .resolve d => b.meet d.symbols
  | .resolveType t => b.meet (t.shape.flatMap Dim.symbols)
  | .unifyDim x y => (b.unifyDim x y).getD (b.meetBoth x y)
  | .unify t c => (b.unify? t c).getD b
  | .unifySlots slots => (b.unifySlots? slots).getD b
  | .copy => b

/-- Unifying dimensions keeps what is solved. -/
lemma solved_subset_of_unifyDim {x y : Dim} (unified : b.unifyDim x y = some b') :
    b.solved ⊆ b'.solved := by
  rcases solve_cases unified with ⟨-, rfl⟩ | ⟨s, e, -, rfl⟩
  · exact fun _ mem => mem
  · exact fun _ mem => List.mem_append_left _ mem

/-- Unifying axes keeps what is solved. -/
lemma solved_subset_of_unifyAxes {place : Nat} {axes : List (Dim × Dim)}
    (unified : b.unifyAxes place axes = .ok b') : b.solved ⊆ b'.solved := by
  induction axes generalizing b place with
  | nil =>
    cases unified
    exact fun _ mem => mem
  | cons p rest ih =>
    rw [unifyAxes] at unified
    split at unified
    next b₁ first => exact fun _ mem => ih unified (solved_subset_of_unifyDim first mem)
    next => cases unified

/-- Unifying types keeps what is solved. -/
lemma solved_subset_of_unify {t c : PortType} (unified : b.unify? t c = some b') :
    b.solved ⊆ b'.solved := by
  rw [unify?_eq] at unified
  split at unified
  next =>
    cases axes : b.unifyAxes 0 (t.shape.zip c.shape) with
    | error m =>
      rw [axes] at unified
      cases unified
    | ok b₁ =>
      rw [axes] at unified
      cases unified
      exact solved_subset_of_unifyAxes axes
  next => cases unified

/-- Unifying slots keeps what is solved. -/
lemma solved_subset_of_unifySlots {slots : List (PortType × PortType)}
    (unified : b.unifySlots? slots = some b') : b.solved ⊆ b'.solved := by
  induction slots generalizing b with
  | nil =>
    cases unified
    exact fun _ mem => mem
  | cons p rest ih =>
    rw [unifySlots?_cons, Option.bind_eq_some_iff] at unified
    obtain ⟨b₁, first, others⟩ := unified
    exact fun _ mem => ih others (solved_subset_of_unify first mem)

/-- No use takes back what is solved. -/
lemma solved_subset_afterUse (b : Bindings) (use : Forest.Use) :
    b.solved ⊆ (b.afterUse use).solved := by
  cases use with
  | unifyDim x y =>
    rw [afterUse]
    cases unified : b.unifyDim x y with
    | none => exact fun _ mem => mem
    | some b' => exact solved_subset_of_unifyDim unified
  | unify t c =>
    rw [afterUse]
    cases unified : b.unify? t c with
    | none => exact fun _ mem => mem
    | some b' => exact solved_subset_of_unify unified
  | unifySlots slots =>
    rw [afterUse]
    cases unified : b.unifySlots? slots with
    | none => exact fun _ mem => mem
    | some b' => exact solved_subset_of_unifySlots unified
  | find | resolveSymbol | resolve | resolveType | copy => exact fun _ mem => mem

end Bindings

namespace Forest

variable {F F' : Forest} {b : Bindings} {r s t : String} {d e : Dim}

/-- What every forest is like that has come about by walks. -/
structure Sound (F : Forest) : Prop where
  /-- The links from a symbol that has been met end at a root. -/
  ends : ∀ s p, F.parent s = some p → ∃ r, F.Leads s r ∧ F.parent r = some r
  /-- Only roots carry a dimension. -/
  carriers : ∀ s e, F.value s = some e → F.parent s = some s
  acyclic : ∀ r, ¬ Relation.TransGen F.Depends r r
  finds : ∀ s, ∃ r F', find s F = some (r, F') ∧ F'.Leads s r
  stands : ∀ s, ∃ e F', resolveSymbol s F = some (e, F')
  resolves : ∀ d, ∃ e F', resolve d F = some (e, F')
  unifies : ∀ x y, ∃ done F', unifyDim x y F = some (done, F')
  /-- What is resolved is made of unbound roots, each at least once, and resolves to itself. -/
  resolved : ∀ d e F', resolve d F = some (e, F') →
    (∀ p ∈ e.terms, F'.Unbound p.1 ∧ 0 < p.2) ∧ ∃ F'', resolve e F' = some (e, F'')

/-- Where the parents lead to is its own parent. -/
lemma Leads.parent_end (leads : F.Leads s r) : F.parent r = some r := by
  induction leads with
  | root parent => exact parent
  | step _ _ _ ih => exact ih

namespace Represents

variable (rep : F.Represents b)

include rep

/-- A free symbol that has been met is an unbound root. -/
lemma unbound (known : s ∈ b.known) (free : b.Free s) : F.Unbound s := by
  constructor
  · obtain ⟨p, parent⟩ := (rep.met s).1 known
    by_contra other
    have linked : p ≠ s := fun self => other (self ▸ parent)
    obtain ⟨-, upward, -⟩ := rep.upward s p parent linked
    rw [place_of_free free] at upward
    exact absurd upward (b.place_le_length p).not_gt
  · cases value : F.value s with
    | none => rfl
    | some e => exact absurd (List.mem_map_of_mem ((rep.value s e).1 value).1) free

/-- A symbol with a value is its own parent. -/
lemma parent_of_value (value : F.value s = some e) : F.parent s = some s := by
  obtain ⟨mem, kind⟩ := (rep.value s e).1 value
  obtain ⟨p, parent⟩ := (rep.met s).1 (rep.closed s e mem).1
  by_contra other
  have linked : p ≠ s := fun self => other (self ▸ parent)
  obtain ⟨-, upward, same⟩ := rep.upward s p parent linked
  have above := rep.wellFormed.place_le_root p
  rw [same, rep.wellFormed.root_of_value mem kind] at above
  omega

/-- The parents lead to the root, and to no place before the symbol's. -/
lemma root_of_leads (leads : F.Leads s r) : b.root s = r ∧ b.place s ≤ b.place r := by
  induction leads with
  | root parent => exact ⟨rep.self _ parent, le_rfl⟩
  | step parent ne _ ih =>
    obtain ⟨-, upward, same⟩ := rep.upward _ _ parent ne
    exact ⟨same ▸ ih.1, upward.le.trans ih.2⟩

/-- The links from a symbol that has been met end. -/
lemma leads_root (known : s ∈ b.known) : F.Leads s (b.root s) := by
  induction s using place_induction (b := b) with
  | _ s ih =>
    obtain ⟨p, parent⟩ := (rep.met s).1 known
    by_cases self : p = s
    · rw [rep.self s (self ▸ parent)]
      exact .root (self ▸ parent)
    · obtain ⟨known', upward, same⟩ := rep.upward s p parent self
      rw [← same]
      exact .step parent self (ih p upward known')

/-- What the value of a root depends on is solved after it, or free. -/
lemma place_lt_of_depends (depends : Relation.TransGen F.Depends r t) : b.place r < b.place t := by
  have one : ∀ r t, F.Depends r t → b.place r < b.place t := by
    rintro r t ⟨e, value, s, occurs, leads⟩
    have mem := ((rep.value r e).1 value).1
    exact lt_of_lt_of_le (rep.wellFormed.place_lt_of_mem_symbols mem occurs)
      (rep.root_of_leads leads).2
  induction depends with
  | single step => exact one _ _ step
  | tail _ step ih => exact ih.trans (one _ _ step)

/-- A forest that represents bindings is sound. -/
lemma sound : F.Sound where
  ends s p parent := by
    have leads := rep.leads_root ((rep.met s).2 ⟨p, parent⟩)
    exact ⟨b.root s, leads, leads.parent_end⟩
  carriers s e := rep.parent_of_value
  acyclic r cycle := lt_irrefl _ (rep.place_lt_of_depends cycle)
  finds s := by
    obtain ⟨F', done, rep'⟩ := find_gives rep s
    exact ⟨_, F', done, rep'.leads_root (mem_known_meet.2 (.inr (by simp)))⟩
  stands s := by
    obtain ⟨F', done, -⟩ := resolveSymbol_gives rep s
    exact ⟨_, F', done⟩
  resolves d := by
    obtain ⟨F', done, -⟩ := resolve_gives rep d
    exact ⟨_, F', done⟩
  unifies x y := by
    obtain ⟨F', done, -⟩ := unifyDim_gives rep x y
    exact ⟨_, F', done⟩
  resolved d e F' done := by
    obtain ⟨F₁, done', rep'⟩ := resolve_gives rep d
    obtain ⟨rfl, rfl⟩ := Prod.mk.inj (Option.some.inj (done'.symm.trans done))
    constructor
    · intro p hp
      have occurs : p.1 ∈ (b.resolve d).symbols := List.mem_map_of_mem hp
      have known : p.1 ∈ (b.meet d.symbols).known :=
        mem_known_meet.2 (rep.known_of_mem_resolve occurs).symm
      exact ⟨rep'.unbound known (rep.wellFormed.free_of_mem_resolve occurs),
        (b.resolve d).positive p hp⟩
    -- the answer holds free symbols only, so resolving it again changes nothing
    · obtain ⟨F₂, again, -⟩ := resolve_gives rep' (b.resolve d)
      have same : (b.meet d.symbols).resolve (b.resolve d) = b.resolve d :=
        rep.wellFormed.resolve_resolve d
      rw [same] at again
      exact ⟨F₂, again⟩

/-- A forest that represents bindings has the same solutions. -/
lemma satisfies_iff {σ : String → Nat} : F.Satisfies σ ↔ b.Satisfies σ := by
  constructor
  · rintro ⟨links, values⟩ ⟨s, e⟩ mem
    have up : ∀ {t r}, F.Leads t r → σ t = σ r := by
      intro t r leads
      induction leads with
      | root => rfl
      | step parent _ _ ih => exact (links _ _ parent).trans ih
    cases kind : e.symbol? with
    | none => exact values s e ((rep.value s e).2 ⟨mem, kind⟩)
    | some t =>
      -- links may have been shortened since, but they still lead to the same root
      obtain rfl := Dim.symbol?_eq_some_iff.1 kind
      obtain ⟨known, symbols⟩ := rep.closed s _ mem
      have one := up (rep.leads_root known)
      have other := up (rep.leads_root (symbols t (by simp)))
      rw [rep.wellFormed.root_of_link mem] at one
      exact (one.trans other.symm).trans (Dim.eval_symbol ..).symm
  · refine fun satisfied => ⟨fun s p parent => ?_, fun s e value => ?_⟩
    · by_cases self : p = s
      · rw [self]
      · obtain ⟨-, -, same⟩ := rep.upward s p parent self
        rw [← satisfied.eq_root rep.wellFormed s, ← same, satisfied.eq_root rep.wellFormed p]
    · exact satisfied _ ((rep.value s e).1 value).1

/-- A walk on a copy leaves a forest that represents the bindings it has led to. -/
lemma staged_eq_some {walk : Walk (Option Mismatch)} {result : Except Mismatch Bindings}
    (fits : Fits walk F result) :
    ∃ F', F.staged walk = some F' ∧ F'.Represents (result.toOption.getD b) := by
  obtain ⟨failure, F₁, done, ends⟩ := fits
  have stages : F.staged walk = some (if failure.isNone then F₁ else F) := by
    rw [staged, done]
    rfl
  rw [stages]
  cases result with
  | ok b₁ =>
    obtain ⟨rfl, rep₁⟩ := ends
    exact ⟨F₁, rfl, rep₁⟩
  | error m =>
    subst ends
    exact ⟨F, rfl, rep⟩

/-- Each use of a forest ends, with a forest for the bindings after it. -/
lemma after_eq_some (use : Use) :
    ∃ F', F.after use = some F' ∧ F'.Represents (b.afterUse use) := by
  have walks : ∀ {β : Type} {walk : Walk β} {x : β} {b' : Bindings}, Gives walk F x b' →
      ∃ F', (walk F).map Prod.snd = some F' ∧ F'.Represents b' := by
    rintro β walk x b' ⟨F', done, rep'⟩
    exact ⟨F', by rw [done]; rfl, rep'⟩
  cases use with
  | find s => exact walks (find_gives rep s)
  | resolveSymbol s => exact walks (resolveSymbol_gives rep s)
  | resolve d => exact walks (resolve_gives rep d)
  | resolveType t =>
    exact walks ((resolveAxes_gives rep t.shape).bind fun F' rep' => pure_gives rep')
  | unifyDim x y => exact walks (unifyDim_gives rep x y)
  | unify t c => exact rep.staged_eq_some (unifyInto_fits rep t c)
  | unifySlots slots => exact rep.staged_eq_some (unifyAll_fits rep slots)
  | copy => exact ⟨F, rfl, rep⟩

/-- Uses one after the other end and leave a forest that represents the bindings afterwards. -/
lemma afterAll_eq_some (uses : List Use) :
    ∃ F', F.afterAll uses = some F' ∧ F'.Represents (uses.foldl afterUse b) ∧
      b.solved ⊆ (uses.foldl afterUse b).solved := by
  induction uses generalizing F b with
  | nil => exact ⟨F, rfl, rep, fun _ mem => mem⟩
  | cons use rest ih =>
    obtain ⟨F₁, first, rep₁⟩ := rep.after_eq_some use
    obtain ⟨F₂, others, rep₂, kept⟩ := ih rep₁
    refine ⟨F₂, ?_, rep₂, fun _ mem => kept (b.solved_subset_afterUse use mem)⟩
    rw [afterAll, List.foldlM_cons, first]
    exact others

end Represents

/-- The use of a forest that does what a use of bindings does. -/
def Use.ofBindings : Bindings.Use → Use
  | .look s => .find s
  | .resolve d => .resolve d
  | .unify x y => .unifyDim x y
  | .copy => .copy

/-- A use of bindings does to them what the use of a forest does. -/
lemma afterUse_ofBindings (b : Bindings) (use : Bindings.Use) :
    b.afterUse (.ofBindings use) = b.after use := by
  cases use <;> rfl

/-- The assignments that satisfy the bindings after some uses are those that respect the links and
the values of the forest after the same uses. -/
theorem satisfies_afterAll_iff (uses : List Bindings.Use) :
    ∃ F, empty.afterAll (uses.map .ofBindings) = some F ∧
      ∀ σ, F.Satisfies σ ↔ (Bindings.empty.afterAll uses).Satisfies σ := by
  obtain ⟨F, done, rep, -⟩ := represents_empty.afterAll_eq_some (uses.map .ofBindings)
  rw [List.foldl_map] at rep
  simp only [afterUse_ofBindings] at rep
  exact ⟨F, done, fun _ => rep.satisfies_iff⟩

/-- Whatever is done to the forest without symbols, it ends, and the forest is sound: links lead to
roots, only roots carry a dimension, no root depends on itself, looking up, resolving and unifying
end, and resolving gives unbound roots and is idempotent. A root that carries a dimension keeps it
and never gets another parent, and the forest answers like the bindings after the same uses. -/
theorem afterAll_sound (uses : List Use) :
    ∃ F, empty.afterAll uses = some F ∧ F.Sound ∧
      (∀ later F', F.afterAll later = some F' → ∀ s e, F.value s = some e →
        F'.parent s = some s ∧ F'.value s = some e) ∧
      let b := uses.foldl afterUse .empty
      (∀ s, (find s F).map Prod.fst = some (b.root s)) ∧
      (∀ d, (resolve d F).map Prod.fst = some (b.resolve d)) ∧
      ∀ x y, (unifyDim x y F).map Prod.fst = some (b.unifyDim x y).isSome := by
  obtain ⟨F, done, rep, -⟩ := represents_empty.afterAll_eq_some uses
  refine ⟨F, done, rep.sound, ?_, fun s => ?_, fun d => ?_, fun x y => ?_⟩
  · intro later F' goes s e value
    obtain ⟨F₁, goes', rep', kept⟩ := rep.afterAll_eq_some later
    obtain rfl := Option.some.inj (goes'.symm.trans goes)
    obtain ⟨mem, kind⟩ := (rep.value s e).1 value
    have still : F₁.value s = some e := (rep'.value s e).2 ⟨kept mem, kind⟩
    exact ⟨rep'.parent_of_value still, still⟩
  · obtain ⟨F₁, found, -⟩ := find_gives rep s
    rw [found]
    rfl
  · obtain ⟨F₁, found, -⟩ := resolve_gives rep d
    rw [found]
    rfl
  · obtain ⟨F₁, found, -⟩ := unifyDim_gives rep x y
    rw [found]
    rfl

end Forest

end OperatorNet
