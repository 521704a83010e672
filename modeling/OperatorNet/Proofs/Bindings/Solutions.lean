import Mathlib.Logic.ExistsUnique
import OperatorNet.Bindings.Basic
import OperatorNet.Proofs.Dim.Meaning

/-!
# Solutions of bindings

Bindings are well formed (`Bindings.WellFormed`) when no solved symbol stands for itself or for a
symbol solved before it. Then every choice of values for the free symbols extends to exactly one
assignment that satisfies the bindings (`existsUnique_satisfies`), and two dimensions resolve to the
same dimension exactly when they are equal under every such assignment (`resolve_eq_iff`). These two
facts are all that later modules use about how bindings are represented.
-/

namespace OperatorNet

/-- Putting something in for a symbol that does not occur changes nothing. -/
lemma Dim.substitute_onlySymbol {d e : Dim} {s : String} (absent : s ∉ d.symbols) :
    d.substitute (onlySymbol s e) = d := by
  conv_rhs => rw [← d.substitute_symbol]
  refine Dim.substitute_congr fun t ht => ?_
  have ne : t ≠ s := fun eq => absent (eq ▸ ht)
  simp [onlySymbol, ne]

/-- A replaced symbol occurs only where the replacement brings it in. -/
lemma Dim.mem_symbols_onlySymbol {d e : Dim} {s t : String}
    (mem : t ∈ (d.substitute (onlySymbol s e)).symbols) :
    t ∈ e.symbols ∨ (t ∈ d.symbols ∧ t ≠ s) := by
  obtain ⟨u, hu, ht⟩ := Dim.mem_symbols_substitute.1 mem
  by_cases eq : u = s
  · subst eq
    exact .inl (by simpa [onlySymbol] using ht)
  · simp only [onlySymbol, eq, if_false, Dim.symbols_symbol, List.mem_singleton] at ht
    subst ht
    exact .inr ⟨hu, eq⟩

namespace Bindings

/-- The symbols that stand for something. -/
def solvedSymbols (b : Bindings) : List String :=
  b.solved.map Prod.fst

/-- A symbol that stands for nothing but itself. -/
def Free (b : Bindings) (s : String) : Prop :=
  s ∉ b.solvedSymbols

/-- No solved symbol stands for itself or for a symbol that was solved before it. -/
structure WellFormed (b : Bindings) : Prop where
  apart : b.solved.Pairwise fun p q => p.1 ≠ q.1 ∧ p.1 ∉ q.2.symbols
  proper : ∀ p ∈ b.solved, p.1 ∉ p.2.symbols

/-- Empty bindings are well formed. -/
lemma WellFormed.empty : empty.WellFormed :=
  ⟨.nil, nofun⟩

/-- Bindings that know nothing are satisfied by everything. -/
@[simp] lemma satisfies_empty (σ : String → Nat) : empty.Satisfies σ :=
  nofun

/-- Replacing symbols one after the other, oldest first. -/
def replaceAll (l : List (String × Dim)) (d : Dim) : Dim :=
  l.foldl (fun acc p => acc.substitute (onlySymbol p.1 p.2)) d

/-- The first of some replacements is made first. -/
lemma replaceAll_cons (p : String × Dim) (rest : List (String × Dim)) (d : Dim) :
    replaceAll (p :: rest) d = replaceAll rest (d.substitute (onlySymbol p.1 p.2)) :=
  rfl

/-- A dimension is resolved by making the replacements of the solved symbols in turn. -/
lemma resolve_eq_replaceAll (b : Bindings) (d : Dim) : b.resolve d = replaceAll b.solved d :=
  rfl

/-- Replacements of symbols that do not occur change nothing. -/
lemma replaceAll_of_disjoint {l : List (String × Dim)} {d : Dim}
    (disjoint : ∀ p ∈ l, p.1 ∉ d.symbols) : replaceAll l d = d := by
  induction l with
  | nil => rfl
  | cons p rest ih =>
    rw [replaceAll_cons, Dim.substitute_onlySymbol (disjoint p (by simp))]
    exact ih fun q hq => disjoint q (by simp [hq])

/-- A symbol that occurs nowhere is not brought in. -/
lemma notMem_symbols_replaceAll {l : List (String × Dim)} {d : Dim} {s : String}
    (absent : s ∉ d.symbols) (fresh : ∀ p ∈ l, s ∉ p.2.symbols) :
    s ∉ (replaceAll l d).symbols := by
  induction l generalizing d with
  | nil => exact absent
  | cons p rest ih =>
    refine ih ?_ fun q hq => fresh q (by simp [hq])
    intro mem
    rcases Dim.mem_symbols_onlySymbol mem with new | old
    · exact fresh p (by simp) new
    · exact absent old.1

/-- After replacements a dimension has the value it has where each symbol has the value of its own
replacement. -/
lemma eval_replaceAll (σ : String → Nat) (l : List (String × Dim)) (d : Dim) :
    (replaceAll l d).eval σ = d.eval fun s => (replaceAll l (.symbol s)).eval σ := by
  have meaning : ∃ τ : String → Nat, ∀ e, (replaceAll l e).eval σ = e.eval τ := by
    induction l with
    | nil => exact ⟨σ, fun _ => rfl⟩
    | cons p rest ih =>
      obtain ⟨τ, hτ⟩ := ih
      exact ⟨fun s => (onlySymbol p.1 p.2 s).eval τ, fun e =>
        (hτ _).trans (Dim.eval_substitute τ _ e)⟩
  obtain ⟨τ, hτ⟩ := meaning
  rw [hτ]
  congr 1
  funext s
  rw [hτ, Dim.eval_symbol]

/-- The values that the free symbols give to all symbols. -/
def extend (b : Bindings) (σ : String → Nat) : String → Nat :=
  fun s => (b.resolve (.symbol s)).eval σ

/-- A resolved dimension has the value of the dimension where the solved symbols have their
solutions. -/
lemma eval_resolve_eq_extend (b : Bindings) (σ : String → Nat) (d : Dim) :
    (b.resolve d).eval σ = d.eval (b.extend σ) :=
  eval_replaceAll σ b.solved d

/-- Resolving a dimension is resolving each of its symbols. -/
lemma substitute_resolve_symbol (b : Bindings) (d : Dim) :
    d.substitute (fun s => b.resolve (.symbol s)) = b.resolve d := by
  apply Dim.eval_ext
  intro σ
  simp only [Dim.eval_substitute, eval_resolve_eq_extend, Dim.eval_symbol]

/-- A free symbol resolves to itself. -/
lemma resolve_symbol_of_free {b : Bindings} {s : String} (free : b.Free s) :
    b.resolve (.symbol s) = .symbol s := by
  refine replaceAll_of_disjoint fun p hp eq => free ?_
  rw [Dim.symbols_symbol, List.mem_singleton] at eq
  exact eq ▸ List.mem_map_of_mem hp

/-- A dimension of free symbols resolves to itself. -/
lemma resolve_of_free {b : Bindings} {d : Dim} (free : ∀ s ∈ d.symbols, b.Free s) :
    b.resolve d = d :=
  replaceAll_of_disjoint fun _ hp mem => free _ mem (List.mem_map_of_mem hp)

/-- Free symbols keep the sizes that they are given. -/
lemma extend_of_free {b : Bindings} {σ : String → Nat} {s : String} (free : b.Free s) :
    b.extend σ s = σ s := by
  rw [extend, resolve_symbol_of_free free, Dim.eval_symbol]

namespace WellFormed

variable {b : Bindings} (wf : b.WellFormed)

include wf

/-- Only free symbols are left in a resolved dimension. -/
lemma free_of_mem_resolve {d : Dim} {s : String} (mem : s ∈ (b.resolve d).symbols) : b.Free s := by
  have key : ∀ (l : List (String × Dim)) (d : Dim),
      (l.Pairwise fun p q => p.1 ≠ q.1 ∧ p.1 ∉ q.2.symbols) → (∀ p ∈ l, p.1 ∉ p.2.symbols) →
      ∀ p ∈ l, p.1 ∉ (replaceAll l d).symbols := by
    intro l
    induction l with
    | nil => intro _ _ _ _ hp; cases hp
    | cons q rest ih =>
      intro d apart proper p hp
      rw [List.pairwise_cons] at apart
      rcases List.mem_cons.1 hp with rfl | hp
      · rw [replaceAll_cons]
        refine notMem_symbols_replaceAll ?_ fun r hr => (apart.1 r hr).2
        intro again
        rcases Dim.mem_symbols_onlySymbol again with new | old
        · exact proper p (by simp) new
        · exact old.2 rfl
      · exact ih _ apart.2 (fun r hr => proper r (by simp [hr])) p hp
  intro solved
  obtain ⟨p, hp, rfl⟩ := List.mem_map.1 solved
  exact key b.solved d wf.apart wf.proper p hp mem

/-- A solved symbol and its solution are resolved alike. -/
lemma resolve_symbol_of_mem {p : String × Dim} (mem : p ∈ b.solved) :
    b.resolve (.symbol p.1) = b.resolve p.2 := by
  have apart := wf.apart
  obtain ⟨before, after, split⟩ := List.append_of_mem mem
  rw [resolve_eq_replaceAll, resolve_eq_replaceAll, split]
  rw [split, List.pairwise_append] at apart
  -- Nothing that was solved before touches the symbol or what it stands for.
  have earlier : ∀ q ∈ before, q.1 ≠ p.1 ∧ q.1 ∉ p.2.symbols := fun q hq =>
    apart.2.2 q hq p (by simp)
  have symbolStays : replaceAll before (.symbol p.1) = .symbol p.1 :=
    replaceAll_of_disjoint fun q hq => by simpa using (earlier q hq).1
  have valueStays : replaceAll before p.2 = p.2 :=
    replaceAll_of_disjoint fun q hq => (earlier q hq).2
  have append : ∀ d, replaceAll (before ++ p :: after) d =
      replaceAll after ((replaceAll before d).substitute (onlySymbol p.1 p.2)) := by
    intro d
    rw [replaceAll, List.foldl_append, List.foldl_cons]
    rfl
  rw [append, append, symbolStays, valueStays, Dim.symbol_substitute,
    Dim.substitute_onlySymbol (wf.proper p mem)]
  simp only [onlySymbol, if_true]

/-- The values that the free symbols give to all symbols satisfy the bindings. -/
lemma satisfies_extend (σ : String → Nat) : b.Satisfies (b.extend σ) := by
  intro p hp
  rw [← eval_resolve_eq_extend, ← wf.resolve_symbol_of_mem hp]
  rfl

/-- The value of a resolved dimension depends on the free symbols only. -/
lemma eval_resolve_congr {σ τ : String → Nat} (same : ∀ s, b.Free s → σ s = τ s) (d : Dim) :
    (b.resolve d).eval σ = (b.resolve d).eval τ :=
  Dim.eval_congr fun s hs => same s (wf.free_of_mem_resolve hs)

/-- Any choice of values for the free symbols extends to exactly one assignment that satisfies the
bindings. -/
theorem existsUnique_satisfies (σ : String → Nat) :
    ∃! τ, b.Satisfies τ ∧ ∀ s, b.Free s → τ s = σ s := by
  refine ⟨b.extend σ, ⟨wf.satisfies_extend σ, fun s free => extend_of_free free⟩, ?_⟩
  rintro τ ⟨satisfied, same⟩
  funext s
  rw [extend, ← wf.eval_resolve_congr same, eval_resolve satisfied, Dim.eval_symbol]

/-- Well formed bindings can be satisfied. -/
lemma satisfiable : ∃ σ, b.Satisfies σ :=
  ⟨_, wf.satisfies_extend fun _ => 0⟩

/-- Two dimensions resolve alike exactly when they are equal under every assignment that satisfies
the bindings. -/
theorem resolve_eq_iff {x y : Dim} :
    b.resolve x = b.resolve y ↔ ∀ σ, b.Satisfies σ → x.eval σ = y.eval σ := by
  constructor
  · intro eq σ satisfied
    rw [← eval_resolve satisfied x, eq, eval_resolve satisfied y]
  · intro same
    apply Dim.eval_ext
    intro σ
    rw [eval_resolve_eq_extend, eval_resolve_eq_extend]
    exact same _ (wf.satisfies_extend σ)

/-- What is resolved resolves to itself. -/
lemma resolve_resolve (d : Dim) : b.resolve (b.resolve d) = b.resolve d :=
  resolve_of_free fun _ => wf.free_of_mem_resolve

end WellFormed

end Bindings

end OperatorNet
