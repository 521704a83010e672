import Mathlib.Data.List.Nodup
import Mathlib.Data.Set.Function
import OperatorNet.Dim.Basic

/-!
# Meaning of dimensions

A dimension is the same as its values: two canonical sums that evaluate alike under every assignment
of natural numbers are equal (`Dim.eval_ext`). Every law of sums and substitutions follows from this
and from what the operations mean. `Dim.coeff` is the multiplicity of a symbol, read off the values.
-/

namespace OperatorNet

/-- The assignment under which one symbol counts one and all others nothing. -/
def indicator (s t : String) : Nat :=
  if t = s then 1 else 0

/-- A symbol has the size one in its own indicator. -/
@[simp] lemma indicator_self (s : String) : indicator s s = 1 := by
  simp [indicator]

/-- All other symbols have the size zero in an indicator. -/
lemma indicator_of_ne {s t : String} (ne : t ≠ s) : indicator s t = 0 := by
  simp [indicator, ne]

/-- Terms without a symbol are worth nothing in its indicator. -/
lemma evalTerms_indicator_of_notMem {s : String} {l : List (String × Nat)}
    (absent : s ∉ l.map Prod.fst) : evalTerms (indicator s) l = 0 := by
  induction l with
  | nil => rfl
  | cons p rest ih =>
    simp only [List.map_cons, List.mem_cons, not_or] at absent
    rw [evalTerms, indicator_of_ne (Ne.symm absent.1), ih absent.2, Nat.mul_zero]

/-- A symbol that occurs once contributes its multiplicity. -/
lemma evalTerms_indicator_of_mem {s : String} {n : Nat} {l : List (String × Nat)}
    (ascending : (l.map Prod.fst).Pairwise (· < ·)) (mem : (s, n) ∈ l) :
    evalTerms (indicator s) l = n := by
  induction l with
  | nil => cases mem
  | cons p rest ih =>
    rw [List.map_cons, List.pairwise_cons] at ascending
    rw [evalTerms]
    rcases List.mem_cons.1 mem with rfl | later
    · have absent : s ∉ rest.map Prod.fst := fun h => String.lt_irrefl s (ascending.1 s h)
      rw [evalTerms_indicator_of_notMem absent, indicator_self, Nat.mul_one, Nat.add_zero]
    · have before : p.1 < s := ascending.1 s (List.mem_map_of_mem later)
      have ne : p.1 ≠ s := fun e => String.lt_irrefl s (e ▸ before)
      rw [indicator_of_ne ne, ih ascending.2 later, Nat.mul_zero, Nat.zero_add]

/-- The value of terms depends on the sizes of their symbols only. -/
lemma evalTerms_congr {σ τ : String → Nat} {l : List (String × Nat)}
    (same : ∀ s ∈ l.map Prod.fst, σ s = τ s) : evalTerms σ l = evalTerms τ l := by
  induction l with
  | nil => rfl
  | cons p rest ih =>
    rw [evalTerms, evalTerms, same p.1 (by simp), ih fun s hs => same s (by simp [hs])]

/-- No term is worth more than all of them. -/
lemma le_evalTerms {σ : String → Nat} {p : String × Nat} {l : List (String × Nat)} (mem : p ∈ l) :
    p.2 * σ p.1 ≤ evalTerms σ l := by
  induction l with
  | nil => cases mem
  | cons q rest ih =>
    rw [evalTerms]
    rcases List.mem_cons.1 mem with rfl | later
    · omega
    · have := ih later
      omega

namespace Dim

/-- The multiplicity of a symbol. -/
def coeff (d : Dim) (s : String) : Nat :=
  evalTerms (indicator s) d.terms

/-- Symbols are listed once. -/
lemma nodup_symbols (d : Dim) : d.symbols.Nodup :=
  d.ascending.imp fun {s t} (lt : s < t) (e : s = t) => String.lt_irrefl t (e ▸ lt)

/-- The terms of a dimension are the symbols with positive multiplicities. -/
lemma mem_terms_iff {d : Dim} {s : String} {n : Nat} :
    (s, n) ∈ d.terms ↔ d.coeff s = n ∧ 0 < n := by
  constructor
  · intro mem
    exact ⟨evalTerms_indicator_of_mem d.ascending mem, d.positive _ mem⟩
  · rintro ⟨rfl, positive⟩
    by_contra absent
    have missing : s ∉ d.terms.map Prod.fst := by
      intro h
      obtain ⟨q, hq, rfl⟩ := List.mem_map.1 h
      exact absent (by rw [coeff, evalTerms_indicator_of_mem d.ascending hq]; exact hq)
    rw [coeff, evalTerms_indicator_of_notMem missing] at positive
    exact Nat.lt_irrefl 0 positive

/-- A symbol occurs when its multiplicity is not zero. -/
lemma mem_symbols_iff {d : Dim} {s : String} : s ∈ d.symbols ↔ d.coeff s ≠ 0 := by
  constructor
  · intro mem
    obtain ⟨⟨t, n⟩, hp, rfl⟩ := List.mem_map.1 mem
    have := mem_terms_iff.1 hp
    simp only
    omega
  · intro ne
    exact List.mem_map_of_mem (f := Prod.fst) (mem_terms_iff.2 ⟨rfl, Nat.pos_of_ne_zero ne⟩)

/-- With all symbols at zero only the number is left. -/
lemma eval_zero (d : Dim) : d.eval (fun _ => 0) = d.const := by
  have nothing : ∀ l : List (String × Nat), evalTerms (fun _ => 0) l = 0 := by
    intro l
    induction l with
    | nil => rfl
    | cons p rest ih => rw [evalTerms, ih, Nat.mul_zero]
  rw [eval, nothing, Nat.zero_add]

/-- With one symbol at one the multiplicity of that symbol comes in. -/
lemma eval_indicator (d : Dim) (s : String) : d.eval (indicator s) = d.coeff s + d.const :=
  rfl

/-- Dimensions with the same multiplicities and number are equal. -/
lemma ext_coeff {a b : Dim} (terms : ∀ s, a.coeff s = b.coeff s) (const : a.const = b.const) :
    a = b := by
  have sameTerms : a.terms = b.terms := by
    have nodup : ∀ d : Dim, d.terms.Nodup := fun d => d.nodup_symbols.of_map
    have perm : a.terms.Perm b.terms := by
      rw [List.perm_ext_iff_of_nodup (nodup a) (nodup b)]
      rintro ⟨s, n⟩
      rw [mem_terms_iff, mem_terms_iff, terms]
    refine perm.eq_of_pairwise ?_ (List.pairwise_map.1 a.ascending)
      (List.pairwise_map.1 b.ascending)
    intro p q _ _ lt gt
    exact absurd (String.lt_trans lt gt) (String.lt_irrefl _)
  cases a
  cases b
  simp only at sameTerms const
  subst sameTerms const
  rfl

/-- Dimensions that evaluate alike under every assignment are equal. -/
theorem eval_ext {a b : Dim} (same : ∀ σ, a.eval σ = b.eval σ) : a = b := by
  have const : a.const = b.const := by
    rw [← a.eval_zero, ← b.eval_zero, same]
  refine ext_coeff (fun s => ?_) const
  have := same (indicator s)
  rw [eval_indicator, eval_indicator] at this
  omega

/-- Only the values of the symbols that occur matter. -/
lemma eval_congr {σ τ : String → Nat} {d : Dim} (same : ∀ s ∈ d.symbols, σ s = τ s) :
    d.eval σ = d.eval τ := by
  rw [eval, eval, evalTerms_congr same]

/-- A symbol that occurs is not larger than the dimension. -/
lemma le_eval_of_mem {d : Dim} {s : String} (σ : String → Nat) (mem : s ∈ d.symbols) :
    σ s ≤ d.eval σ := by
  obtain ⟨⟨t, n⟩, hp, rfl⟩ := List.mem_map.1 mem
  have least := le_evalTerms (σ := σ) hp
  have positive := d.positive _ hp
  have := Nat.le_mul_of_pos_left (σ t) positive
  simp only at least this ⊢
  rw [eval]
  omega

/-- The number in a dimension is not larger than the dimension. -/
lemma const_le_eval (d : Dim) (σ : String → Nat) : d.const ≤ d.eval σ := by
  rw [eval]
  omega

/-- A positive dimension without a number has a symbol. -/
lemma exists_mem_symbols {d : Dim} {σ : String → Nat} (const : d.const = 0)
    (positive : 0 < d.eval σ) : ∃ s, s ∈ d.symbols := by
  rw [eval, const] at positive
  unfold symbols
  cases terms : d.terms with
  | nil =>
    rw [terms] at positive
    exact absurd positive (Nat.lt_irrefl 0)
  | cons p rest => exact ⟨p.1, by simp⟩

/-- A dimension without a number that is one at positive sizes is one symbol. -/
lemma eq_symbol_of_eval_eq_one {d : Dim} {σ : String → Nat} (const : d.const = 0)
    (one : d.eval σ = 1) (live : ∀ s ∈ d.symbols, 0 < σ s) : ∃ s, d = symbol s := by
  have term : ∀ p ∈ d.terms, 0 < p.2 * σ p.1 := fun p hp =>
    Nat.mul_pos (d.positive p hp) (live p.1 (List.mem_map_of_mem hp))
  obtain ⟨terms, number, ascending, positive⟩ := d
  simp only [eval] at const one term
  subst const
  cases terms with
  | nil => cases one
  | cons p rest =>
    have first := term p (by simp)
    rw [evalTerms] at one
    cases rest with
    | nil =>
      obtain ⟨s, n⟩ := p
      rw [evalTerms, Nat.add_zero] at one
      obtain rfl : n = 1 := Nat.eq_one_of_mul_eq_one_right one
      exact ⟨s, rfl⟩
    | cons q more =>
      have second := term q (by simp)
      rw [evalTerms] at one
      omega

/-- A number has no symbols. -/
@[simp] lemma symbols_ofNat (n : Nat) : (ofNat n).symbols = [] :=
  rfl

/-- A symbol has itself as its only symbol. -/
@[simp] lemma symbols_symbol (s : String) : (symbol s).symbols = [s] :=
  rfl

/-- The number in a sum is the sum of the numbers. -/
lemma const_add (a b : Dim) : (a + b).const = a.const + b.const := by
  rw [← eval_zero, eval_add, eval_zero, eval_zero]

/-- The multiplicity in a sum is the sum of the multiplicities. -/
lemma coeff_add (a b : Dim) (s : String) : (a + b).coeff s = a.coeff s + b.coeff s := by
  have value := eval_add (indicator s) a b
  rw [eval_indicator, eval_indicator, eval_indicator, const_add] at value
  omega

/-- A sum has the symbols of both parts. -/
lemma mem_symbols_add {a b : Dim} {s : String} :
    s ∈ (a + b).symbols ↔ s ∈ a.symbols ∨ s ∈ b.symbols := by
  rw [mem_symbols_iff, mem_symbols_iff, mem_symbols_iff, coeff_add]
  omega

/-- A dimension is a number when it has no symbols. -/
lemma isConcrete_iff {d : Dim} : d.isConcrete = true ↔ d.symbols = [] := by
  rw [isConcrete, List.isEmpty_iff, symbols, List.map_eq_nil_iff]

/-- A dimension is read as one symbol when it is that symbol. -/
lemma symbol?_eq_some_iff {d : Dim} {s : String} : d.symbol? = some s ↔ d = symbol s := by
  constructor
  · intro found
    obtain ⟨terms, const, ascending, positive⟩ := d
    unfold symbol? at found
    split at found
    · rename_i heads consts
      simp only at heads consts
      subst heads consts
      cases found
      rfl
    · cases found
  · rintro rfl
    rfl

/-- After a substitution the symbols are those of what was put in. -/
lemma mem_symbols_substitute {f : String → Dim} {d : Dim} {t : String} :
    t ∈ (d.substitute f).symbols ↔ ∃ s ∈ d.symbols, t ∈ (f s).symbols := by
  -- A symbol occurs exactly when setting it to one makes the value larger than at zero.
  have occurs : ∀ e : Dim, t ∈ e.symbols ↔ e.eval (fun _ => 0) < e.eval (indicator t) := by
    intro e
    rw [mem_symbols_iff, eval_zero, eval_indicator]
    omega
  have grows : ∀ s, (f s).eval (fun _ => 0) ≤ (f s).eval (indicator t) := by
    intro s
    rw [eval_zero, eval_indicator]
    omega
  have key : ∀ l : List (String × Nat), (∀ p ∈ l, 0 < p.2) →
      (evalTerms (fun s => (f s).eval fun _ => 0) l ≤
        evalTerms (fun s => (f s).eval (indicator t)) l ∧
      (evalTerms (fun s => (f s).eval fun _ => 0) l <
        evalTerms (fun s => (f s).eval (indicator t)) l ↔
        ∃ s ∈ l.map Prod.fst, t ∈ (f s).symbols)) := by
    intro l positive
    induction l with
    | nil => simp [evalTerms]
    | cons p rest ih =>
      obtain ⟨le, iff⟩ := ih fun q hq => positive q (by simp [hq])
      have head := Nat.mul_le_mul_left p.2 (grows p.1)
      have strict : p.2 * ((f p.1).eval fun _ => 0) < p.2 * (f p.1).eval (indicator t) ↔
          t ∈ (f p.1).symbols := by
        rw [occurs, Nat.mul_lt_mul_left (positive p (by simp))]
      refine ⟨by simp only [evalTerms]; omega, ?_⟩
      simp only [evalTerms, List.map_cons, List.mem_cons, exists_eq_or_imp, ← iff, ← strict]
      omega
  rw [occurs, eval_substitute, eval_substitute, eval, eval, Nat.add_lt_add_iff_right]
  exact (key d.terms d.positive).2

/-- Substitutions that agree on the symbols that occur give the same. -/
lemma substitute_congr {f g : String → Dim} {d : Dim} (same : ∀ s ∈ d.symbols, f s = g s) :
    d.substitute f = d.substitute g := by
  apply eval_ext
  intro σ
  rw [eval_substitute, eval_substitute]
  exact eval_congr fun s hs => by rw [same s hs]

/-- Putting every symbol in for itself changes nothing. -/
@[simp] lemma substitute_symbol (d : Dim) : d.substitute symbol = d := by
  apply eval_ext
  intro σ
  simp only [eval_substitute, eval_symbol]

/-- A substitution makes of a symbol what it puts in. -/
@[simp] lemma symbol_substitute (f : String → Dim) (s : String) :
    (symbol s).substitute f = f s := by
  apply eval_ext
  intro σ
  rw [eval_substitute, eval_symbol]

/-- The dimension with its symbols under other names. -/
def rename (ρ : String → String) (d : Dim) : Dim :=
  d.substitute fun s => symbol (ρ s)

/-- Renaming symbols is renaming what an assignment is asked for. -/
@[simp] lemma eval_rename (σ : String → Nat) (ρ : String → String) (d : Dim) :
    (d.rename ρ).eval σ = d.eval fun s => σ (ρ s) := by
  rw [rename, eval_substitute]
  simp only [eval_symbol]

/-- A renamed dimension has the renamed symbols. -/
lemma mem_symbols_rename {ρ : String → String} {d : Dim} {t : String} :
    t ∈ (d.rename ρ).symbols ↔ ∃ s ∈ d.symbols, t = ρ s := by
  rw [rename, mem_symbols_substitute]
  simp only [symbols_symbol, List.mem_singleton]

/-- A dimension over the symbols in `P`. -/
def Within (P : String → Prop) (d : Dim) : Prop :=
  ∀ s ∈ d.symbols, P s

instance (P : String → Prop) [DecidablePred P] : DecidablePred (Within P) :=
  fun _ => inferInstanceAs (Decidable (∀ s ∈ _, P s))

/-- A name under which only one symbol is found keeps its multiplicity. -/
lemma coeff_rename {ρ : String → String} {d : Dim} {s : String}
    (alone : ∀ t ∈ d.symbols, ρ t = ρ s → t = s) : (d.rename ρ).coeff (ρ s) = d.coeff s := by
  have value : (d.rename ρ).eval (indicator (ρ s)) = d.eval (indicator s) := by
    rw [eval_rename]
    refine eval_congr fun t ht => ?_
    by_cases e : t = s
    · rw [e, indicator_self, indicator_self]
    · rw [indicator_of_ne e, indicator_of_ne fun h => e (alone t ht h)]
  have const : (d.rename ρ).const = d.const := by
    rw [← eval_zero, ← eval_zero, eval_rename]
  rw [eval_indicator, eval_indicator, const] at value
  omega

end Dim

end OperatorNet
