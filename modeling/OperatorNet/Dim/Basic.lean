/-!
# Dimensions

A dimension is a sum of symbols and a natural number, in canonical form: symbols in increasing
order, each once, with a positive multiplicity. `eval` is its meaning under an assignment of natural
numbers to symbols; `eval_add`, `eval_scale` and `eval_substitute` say what the operations mean.
-/

namespace OperatorNet

/-- Adds `n` times the symbol `s` to a sum of symbols in increasing order. -/
def addTerm (s : String) (n : Nat) : List (String × Nat) → List (String × Nat)
  | [] => [(s, n)]
  | (t, m) :: rest =>
    if s < t then (s, n) :: (t, m) :: rest
    else if s = t then (t, m + n) :: rest
    else (t, m) :: addTerm s n rest

/-- Adding a term adds its symbol. -/
theorem mem_keys_addTerm {s : String} {n : Nat} {l : List (String × Nat)} {x : String} :
    x ∈ (addTerm s n l).map Prod.fst ↔ x = s ∨ x ∈ l.map Prod.fst := by
  induction l with
  | nil => simp [addTerm]
  | cons p rest ih =>
    obtain ⟨t, m⟩ := p
    simp only [addTerm]
    split
    · simp
    · split
      · rename_i h; subst h; simp
      · simp only [List.map_cons, List.mem_cons, ih]
        constructor
        · rintro (h | h | h) <;> simp [h]
        · rintro (h | h | h) <;> simp [h]

/-- Adding a term keeps the symbols in order. -/
theorem ascending_addTerm (s : String) (n : Nat) {l : List (String × Nat)}
    (h : (l.map Prod.fst).Pairwise (· < ·)) : ((addTerm s n l).map Prod.fst).Pairwise (· < ·) := by
  induction l with
  | nil => simp [addTerm]
  | cons p rest ih =>
    obtain ⟨t, m⟩ := p
    simp only [List.map_cons, List.pairwise_cons] at h
    simp only [addTerm]
    split
    · rename_i hlt
      simp only [List.map_cons, List.pairwise_cons, List.mem_cons]
      refine ⟨?_, h⟩
      rintro x (rfl | hx)
      · exact hlt
      · exact String.lt_trans hlt (h.1 x hx)
    · rename_i hnlt
      split
      · simpa [List.pairwise_cons] using h
      · rename_i hne
        simp only [List.map_cons, List.pairwise_cons]
        refine ⟨?_, ih h.2⟩
        intro x hx
        rcases mem_keys_addTerm.1 hx with rfl | hx
        · exact Decidable.byContradiction fun hc =>
            hne (String.le_antisymm (String.not_lt.1 hc) (String.not_lt.1 hnlt))
        · exact h.1 x hx

/-- Adding a term with a positive multiplicity keeps all multiplicities positive. -/
theorem positive_addTerm (s : String) {n : Nat} (hn : 0 < n) {l : List (String × Nat)}
    (h : ∀ p ∈ l, 0 < p.2) : ∀ p ∈ addTerm s n l, 0 < p.2 := by
  induction l with
  | nil => simpa [addTerm] using hn
  | cons q rest ih =>
    obtain ⟨t, m⟩ := q
    have hq := h (t, m) (by simp)
    have hr : ∀ p ∈ rest, 0 < p.2 := fun p hp => h p (by simp [hp])
    simp only [addTerm]
    split
    · intro p hp
      rcases List.mem_cons.1 hp with rfl | hp
      · exact hn
      · exact h p hp
    · split
      · intro p hp
        rcases List.mem_cons.1 hp with rfl | hp
        · exact Nat.lt_of_lt_of_le hq (Nat.le_add_right _ _)
        · exact hr p hp
      · intro p hp
        rcases List.mem_cons.1 hp with rfl | hp
        · exact hq
        · exact ih hr p hp

/-- The value of a sum of symbols. -/
def evalTerms (σ : String → Nat) : List (String × Nat) → Nat
  | [] => 0
  | p :: rest => p.2 * σ p.1 + evalTerms σ rest

/-- A term that is added counts with its multiplicity. -/
theorem evalTerms_addTerm (σ : String → Nat) (s : String) (n : Nat) (l : List (String × Nat)) :
    evalTerms σ (addTerm s n l) = n * σ s + evalTerms σ l := by
  induction l with
  | nil => simp [addTerm, evalTerms]
  | cons p rest ih =>
    obtain ⟨t, m⟩ := p
    simp only [addTerm]
    split
    · simp [evalTerms]
    · split
      · rename_i h
        subst h
        simp only [evalTerms, Nat.add_mul]
        omega
      · simp only [evalTerms] at ih ⊢
        omega

/-- A canonical sum of symbols and a natural number. -/
structure Dim where
  terms : List (String × Nat)
  const : Nat
  ascending : (terms.map Prod.fst).Pairwise (· < ·)
  positive : ∀ p ∈ terms, 0 < p.2
  deriving DecidableEq

namespace Dim

/-- A known size. -/
def ofNat (n : Nat) : Dim :=
  ⟨[], n, by simp, by simp⟩

/-- A symbol on its own. -/
def symbol (s : String) : Dim :=
  ⟨[(s, 1)], 0, by simp, by simp⟩

instance : Inhabited Dim := ⟨ofNat 0⟩

/-- The symbols in increasing order. -/
def symbols (d : Dim) : List String :=
  d.terms.map Prod.fst

/-- A dimension without symbols. -/
def isConcrete (d : Dim) : Bool :=
  d.terms.isEmpty

/-- The size of a dimension without symbols. -/
def size? (d : Dim) : Option Nat :=
  if d.isConcrete then some d.const else none

/-- The symbol of a dimension that is one symbol and nothing else. -/
def symbol? (d : Dim) : Option String :=
  match d.terms, d.const with
  | [(s, 1)], 0 => some s
  | _, _ => none

/-- Adds `n` times a symbol, for positive `n`. -/
def addSymbol (d : Dim) (s : String) (n : Nat) (hn : 0 < n) : Dim :=
  ⟨addTerm s n d.terms, d.const, ascending_addTerm s n d.ascending,
    positive_addTerm s hn d.positive⟩

/-- Adds positive multiples of symbols one after the other. -/
def addSymbols (d : Dim) (l : List (String × Nat)) (h : ∀ p ∈ l, 0 < p.2) : Dim :=
  match l with
  | [] => d
  | (s, n) :: rest =>
    (d.addSymbol s n (h (s, n) (by simp))).addSymbols rest fun p hp => h p (by simp [hp])

/-- Adds a known size. -/
def addNat (d : Dim) (n : Nat) : Dim :=
  { d with const := d.const + n }

/-- The sum of two dimensions. -/
def add (a b : Dim) : Dim :=
  (a.addNat b.const).addSymbols b.terms b.positive

instance : Add Dim := ⟨add⟩

/-- A dimension added to itself `n` times in all. -/
def scale (n : Nat) (d : Dim) : Dim :=
  if hn : 0 < n then
    ⟨d.terms.map fun p => (p.1, n * p.2), n * d.const,
      by simpa [Function.comp_def] using d.ascending,
      by
        intro p hp
        obtain ⟨q, hq, rfl⟩ := List.mem_map.1 hp
        exact Nat.mul_pos hn (d.positive q hq)⟩
  else ofNat 0

/-- Every symbol replaced by a dimension. -/
def substitute (f : String → Dim) (d : Dim) : Dim :=
  d.terms.foldl (fun acc p => acc + (f p.1).scale p.2) (ofNat d.const)

/-- The value of a dimension when every symbol has a value. -/
def eval (σ : String → Nat) (d : Dim) : Nat :=
  evalTerms σ d.terms + d.const

/-- A number has itself as its value. -/
@[simp] theorem eval_ofNat (σ : String → Nat) (n : Nat) : (ofNat n).eval σ = n := by
  simp [eval, ofNat, evalTerms]

/-- A symbol has the value that it is assigned. -/
@[simp] theorem eval_symbol (σ : String → Nat) (s : String) : (symbol s).eval σ = σ s := by
  simp [eval, symbol, evalTerms]

/-- Symbols that are added count with their multiplicities. -/
theorem eval_addSymbols (σ : String → Nat) (l : List (String × Nat)) (h : ∀ p ∈ l, 0 < p.2)
    (d : Dim) : (d.addSymbols l h).eval σ = d.eval σ + evalTerms σ l := by
  induction l generalizing d with
  | nil => simp [addSymbols, evalTerms]
  | cons p rest ih =>
    obtain ⟨s, n⟩ := p
    rw [addSymbols, ih]
    simp only [eval, addSymbol, evalTerms_addTerm]
    simp only [evalTerms]
    omega

/-- The value of a sum is the sum of the values. -/
@[simp] theorem eval_add (σ : String → Nat) (a b : Dim) : (a + b).eval σ = a.eval σ + b.eval σ := by
  change (add a b).eval σ = _
  rw [add, eval_addSymbols]
  simp only [eval, addNat]
  omega

/-- The value of a multiple is the multiple of the value. -/
@[simp] theorem eval_scale (σ : String → Nat) (n : Nat) (d : Dim) :
    (d.scale n).eval σ = n * d.eval σ := by
  unfold scale
  split
  · simp only [eval, Nat.mul_add]
    congr 1
    induction d.terms with
    | nil => simp [evalTerms]
    | cons p rest ih => simp only [List.map_cons, evalTerms, Nat.mul_add, Nat.mul_assoc, ih]
  · rename_i h
    simp [Nat.eq_zero_of_not_pos h]

/-- Substitution is composition of meanings. -/
theorem eval_substitute (σ : String → Nat) (f : String → Dim) (d : Dim) :
    (d.substitute f).eval σ = d.eval fun s => (f s).eval σ := by
  have key : ∀ (l : List (String × Nat)) (acc : Dim),
      (l.foldl (fun acc p => acc + (f p.1).scale p.2) acc).eval σ =
        acc.eval σ + evalTerms (fun s => (f s).eval σ) l := by
    intro l
    induction l with
    | nil => simp [evalTerms]
    | cons p rest ih =>
      intro acc
      rw [List.foldl_cons, ih]
      simp only [eval_add, eval_scale, evalTerms]
      omega
  rw [substitute, key, eval_ofNat, eval, Nat.add_comm]

end Dim

end OperatorNet
