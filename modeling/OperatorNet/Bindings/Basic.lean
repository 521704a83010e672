import OperatorNet.PortType.Basic

/-!
# Bindings

What is known about dimension symbols: which symbols have been met, and what some of them stand for.
A symbol is solved at most once, by a dimension over symbols that are unsolved at that time, so
resolving a dimension replaces the solved symbols from the first solved to the last. An assignment
of numbers to symbols satisfies the bindings when it respects every solved symbol.
-/

namespace OperatorNet

/-- The symbols met so far, and the solved ones with what they stand for, oldest first. -/
structure Bindings where
  known : List String
  solved : List (String × Dim)
  deriving DecidableEq, Inhabited

/-- Replaces one symbol and keeps the others. -/
def onlySymbol (s : String) (e : Dim) (t : String) : Dim :=
  if t = s then e else .symbol t

namespace Bindings

/-- Bindings that know nothing. -/
def empty : Bindings :=
  ⟨[], []⟩

/-- An assignment satisfies the bindings when every solved symbol has the value of its dimension. -/
def Satisfies (σ : String → Nat) (b : Bindings) : Prop :=
  ∀ p ∈ b.solved, σ p.1 = p.2.eval σ

/-- Notes that symbols have been met. -/
def meet (b : Bindings) (symbols : List String) : Bindings :=
  { b with known := symbols.foldl (fun acc s => if s ∈ acc then acc else acc ++ [s]) b.known }

/-- What a dimension stands for: solved symbols are replaced, oldest first. -/
def resolve (b : Bindings) (d : Dim) : Dim :=
  b.solved.foldl (fun acc p => acc.substitute (onlySymbol p.1 p.2)) d

/-- What a type stands for. -/
def resolveType (b : Bindings) (t : PortType) : PortType :=
  t.mapDims b.resolve

/-- The symbol at the end of the chain of symbols that stand for one another. -/
def root (b : Bindings) (s : String) : String :=
  b.solved.foldl (fun r p => if p.1 = r then p.2.symbol?.getD r else r) s

/-- The number that a symbol stands for, if it is known. -/
def size? (b : Bindings) (s : String) : Option Nat :=
  (b.resolve (.symbol s)).size?

/-- What every known symbol stands for, in order of their names. -/
def solution (b : Bindings) : List (String × Term) :=
  (sortedTexts b.known).map fun s => (s, (b.resolve (.symbol s)).toTerm)

/-- Whether no known symbol stands for a number that is too long to be written. -/
def isWritable (b : Bindings) : Bool :=
  b.known.all fun s => (b.resolve (.symbol s)).isWritable

/-- Whether what every known symbol stands for has a canonical writing. -/
def hasTerms (b : Bindings) : Bool :=
  b.known.all fun s => (b.resolve (.symbol s)).hasTerm

/-- The document of what every known symbol stands for. -/
def toData {α : Type} (b : Bindings) : Data α :=
  .mapping (b.solution.map fun p => (p.1, p.2.toData))

/-- Replacing a symbol by an equal value does not change what a dimension evaluates to. -/
theorem eval_resolve {σ : String → Nat} {b : Bindings} (h : b.Satisfies σ) (d : Dim) :
    (b.resolve d).eval σ = d.eval σ := by
  have key : ∀ (l : List (String × Dim)) (d : Dim), (∀ p ∈ l, σ p.1 = p.2.eval σ) →
      (l.foldl (fun acc p => acc.substitute (onlySymbol p.1 p.2)) d).eval σ = d.eval σ := by
    intro l
    induction l with
    | nil => intro d _; rfl
    | cons p rest ih =>
      intro d hl
      rw [List.foldl_cons, ih _ fun q hq => hl q (by simp [hq]), Dim.eval_substitute]
      congr 1
      funext t
      unfold onlySymbol
      split
      · rename_i ht
        rw [ht, hl p (by simp)]
      · simp
  exact key b.solved d h

end Bindings

end OperatorNet
