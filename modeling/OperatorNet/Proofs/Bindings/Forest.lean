import Mathlib.Logic.Function.Basic
import OperatorNet.Bindings.Unify

/-!
# Forests of symbols

Bindings may also be kept as a forest: each symbol that has been met has a parent, a root is its own
parent, and a root may carry the dimension that it stands for. Looking a symbol up shortens the way
to its root, and resolving a dimension looks up what its roots stand for again and again. Neither
ends for every forest, so a walk through a forest may have no result: `find`, `resolveSymbol` and
what is made of them are total only where the forest has come about by such walks.
-/

namespace OperatorNet

/-- Symbols with their parents, and what roots stand for. -/
structure Forest where
  parent : String → Option String
  value : String → Option Dim

/-- Something done to a forest, which need not end. -/
abbrev Walk :=
  StateT Forest Option

namespace Forest

/-- The forest without symbols. -/
def empty : Forest :=
  ⟨fun _ => none, fun _ => none⟩

/-- The forest with another parent for a symbol. -/
def link (F : Forest) (s p : String) : Forest :=
  { F with parent := Function.update F.parent s (some p) }

/-- The forest in which a symbol stands for a dimension. -/
def carry (F : Forest) (s : String) (e : Dim) : Forest :=
  { F with value := Function.update F.value s (some e) }

/-- After a link, the linked symbol has the new parent and all others the parents of before. -/
lemma parent_link_eq_some {F : Forest} {s p u q : String} :
    (F.link s p).parent u = some q ↔ u = s ∧ q = p ∨ u ≠ s ∧ F.parent u = some q := by
  by_cases here : u = s
  · subst here
    simp [link, eq_comm]
  · simp [link, here]

/-- A link gives no symbol a value. -/
@[simp] lemma value_link (F : Forest) (s p : String) : (F.link s p).value = F.value :=
  rfl

/-- After a value is set, the symbol has it and all others have the values of before. -/
lemma value_carry_eq_some {F : Forest} {s u : String} {e d : Dim} :
    (F.carry s e).value u = some d ↔ u = s ∧ d = e ∨ u ≠ s ∧ F.value u = some d := by
  by_cases here : u = s
  · subst here
    simp [carry, eq_comm]
  · simp [carry, here]

/-- The parent of a symbol; one that has not been met becomes a root. -/
def parentOf (s : String) : Walk String := do
  match (← get).parent s with
  | some p => return p
  | none =>
    modify (·.link s s)
    return s

/-- The root of a symbol, and the forest in which it has become the parent of the symbol. -/
def rootOf (F : Forest) (s : String) : Option (String × Forest) := do
  let (p, F) ← parentOf s F
  if p = s then return (s, F)
  let (r, F) ← F |>.rootOf p
  return (r, F.link s r)
partial_fixpoint

/-- What a symbol stands for in a forest, and the forest after all symbols have been looked up. -/
def meaningOf (F : Forest) (s : String) : Option (Dim × Forest) := do
  let (r, F) ← F.rootOf s
  match F.value r with
  | none => return (.symbol r, F)
  | some e =>
    e.terms.foldlM (fun (acc, F) p => do
      let (d, F) ← F |>.meaningOf p.1
      return (acc + d.scale p.2, F)) (.ofNat e.const, F)
partial_fixpoint

/-- The root of a symbol, which becomes its parent. -/
def find (s : String) : Walk String :=
  fun F => F.rootOf s

/-- What a symbol stands for: its root, or what its root stands for with all symbols resolved. -/
def resolveSymbol (s : String) : Walk Dim :=
  fun F => F.meaningOf s

/-- What a dimension stands for. -/
def resolve (d : Dim) : Walk Dim :=
  d.terms.foldlM (fun acc p => do return acc + (← resolveSymbol p.1).scale p.2) (.ofNat d.const)

/-- What the axes of a type stand for. -/
def resolveAxes : List Dim → Walk (List Dim)
  | [] => return []
  | d :: rest => do
    let e ← resolve d
    return e :: (← resolveAxes rest)

/-- What a type stands for. -/
def resolveType (t : PortType) : Walk PortType := do
  return { t with shape := ← resolveAxes t.shape }

/-- Lets the root of a symbol stand for a dimension, or links it to the root of another symbol. -/
def assign (s : String) (e : Dim) : Walk Bool := do
  let r ← find s
  match e.symbol? with
  | some t =>
    let other ← find t
    if other ≠ r then modify (·.link r other)
    return true
  | none =>
    if r ∈ e.symbols then return false
    modify (·.carry r e)
    return true

/-- Solves `x = y` for the only symbol whose multiplicities differ. -/
def solveOne (x y : Dim) : Walk Bool :=
  match x.difference y with
  | [(s, n)] =>
    let gap : Int := (y.const : Int) - x.const
    if n ∣ gap ∧ 0 ≤ gap / n then assign s (.ofNat (gap / n).toNat) else return false
  | _ => return false

/-- Makes two resolved dimensions equal. -/
def solve (x y : Dim) : Walk Bool :=
  if x = y then return true
  else if x.isConcrete && y.isConcrete then return false
  else match x.symbol?, y.symbol? with
    | some s, _ => assign s y
    | none, some s => assign s x
    | none, none => solveOne x y

/-- Makes two dimensions equal, or finds that this is not possible by solving one symbol. -/
def unifyDim (x y : Dim) : Walk Bool := do
  let x ← resolve x
  let y ← resolve y
  solve x y

/-- Makes the axes of a candidate equal to those of a template; the result is why this fails. -/
def unifyAxes (place : Nat) : List (Dim × Dim) → Walk (Option Mismatch)
  | [] => return none
  | (t, c) :: rest => do
    if ← unifyDim t c then unifyAxes (place + 1) rest
    else return some (.axis place (← resolve c) (← resolve t))

/-- Makes a candidate type fit a template; the result is why this fails. -/
def unifyInto (template candidate : PortType) : Walk (Option Mismatch) :=
  if template.kind ≠ candidate.kind then return some (.kind candidate.kind template.kind)
  else if template.metric ≠ candidate.metric then
    return some (.metric candidate.metric template.metric)
  else if template.group ≠ candidate.group then
    return some (.group candidate.group template.group)
  else if template.shape.length ≠ candidate.shape.length then
    return some (.rank candidate.shape.length template.shape.length)
  else unifyAxes 0 (template.shape.zip candidate.shape)

/-- Makes every candidate fit its template; the result is why the first one fails. -/
def unifyAll : List (PortType × PortType) → Walk (Option Mismatch)
  | [] => return none
  | (t, c) :: rest => do
    match ← unifyInto t c with
    | some mismatch => return some mismatch
    | none => unifyAll rest

/-- What is done to a copy of a forest replaces the forest if it succeeds. -/
def staged (F : Forest) (walk : Walk (Option Mismatch)) : Option Forest := do
  let (failure, F') ← walk F
  return if failure.isNone then F' else F

/-- One use of a forest. -/
inductive Use where
  | find (s : String)
  | resolveSymbol (s : String)
  | resolve (d : Dim)
  | resolveType (t : PortType)
  | unifyDim (x y : Dim)
  | unify (template candidate : PortType)
  | unifySlots (slots : List (PortType × PortType))
  | copy

/-- The forest after a use. -/
def after (F : Forest) : Use → Option Forest
  | .find s => (find s F).map Prod.snd
  | .resolveSymbol s => (resolveSymbol s F).map Prod.snd
  | .resolve d => (resolve d F).map Prod.snd
  | .resolveType t => (resolveType t F).map Prod.snd
  | .unifyDim x y => (unifyDim x y F).map Prod.snd
  | .unify t c => F.staged (unifyInto t c)
  | .unifySlots slots => F.staged (unifyAll slots)
  | .copy => some F

/-- The forest after some uses, one after the other. -/
def afterAll (F : Forest) (uses : List Use) : Option Forest :=
  uses.foldlM after F

/-- An assignment satisfies a forest when it respects every link and what every root stands for. -/
def Satisfies (σ : String → Nat) (F : Forest) : Prop :=
  (∀ s p, F.parent s = some p → σ s = σ p) ∧ ∀ s e, F.value s = some e → σ s = e.eval σ

/-- The links from a symbol lead to a root. -/
inductive Leads (F : Forest) : String → String → Prop where
  | root {r} : F.parent r = some r → Leads F r r
  | step {s p r} : F.parent s = some p → p ≠ s → Leads F p r → Leads F s r

/-- A root stands for a dimension in which a symbol with another root occurs. -/
def Depends (F : Forest) (r t : String) : Prop :=
  ∃ e, F.value r = some e ∧ ∃ s ∈ e.symbols, F.Leads s t

/-- A root that stands for nothing but itself. -/
def Unbound (F : Forest) (r : String) : Prop :=
  F.parent r = some r ∧ F.value r = none

end Forest

end OperatorNet
