import OperatorNet.Bindings.Basic

/-!
# Unification

Two dimensions are made equal by solving at most one symbol: one that stands alone on a side, or the
only one whose multiplicities differ. Types are unified axis by axis after their kind, metric, group
and rank agree. Bindings are values, so a failed attempt leaves nothing behind.
-/

namespace OperatorNet

/-- Why a type does not fit a template. -/
inductive Mismatch where
  | kind (actual expected : String)
  | metric (actual expected : String)
  | group (actual expected : TagSet)
  | rank (actual expected : Nat)
  | axis (place : Nat) (actual expected : Dim)
  deriving DecidableEq

namespace Mismatch

/-- The wording of a mismatch. -/
def message : Mismatch → String
  | kind a e => "kind " ++ Text.quoted a ++ " != " ++ Text.quoted e
  | metric a e => "metric " ++ Text.quoted a ++ " != " ++ Text.quoted e
  | group a e =>
    "group " ++ Text.quotedList "[" a.tags "]" ++ " != " ++ Text.quotedList "[" e.tags "]"
  | rank a e => "rank " ++ toString a ++ " != " ++ toString e
  | axis i a e =>
    "axis " ++ toString i ++ ": " ++ a.toTerm.literal ++ " conflicts with " ++ e.toTerm.literal

/-- Whether the wording has no number that is too long to be written. -/
def isWritable : Mismatch → Bool
  | axis _ a e => a.isWritable && e.isWritable
  | _ => true

end Mismatch

/-- The multiplicities of the symbols of `x` less those of `y`, without the zeros. -/
def Dim.difference (x y : Dim) : List (String × Int) :=
  let start := x.terms.map fun p => (p.1, (p.2 : Int))
  let all := y.terms.foldl (fun acc p => put p.1 ((fetch p.1 acc).getD 0 - (p.2 : Int)) acc) start
  all.filter (·.2 ≠ 0)

namespace Bindings

/-- Lets an unsolved symbol stand for a dimension, which must not mention it. -/
def assign (b : Bindings) (s : String) (e : Dim) : Option Bindings :=
  if s ∈ e.symbols then none else some { b with solved := b.solved ++ [(s, e)] }

/-- Solves `x = y` for the only symbol whose multiplicities differ. -/
def solveOne (b : Bindings) (x y : Dim) : Option Bindings :=
  match x.difference y with
  | [(s, n)] =>
    let gap : Int := (y.const : Int) - x.const
    if n ∣ gap ∧ 0 ≤ gap / n then b.assign s (.ofNat (gap / n).toNat) else none
  | _ => none

/-- Makes two resolved dimensions equal. -/
def solve (b : Bindings) (x y : Dim) : Option Bindings :=
  if x = y then some b
  else if x.isConcrete && y.isConcrete then none
  else match x.symbol?, y.symbol? with
    | some s, _ => b.assign s y
    | none, some s => b.assign s x
    | none, none => b.solveOne x y

/-- Notes the symbols of two dimensions. -/
def meetBoth (b : Bindings) (x y : Dim) : Bindings :=
  (b.meet x.symbols).meet y.symbols

/-- Makes two dimensions equal, or finds that this is not possible by solving one symbol. -/
def unifyDim (b : Bindings) (x y : Dim) : Option Bindings :=
  (b.meetBoth x y).solve (b.resolve x) (b.resolve y)

/-- Makes the axes of a candidate equal to those of a template, counting axes from `place`. -/
def unifyAxes (b : Bindings) (place : Nat) : List (Dim × Dim) → Except Mismatch Bindings
  | [] => .ok b
  | (t, c) :: rest =>
    match b.unifyDim t c with
    | some b' => b'.unifyAxes (place + 1) rest
    | none => .error (.axis place (b.resolve c) (b.resolve t))

/-- Makes a candidate type fit a template. -/
def unify (b : Bindings) (template candidate : PortType) : Except Mismatch Bindings :=
  if template.kind ≠ candidate.kind then .error (.kind candidate.kind template.kind)
  else if template.metric ≠ candidate.metric then .error (.metric candidate.metric template.metric)
  else if template.group ≠ candidate.group then .error (.group candidate.group template.group)
  else if template.shape.length ≠ candidate.shape.length then
    .error (.rank candidate.shape.length template.shape.length)
  else b.unifyAxes 0 (template.shape.zip candidate.shape)

/-- Makes every candidate fit its template under common bindings. -/
def unifySlots (b : Bindings) (slots : List (PortType × PortType)) : Except Mismatch Bindings :=
  slots.foldlM (fun b slot => b.unify slot.1 slot.2) b

/-- `unify` when the reason of a failure does not matter. -/
def unify? (b : Bindings) (template candidate : PortType) : Option Bindings :=
  (b.unify template candidate).toOption

/-- `unifySlots` when the reason of a failure does not matter. -/
def unifySlots? (b : Bindings) (slots : List (PortType × PortType)) : Option Bindings :=
  (b.unifySlots slots).toOption

end Bindings

end OperatorNet
