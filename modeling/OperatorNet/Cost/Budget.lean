import OperatorNet.Cost.Metric
import OperatorNet.Data.Number
import OperatorNet.Sorting
import OperatorNet.Validation.Value

/-!
# Budgets

A budget limits some metrics by positive numbers. A metric violates it when its price is unknown,
missing or above the limit. The overage is the sum of the excesses relative to the limits; it is
infinite when a price is not known.
-/

namespace OperatorNet

/-- Positive limits by metric. -/
structure Budget (α : Type) [Scalar α] where
  limits : Table String α
  positive : ∀ p ∈ limits.entries, 0 < p.2

/-- A finite amount, or infinitely much. -/
inductive Amount (α : Type) where
  | finite (x : α)
  | infinite

namespace Amount

variable {α : Type} [Scalar α]

/-- The amount as a number. -/
def value : Amount α → α
  | finite x => x
  | infinite => Scalar.infinity

/-- Whether an amount is beyond all numbers. -/
def isInfinite : Amount α → Bool
  | finite x => !Scalar.isFinite x && Scalar.same x x
  | infinite => true

/-- Whether two amounts are the same. -/
def same : Amount α → Amount α → Bool
  | finite x, finite y => Scalar.same x y
  | a, b => a.isInfinite && b.isInfinite

/-- Whether one amount is less than another. -/
def less : Amount α → Amount α → Bool
  | finite x, finite y => x < y
  | finite x, infinite => Scalar.isFinite x
  | infinite, _ => false

/-- Whether one row of amounts comes before another: at the first place where they differ, its
amount is less. -/
def precedes : List (Amount α) → List (Amount α) → Bool
  | a :: as, b :: bs => if same a b then precedes as bs else less a b
  | [], _ :: _ => true
  | _, [] => false

end Amount

namespace Budget

variable {α : Type} [Scalar α]

/-- The budget without limits. -/
def unlimited : Budget α :=
  ⟨.empty, by simp [Table.empty]⟩

instance : Inhabited (Budget α) := ⟨unlimited⟩

/-- The budget with the given limits, if all of them are positive. -/
def ofTable? (limits : Table String α) : Option (Budget α) :=
  if h : ∀ p ∈ limits.entries, 0 < p.2 then some ⟨limits, h⟩ else none

/-- The limited metrics in order of their names. -/
def metrics (b : Budget α) : List String :=
  sortedTexts b.limits.keys

/-- The limit of a metric. -/
def limit (b : Budget α) (metric : String) : Except Fault α :=
  match b.limits.get? metric with
  | some x => .ok x
  | none => fail (.missingKey metric)

/-- Whether a price is within a limit. -/
def within (limit : α) : Price α → Bool
  | .known x => !decide (limit < x)
  | .unknown => false

/-- The prices that are not within their limits; a missing price counts as unknown. -/
def violations (b : Budget α) (prices : Prices α) : Prices α :=
  (b.limits.entries.map fun p => (p.1, p.2, (fetch p.1 prices).getD .unknown)).filterMap
    fun p => if within p.2.1 p.2.2 then none else some (p.1, p.2.2)

/-- Whether all prices are within their limits. -/
def satisfiedBy (b : Budget α) (prices : Prices α) : Bool :=
  (b.violations prices).isEmpty

/-- Adds the relative excess of one price to an amount. -/
def addExcess (prices : Prices α) (total : Amount α) (p : String × α) : Amount α :=
  match total, (fetch p.1 prices).getD .unknown with
  | .finite t, .known x => .finite (t + Scalar.positivePart (x - p.2) / p.2)
  | _, _ => .infinite

/-- The sum of the relative excesses. -/
def overage (b : Budget α) (prices : Prices α) : Amount α :=
  b.limits.entries.foldl (addExcess prices) (.finite 0)

/-- The document of the limits. -/
def toData (b : Budget α) : Data α :=
  .mapping (b.limits.entries.map fun p => (p.1, .real p.2))

/-- Limits that have been read; the first limit that is not positive is the flaw. -/
def ofLimits (pairs : List (String × Float)) : Check (Budget Float) :=
  let limits := Table.ofList pairs
  match ofTable? limits with
  | some b => .accepted b
  | none =>
    match limits.entries.find? fun p => !decide (0 < p.2) with
    | some p => .flawed (.notPositive p.1 p.2)
    | none => .brokenDown

/-- The place of a limit in the words of an issue. -/
def placeOf : Data Float → String
  | .bool b => if b then "1" else "0"
  | d => d.shown

/-- The metric that a limit is given for, which must be a text. -/
def metricOf : Data Float → Check String
  | .text name => .accepted name
  | d => ((Check.flawed .notText).under "[key]").under (placeOf d)

/-- The key and the limit in an item of a row, which is a pair in any form. -/
def pairOf (place : Nat) (d : Data Float) : Except Fault (Data Float × Data Float) := do
  match ← d.elements with
  | [key, limit] =>
    let _ ← key.key
    return (key, limit)
  | items => fail (.unpaired place items.length)

/-- The limits in a document: a mapping, a row of pairs, or nothing. -/
def pairsOf (d : Data Float) : Except Fault (Keyed (Data Float)) := do
  if d.isVoid then return []
  match d with
  | .mapping fields => return fields.map fun p => (.text p.1, p.2)
  | _ =>
    let pairs ← (← d.elements).zipIdx.mapM fun q => pairOf q.2 q.1
    return pairs.foldl (fun acc p => Keyed.insert acc p.1 p.2) []

/-- The budget in a document. -/
def ofData (d : Data Float) : Except Fault (Budget Float) := do
  let limits := (← pairsOf d).map fun p =>
    Prod.mk <$> metricOf p.1 <*> (Check.number p.2).under (placeOf p.1)
  (((Check.all limits).andThen ofLimits).under "limits").toExcept

end Budget

end OperatorNet
