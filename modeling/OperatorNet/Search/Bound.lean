import OperatorNet.Data.Basic

/-!
# Bounds of a search

How many stages a supergraph may have. A bound is a whole number; a truth value counts as one and is
shown as it was given.
-/

namespace OperatorNet

/-- The largest number of stages. -/
inductive StageBound where
  | whole (n : Int)
  | truth (b : Bool)
  deriving DecidableEq

namespace StageBound

/-- The number of stages. -/
def count : StageBound → Int
  | whole n => n
  | truth b => if b then 1 else 0

/-- A bound as shown inside a message. -/
def literal : StageBound → String
  | whole n => toString n
  | truth b => if b then "True" else "False"

/-- The document of a bound. -/
def toData {α : Type} : StageBound → Data α
  | whole n => .int n
  | truth b => .bool b

end StageBound

end OperatorNet
