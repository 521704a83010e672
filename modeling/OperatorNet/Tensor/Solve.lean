import OperatorNet.Tensor.Arithmetic

/-!
# Linear systems

Systems with a positive definite matrix. The matrix is factored into a triangular one and its
transpose; a triangular matrix is kept as a staircase, whose row `i` has `i + 1` entries and ends on
the reciprocal of the diagonal entry. The rows of the factor are themselves found by solving
triangular systems. An unknown that is found is taken out of the other equations at once, so that
what remains of an equation has lost its terms one by one.
-/

namespace OperatorNet

namespace Staircase

variable {α : Type} [Scalar α]

/-- What remains of a right side when the unknowns that are known are taken out of the equation. -/
def remainder (row : List α) (rhs : α) (known : List α) : α :=
  (row.zip known).foldl (fun b p => b - p.1 * p.2) rhs

/-- The solution of a triangular system, from the first unknown to the last. -/
def solveDown (rows : List (List α)) (rhs : List α) : List α :=
  (rows.zip rhs).foldl (fun xs p => xs ++ [remainder p.1 p.2 xs * p.1.getLastD 1]) []

/-- Finds the last unknown of a transposed triangular system, and takes it out of the others. -/
def eliminate (row : List α) (acc : List α × List α) : List α × List α :=
  let x := acc.1.getLastD 0 * row.getLastD 1
  (List.zipWith (fun b a => b - a * x) acc.1.dropLast row, x :: acc.2)

/-- The solution of a transposed triangular system, from the last unknown to the first. -/
def solveUp (rows : List (List α)) (rhs : List α) : List α :=
  (rows.foldr eliminate (rhs, [])).2

/-- Extends a factor by the row that belongs to a row of the matrix, if its diagonal is positive. -/
def extend (factor : List (List α)) (row : List α) : Option (List (List α)) :=
  let below := solveDown factor row
  let pivot := row.getD factor.length 0 - Scalar.dot below below
  if 0 < pivot then some (factor ++ [below ++ [1 / Scalar.sqrt pivot]]) else none

/-- The triangular factor of a symmetric matrix, if the matrix is positive definite. -/
def factor? (rows : List (List α)) : Option (List (List α)) :=
  rows.foldlM extend []

end Staircase

namespace Tensor

variable {α : Type} [Scalar α]

/-- The rows of a matrix. -/
def rows (t : Tensor α) : List (List α) :=
  (List.range (t.axis 0)).map fun i => t.line 1 [i]

/-- Solves a system with a positive definite matrix for every column of its right side. -/
def solve (a b : Tensor α) : Except Fault (Tensor α) :=
  if ¬(a.rank = 2 ∧ b.rank = 2 ∧ a.axis 0 = a.axis 1 ∧ a.axis 0 = b.axis 0)
      ∨ ¬((a.toList ++ b.toList).all Scalar.isFinite) then
    fail (.numeric .shape)
  else
    match Staircase.factor? a.rows with
    | none => fail (.numeric .singular)
    | some factor =>
      .ok (b.mapLines (fun rhs => Staircase.solveUp factor (Staircase.solveDown factor rhs)) 0)

end Tensor

end OperatorNet
