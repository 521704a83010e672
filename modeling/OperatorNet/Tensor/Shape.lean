/-!
# Shapes

A shape lists the sizes of the axes of a tensor. Places are lists of coordinates; `ravel` numbers
them row by row, and `unravel` finds the place of a number. `ravel_unravel` says that numbers below
the volume are numbered back to themselves, `ravel_lt` that places inside have a number below it.
-/

namespace OperatorNet

/-- Number of places of a shape. -/
def volume : List Nat → Nat
  | [] => 1
  | d :: ds => d * volume ds

/-- A place with one coordinate per axis, each below the size of its axis. -/
def Inside : List Nat → List Nat → Prop
  | [], [] => True
  | d :: ds, i :: is => i < d ∧ Inside ds is
  | _, _ => False

/-- The number of a place, the last coordinate running fastest. -/
def ravel : List Nat → List Nat → Nat
  | _ :: ds, i :: is => i * volume ds + ravel ds is
  | _, _ => 0

/-- The place with a given number. -/
def unravel : List Nat → Nat → List Nat
  | [], _ => []
  | _ :: ds, k => k / volume ds :: unravel ds (k % volume ds)

/-- A place inside a shape has a number below the volume. -/
theorem ravel_lt {shape place : List Nat} (h : Inside shape place) :
    ravel shape place < volume shape := by
  induction shape generalizing place with
  | nil => cases place <;> simp [ravel, volume]
  | cons d ds ih =>
    cases place with
    | nil => simp [Inside] at h
    | cons i is =>
      obtain ⟨hi, his⟩ := h
      simp only [ravel, volume]
      have h1 := ih his
      have h2 : (i + 1) * volume ds ≤ d * volume ds := Nat.mul_le_mul_right _ hi
      rw [Nat.add_mul] at h2
      omega

/-- A number below the volume is that of a place inside the shape. -/
theorem inside_unravel {shape : List Nat} {k : Nat} (h : k < volume shape) :
    Inside shape (unravel shape k) := by
  induction shape generalizing k with
  | nil => simp [unravel, Inside]
  | cons d ds ih =>
    simp only [volume] at h
    have hpos : 0 < volume ds := by
      rcases Nat.eq_zero_or_pos (volume ds) with h0 | h0
      · rw [h0] at h; omega
      · exact h0
    exact ⟨(Nat.div_lt_iff_lt_mul hpos).2 h, ih (Nat.mod_lt _ hpos)⟩

/-- The place of a number has that number. -/
theorem ravel_unravel {shape : List Nat} {k : Nat} (h : k < volume shape) :
    ravel shape (unravel shape k) = k := by
  induction shape generalizing k with
  | nil => simp only [volume] at h; simp [ravel]; omega
  | cons d ds ih =>
    simp only [volume] at h
    have hpos : 0 < volume ds := by
      rcases Nat.eq_zero_or_pos (volume ds) with h0 | h0
      · rw [h0] at h; omega
      · exact h0
    simp only [ravel, unravel]
    rw [ih (Nat.mod_lt _ hpos), Nat.mul_comm]
    exact Nat.div_add_mod k (volume ds)

/-- The number of a place leads back to the place. -/
theorem unravel_ravel {shape place : List Nat} (h : Inside shape place) :
    unravel shape (ravel shape place) = place := by
  induction shape generalizing place with
  | nil => cases place <;> simp_all [unravel, Inside]
  | cons d ds ih =>
    cases place with
    | nil => simp [Inside] at h
    | cons i is =>
      obtain ⟨_, his⟩ := h
      have hlt := ravel_lt his
      have hpos : 0 < volume ds := by omega
      simp only [ravel, unravel]
      rw [Nat.mul_comm, Nat.mul_add_div hpos, Nat.mul_add_mod, Nat.div_eq_of_lt hlt,
        Nat.mod_eq_of_lt hlt, ih his, Nat.add_zero]

/-- The common shape of two shapes compared from the last axis on, given in reverse: an axis of size
one is stretched, and missing axes are added. -/
def stretchReversed : List Nat → List Nat → Option (List Nat)
  | [], ys => some ys
  | xs, [] => some xs
  | x :: xs, y :: ys =>
    if x = y then (stretchReversed xs ys).map (x :: ·)
    else if x = 1 then (stretchReversed xs ys).map (y :: ·)
    else if y = 1 then (stretchReversed xs ys).map (x :: ·)
    else none

/-- The common shape of two shapes, if they can be stretched to one. -/
def stretch? (a b : List Nat) : Option (List Nat) :=
  (stretchReversed a.reverse b.reverse).map List.reverse

/-- The place of an operand of shape `shape` that is read at a place of the common shape. -/
def stretchedPlace (shape place : List Nat) : List Nat :=
  List.zipWith (fun d i => if d = 1 then 0 else i) shape (place.drop (place.length - shape.length))

end OperatorNet
