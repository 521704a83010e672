import OperatorNet.Fault
import OperatorNet.Scalar

/-!
# Random numbers

A relaxed search draws values around a centre, and choices without repetition. How they are drawn is
given with the search (`Draws`): a generator has a number as its state, and every draw answers by
the state and leads to the next one. One way to draw is by a linear congruential generator on 64-bit
states, of which each draw gives the upper 31 bits of the next state (`Draws.congruential`).
-/

namespace OperatorNet

/-- How random numbers are drawn, by the state of a generator. -/
structure Draws (α : Type) where
  /-- The state that a seed leads to. -/
  seeded : Int → Nat
  /-- As many values around a centre, with a spread, as are asked for. -/
  around : Nat → α → α → Nat → Except NumericFlaw (List α × Nat)
  /-- A number of different numbers below a bound. -/
  choose : Nat → Nat → Int → Except NumericFlaw (List Nat × Nat)
  length_around {state : Nat} {centre spread : α} {n : Nat} {drawn : List α × Nat} :
    around state centre spread n = .ok drawn → drawn.1.length = n

/-- A generator in some state. -/
structure Generator (α : Type) where
  draws : Draws α
  state : Nat

namespace Generator

variable {α : Type}

/-- The generator of a seed. -/
def ofSeed (draws : Draws α) (seed : Int) : Generator α :=
  ⟨draws, draws.seeded seed⟩

/-- What is drawn, and the generator in its next state. -/
def next {β : Type} (g : Generator α) (drawn : Except NumericFlaw (β × Nat)) :
    Except Fault (β × Generator α) :=
  match drawn with
  | .ok (x, state) => .ok (x, { g with state })
  | .error flaw => fail (.numeric flaw)

/-- Several values around a centre. -/
def manyAround (g : Generator α) (centre spread : α) (n : Nat) :
    Except Fault (List α × Generator α) :=
  g.next (g.draws.around g.state centre spread n)

/-- `count` different numbers below `n`. -/
def choose (g : Generator α) (n : Nat) (count : Int) : Except Fault (List Nat × Generator α) :=
  g.next (g.draws.choose g.state n count)

end Generator

/-! ### A linear congruential generator -/

namespace Draws

/-- The next draw, a number below `2 ^ 31`, and the next state. -/
def draw (state : Nat) : Nat × Nat :=
  let s := (state * 6364136223846793005 + 1442695040888963407) % Nat.pow 2 64
  (s / Nat.pow 2 33, s)

/-- Takes `count` elements out of a pool: each time an element drawn from those that are left is
exchanged with the first of them. -/
def take (state count : Nat) (pool : List Nat) : List Nat × Nat :=
  match count, pool with
  | n + 1, first :: rest =>
    let (d, state) := draw state
    let j := d % (rest.length + 1)
    let chosen := (first :: rest).getD j first
    let left := if j = 0 then rest else rest.set (j - 1) first
    let (more, state) := take state n left
    (chosen :: more, state)
  | _, _ => ([], state)

variable {α : Type} [Scalar α]

/-- Values at most `spread` away from `centre`. -/
def even (state : Nat) (centre spread : α) : Nat → List α × Nat
  | 0 => ([], state)
  | n + 1 =>
    let (d, state) := draw state
    let unit := Scalar.divNat (Scalar.ofNat d) (Nat.pow 2 31)
    let (xs, state) := even state centre spread n
    ((centre + spread * (Scalar.ofNat 2 * unit - 1)) :: xs, state)

/-- As many values are drawn as are asked for. -/
theorem length_even {state : Nat} {centre spread : α} {n : Nat} :
    (even state centre spread n).1.length = n := by
  induction n generalizing state with
  | zero => rfl
  | succ n ih => exact congrArg (· + 1) ih

/-- Even draws by a linear congruential generator. A negative count chooses nothing, and leaves as
many numbers off at the end. -/
def congruential : Draws α where
  seeded seed := (seed % Nat.pow 2 64).toNat
  around state centre spread n := .ok (even state centre spread n)
  choose state n count :=
    .ok <| if count < 0 then (List.range (n + count).toNat, state)
      else take state count.toNat (List.range n)
  length_around same := Except.ok.inj same ▸ length_even

end Draws

end OperatorNet
