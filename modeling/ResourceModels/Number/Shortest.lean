import ResourceModels.Number.Binary64

/-!
# The shortest decimal that reads back

A double is the value nearest to every real in an interval around it. The shortest decimal
in that interval lies on the coarsest grid of multiples of a power of ten that has a point
there; of two such points the nearer one is taken, and of two equally near ones the even.
All comparisons are between naturals.
-/

namespace ResourceModels

/-- A decimal `digits * 10 ^ exponent`. -/
structure Decimal where
  digits : Nat
  exponent : Int
  deriving DecidableEq, Repr

namespace Decimal

/-- The reals that round to a double, in quarter steps. The ends belong to it exactly
when its significand is even. -/
structure Interval where
  low : Nat
  value : Nat
  high : Nat
  closed : Bool
  deriving Repr

/-- The gap below a power of two is half the gap above it. -/
def Interval.around (steps : Nat) : Interval :=
  let gap := Nat.pow 2 (Binary64.bitLength steps - 53)
  let significand := steps / gap
  let below := if significand = Nat.pow 2 52 ∧ 1 < gap then gap else 2 * gap
  { low := 4 * steps - below
    value := 4 * steps
    high := 4 * steps + 2 * gap
    closed := significand % 2 = 0 }

/-- The point of the grid of multiples of `10 ^ exponent` to print, if one lies in the interval. -/
def Interval.pointOn? (interval : Interval) (exponent : Int) : Option Nat :=
  let grid := 4 * Binary64.one * Nat.pow 10 exponent.toNat
  let scale := Nat.pow 10 (-exponent).toNat
  let value := interval.value * scale
  let inside (point : Nat) : Bool :=
    let real := point * grid
    let low := interval.low * scale
    let high := interval.high * scale
    decide (low < real ∧ real < high) || (interval.closed && decide (real = low ∨ real = high))
  let floor := value / grid
  let ceil := floor + 1
  match inside floor, inside ceil with
  | true, false => some floor
  | false, true => some ceil
  | false, false => none
  | true, true =>
    let down := value - floor * grid
    let up := ceil * grid - value
    if down < up ∨ (down = up ∧ floor % 2 = 0) then some floor else some ceil

/-- Search the grids from coarse to fine. -/
def search (interval : Interval) : Nat → Int → Decimal
  | 0, exponent => ⟨0, exponent⟩
  | fuel + 1, exponent =>
    match interval.pointOn? exponent with
    | some point => ⟨point, exponent⟩
    | none => search interval fuel (exponent - 1)

/-- The shortest decimal of a positive count of steps. The first grid is coarser than the
largest double, and the last one finer than a step. -/
def shortest (steps : Nat) : Decimal :=
  search (.around steps) 640 309

end Decimal

end ResourceModels
