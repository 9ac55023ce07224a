/-!
# Doubles as whole numbers of the smallest step

Every finite double is a whole multiple of 2⁻¹⁰⁷⁴. Written as that multiple, the rounding
of a product, a quotient or a decimal is a rounding of naturals: keep 53 significant bits
and send a half to the even neighbour. The same rounding serves normal and subnormal
values, because a count below 2⁵³ is kept as it is.
-/

namespace ResourceModels

/-- A finite double: a sign, kept for zero too, and a count of steps of 2⁻¹⁰⁷⁴. -/
structure Binary64 where
  negative : Bool
  steps : Nat
  deriving DecidableEq, Repr, Inhabited

namespace Binary64

/-- The steps in the value one. -/
def one : Nat := Nat.pow 2 1074

/-- The first count of steps that is out of range. -/
def limit : Nat := Nat.pow 2 2098

def bitLength (n : Nat) : Nat := if n = 0 then 0 else n.log2 + 1

/-- The whole number nearest to a quotient, a half going to the even neighbour. -/
def roundQuotient (num den : Nat) : Nat :=
  let quotient := num / den
  let rest := num % den
  if 2 * rest < den ∨ (2 * rest = den ∧ quotient % 2 = 0) then quotient else quotient + 1

/-- The quotient with 53 significant bits, and never finer than a whole step. -/
def roundSteps (num den : Nat) : Nat :=
  let unit := Nat.pow 2 (bitLength (num / den) - 53)
  unit * roundQuotient num (den * unit)

/-- The double nearest to a power of ten, as a whole number. -/
def tenPower (k : Nat) : Nat := roundSteps (Nat.pow 10 k) 1

/-- The largest power of ten by which a value is scaled in one step. -/
def largestTenPower : Nat := 308

/-- Divide by a power of ten, in steps of at most the largest one. Each step rounds. -/
def scaleDown (steps k : Nat) : Nat :=
  if k ≤ largestTenPower then roundSteps steps (tenPower k)
  else if steps = 0 then 0
  else scaleDown (roundSteps steps (tenPower largestTenPower)) (k - largestTenPower)
termination_by k
decreasing_by simp only [largestTenPower] at *; omega

/-- The steps of `significand * 10 ^ exponent`: the significand is rounded first, and then its
product or quotient with the rounded power. `none` when the value is out of range. -/
def ofDecimal? (significand : Nat) (exponent : Int) : Option Nat :=
  let start := roundSteps (significand * one) 1
  match exponent with
  | .ofNat k =>
    if k ≤ largestTenPower then
      let scaled := roundSteps (start * tenPower k) 1
      if scaled < limit then some scaled else none
    else if start = 0 then some 0 else none
  | .negSucc k => some (scaleDown start (k + 1))

end Binary64

end ResourceModels
