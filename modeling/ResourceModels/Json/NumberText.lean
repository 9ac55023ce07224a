import ResourceModels.Json.Basic
import ResourceModels.Number.Shortest

/-!
# Numbers in JSON text

An integer literal that fits 64 bits stays an integer. Every other literal is a double: as
many leading digits as fit 64 bits are kept, and the digits after them only scale. A double is
written with its shortest digits, always recognisable as a double.
-/

namespace ResourceModels

/-- A number as written. Digits are values below ten. -/
structure NumberLiteral where
  negative : Bool
  whole : List Nat
  fraction : List Nat
  exponent : Option Int
  deriving Repr

namespace NumberLiteral

def wordLimit : Nat := Nat.pow 2 64

/-- Append digits while the result fits 64 bits. The digits left over are returned. -/
def absorb (significand : Nat) : List Nat → Nat × List Nat
  | [] => (significand, [])
  | digit :: rest =>
    let next := 10 * significand + digit
    if next < wordLimit then absorb next rest else (significand, digit :: rest)

def isInteger (literal : NumberLiteral) : Bool :=
  literal.fraction.isEmpty && literal.exponent.isNone

/-- The double a literal denotes; `none` when it is out of range. Fraction digits are appended
even where digits before the point were left over. -/
def real? (literal : NumberLiteral) : Option Binary64 :=
  let (whole, dropped) := absorb 0 literal.whole
  let (significand, unread) := absorb whole literal.fraction
  let places : Int := (literal.fraction.length - unread.length : Nat)
  let exponent := (dropped.length : Int) - places + literal.exponent.getD 0
  (Binary64.ofDecimal? significand exponent).map (⟨literal.negative, ·⟩)

/-- Negative zero is a double, and so is an integer beyond 64 bits. -/
def value? (literal : NumberLiteral) : Option Number :=
  let (whole, dropped) := absorb 0 literal.whole
  if literal.isInteger && dropped.isEmpty then
    if !literal.negative then some (.integer whole)
    else if 0 < whole ∧ whole ≤ Nat.pow 2 63 then some (.integer (-(whole : Int)))
    else literal.real?.map .real
  else literal.real?.map .real

end NumberLiteral

/-- Where a printed double changes from positional to scientific notation, by the
exponent of its first digit. -/
structure RealLayout where
  leastPositional : Int
  greatestPositional : Int
  deriving Repr

namespace Number

def realLayout : RealLayout := ⟨-5, 15⟩

def decimalDigits (n : Nat) : List Char := Nat.toDigits 10 n

def integerText : Int → List Char
  | .ofNat n => decimalDigits n
  | .negSucc n => '-' :: decimalDigits (n + 1)

/-- Positional notation keeps a digit after the point; scientific notation keeps the sign of
the exponent. `lead` is the exponent of the first digit. -/
def layDigits (layout : RealLayout) (digits : List Char) (lead : Int) : List Char :=
  if layout.leastPositional ≤ lead ∧ lead ≤ layout.greatestPositional then
    match lead with
    | .ofNat k =>
      let whole := digits.take (k + 1) ++ List.replicate (k + 1 - digits.length) '0'
      let fraction := digits.drop (k + 1)
      whole ++ '.' :: (if fraction.isEmpty then ['0'] else fraction)
    | .negSucc k => ['0', '.'] ++ List.replicate k '0' ++ digits
  else
    let fraction := digits.drop 1
    let mantissa := digits.take 1 ++ (if fraction.isEmpty then [] else '.' :: fraction)
    let sign := if 0 ≤ lead then '+' else '-'
    mantissa ++ 'e' :: sign :: decimalDigits lead.natAbs

def realText (value : Binary64) : List Char :=
  let body :=
    if value.steps = 0 then ['0', '.', '0']
    else
      let decimal := Decimal.shortest value.steps
      let digits := decimalDigits decimal.digits
      layDigits realLayout digits (decimal.exponent + digits.length - 1)
  if value.negative then '-' :: body else body

def text : Number → List Char
  | .integer value => integerText value
  | .real value => realText value

end Number

end ResourceModels
