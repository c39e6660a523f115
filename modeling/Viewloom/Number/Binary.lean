/-!
# Binary numbers

Positive numbers with a significand of at most 53 bits and a limited exponent, and the rounding of
ratios to them. Zero has the significand zero.
-/

namespace Viewloom

/-- The number `significand * 2 ^ exponent`. -/
structure Binary where
  significand : Nat
  exponent : Int
  deriving DecidableEq, Repr

namespace Binary

/-- The number of bits of a significand. -/
def precision : Nat := 53

/-- The exponent of the least positive number and of all numbers of reduced precision. -/
def lowestExponent : Int := -1074

/-- The exponent of the greatest numbers. -/
def highestExponent : Int := 971

def zero : Binary := ⟨0, lowestExponent⟩

/-- The integer nearest to a ratio; a half goes to the even neighbour. -/
def roundHalfEven (num den : Nat) : Nat :=
  let whole := num / den
  let twice := 2 * (num % den)
  if den < twice ∨ den = twice ∧ whole % 2 = 1 then whole + 1 else whole

/-- The ratio `num / den` divided by a power of two, as a ratio. -/
def unscale (num den : Nat) (exponent : Int) : Nat × Nat :=
  if 0 ≤ exponent then (num, den * Nat.pow 2 exponent.toNat)
  else (num * Nat.pow 2 (-exponent).toNat, den)

/-- The exponent for which a ratio has a significand of full length, or the lowest one. -/
def exponentOf (num den : Nat) : Int :=
  let guess : Int := (Nat.log2 num : Int) - (Nat.log2 den : Int) - (precision : Int) + 1
  let (n, d) := unscale num den guess
  max lowestExponent (if n < d * Nat.pow 2 (precision - 1) then guess - 1 else guess)

/-- The binary number nearest to a ratio, unless the ratio is too great. -/
def ofRatio (num den : Nat) : Option Binary :=
  if num = 0 then some zero
  else
    let exponent := exponentOf num den
    let (n, d) := unscale num den exponent
    let significand := roundHalfEven n d
    let (significand, exponent) :=
      if significand = Nat.pow 2 precision then (Nat.pow 2 (precision - 1), exponent + 1)
      else (significand, exponent)
    if highestExponent < exponent then none else some ⟨significand, exponent⟩

/-- The value as an integer, if it is one. -/
def toNat? (b : Binary) : Option Nat :=
  if 0 ≤ b.exponent then some (b.significand * Nat.pow 2 b.exponent.toNat)
  else
    let unit := Nat.pow 2 (-b.exponent).toNat
    if b.significand % unit = 0 then some (b.significand / unit) else none

end Binary

end Viewloom
