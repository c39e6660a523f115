import Viewloom.Number.Binary
import Viewloom.Text.Basic

/-!
# Shortest decimals

The decimal with the fewest digits that still rounds to a given binary number. All numbers of digits
are tried in turn, each with the two neighbours of the value on its grid.
-/

namespace Viewloom

/-- The number `0.digits * 10 ^ point`, whose digits neither begin nor end with a zero. -/
structure Decimal where
  digits : Text
  point : Int
  deriving DecidableEq, Repr

namespace Decimal

def digitsOf (n : Nat) : Text := Nat.toDigits 10 n

/-- The number `n * 10 ^ exponent`. -/
def ofScaled (n : Nat) (exponent : Int) : Decimal :=
  let digits := digitsOf n
  ⟨Text.dropWhileEnd (· == '0') digits, digits.length + exponent⟩

/-- A value and the bounds of what rounds to it, over a common denominator. -/
structure Interval where
  low : Nat
  value : Nat
  high : Nat
  den : Nat
  closed : Bool

namespace Interval

/-- What rounds to a binary number: half the way to its neighbours, of which the lower one is nearer
below a power of two. -/
def ofBinary (b : Binary) : Interval :=
  let narrow := b.significand = Nat.pow 2 (Binary.precision - 1) ∧ Binary.lowestExponent < b.exponent
  let exponent := b.exponent - 2
  let (scale, den) :=
    if 0 ≤ exponent then (Nat.pow 2 exponent.toNat, 1) else (1, Nat.pow 2 (-exponent).toNat)
  let m := 4 * b.significand
  ⟨(if narrow then m - 1 else m - 2) * scale, m * scale, (m + 2) * scale, den,
    b.significand % 2 = 0⟩

/-- Whether `n * 10 ^ exponent` lies in an interval. -/
def contains (i : Interval) (n : Nat) (exponent : Int) : Bool :=
  let (x, scale) :=
    if 0 ≤ exponent then (n * Nat.pow 10 exponent.toNat * i.den, 1)
    else (n * i.den, Nat.pow 10 (-exponent).toNat)
  if i.closed then decide (i.low * scale ≤ x ∧ x ≤ i.high * scale)
  else decide (i.low * scale < x ∧ x < i.high * scale)

/-- The value divided by a power of ten, as a ratio. -/
def unscale (i : Interval) (exponent : Int) : Nat × Nat :=
  if 0 ≤ exponent then (i.value, i.den * Nat.pow 10 exponent.toNat)
  else (i.value * Nat.pow 10 (-exponent).toNat, i.den)

end Interval

/-- The number of zeros behind the point of a ratio below one. -/
def leadingZeros : Nat → Nat → Nat → Nat
  | 0, _, _ => 0
  | rounds + 1, num, den =>
    if den ≤ 10 * num then 0 else leadingZeros rounds (10 * num) den + 1

/-- The place of the point in front of the first digit of a ratio. -/
def pointOf (num den : Nat) : Int :=
  if den ≤ num then ((digitsOf (num / den)).length : Int)
  else -(leadingZeros 400 num den : Int)

/-- The nearer one of the two neighbours of a value on a grid that lie in an interval. -/
def onGrid (i : Interval) (exponent : Int) : Option Nat :=
  let (num, den) := i.unscale exponent
  let below := num / den
  let nearest := if 2 * (num % den) ≤ den then below else below + 1
  let other := if 2 * (num % den) ≤ den then below + 1 else below
  if i.contains nearest exponent then some nearest
  else if i.contains other exponent then some other
  else none

/-- The first grid, from one digit up, on which an interval has a point. -/
def search (i : Interval) (point : Int) : Nat → Nat → Decimal
  | 0, _ => ⟨[], 0⟩
  | rounds + 1, digits =>
    let exponent := point - (digits : Int)
    match onGrid i exponent with
    | some n => ofScaled n exponent
    | none => search i point rounds (digits + 1)

/-- The shortest decimal of a positive binary number. -/
def shortest (b : Binary) : Decimal :=
  let i := Interval.ofBinary b
  search i (pointOf i.value i.den) 17 1

def zeros (n : Nat) : Text := List.replicate n '0'

/-- Places a point between digits, where the first ones are as many as given. -/
def withPoint (whole : Nat) (digits : Text) : Text :=
  digits.take whole ++ '.' :: digits.drop whole

/-- The text of a decimal: positional from a millionth up to below 10 ^ 21, and else with an exponent
behind the first digit and the fraction. -/
def toText (d : Decimal) : Text :=
  let n := d.digits.length
  if (n : Int) ≤ d.point ∧ d.point ≤ 21 then d.digits ++ zeros (d.point.toNat - n)
  else if 0 < d.point ∧ d.point ≤ 21 then withPoint d.point.toNat d.digits
  else if -6 < d.point ∧ d.point ≤ 0 then
    text "0." ++ zeros (-d.point).toNat ++ d.digits
  else
    let mantissa := if n ≤ 1 then d.digits else withPoint 1 d.digits
    let exponent := d.point - 1
    if 0 ≤ exponent then mantissa ++ text "e+" ++ digitsOf exponent.toNat
    else mantissa ++ text "e-" ++ digitsOf (-exponent).toNat

end Decimal

/-- The shortest text that is read back as a binary number. -/
def Binary.toText (b : Binary) : Text :=
  if b.significand = 0 then ['0'] else (Decimal.shortest b).toText

end Viewloom
