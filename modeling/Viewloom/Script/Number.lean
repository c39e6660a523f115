import Viewloom.Number.Shortest
import Viewloom.Script.Token

/-!
# Numbers in scripts

The value of a spelling, and the least spelling of a value.
-/

namespace Viewloom.Script

/-- A value that is not rounded yet: `digits * 10 ^ exponent`. -/
structure Scaled where
  digits : Nat
  exponent : Int
  deriving DecidableEq, Repr

/-- The value of digits in a base. -/
def valueInBase (base : Nat) (digits : Text) : Nat :=
  digits.foldl (fun n c => base * n + (hexValue? c).getD 0) 0

/-- The value of a signed exponent behind its mark. -/
def exponentValue : Text → Int
  | '-' :: digits => -(valueInBase 10 digits : Int)
  | '+' :: digits => (valueInBase 10 digits : Int)
  | digits => (valueInBase 10 digits : Int)

/-- The value of a decimal spelling with a fraction and an exponent. -/
def decimalValue (spelling : Text) : Scaled :=
  let mantissa := spelling.takeWhile fun c => c != 'e' && c != 'E'
  let scale := exponentValue (spelling.drop (mantissa.length + 1))
  let whole := mantissa.takeWhile Char.isDigit
  let part := mantissa.drop (whole.length + 1)
  ⟨valueInBase 10 (whole ++ part), scale - (part.length : Int)⟩

/-- The value of the spelling of a number. -/
def numberValue (spelling : Text) : Scaled :=
  match spelling.filter (· != '_') with
  | '0' :: c :: digits =>
    if c = 'x' ∨ c = 'X' then ⟨valueInBase 16 digits, 0⟩
    else if c = 'o' ∨ c = 'O' then ⟨valueInBase 8 digits, 0⟩
    else if c = 'b' ∨ c = 'B' then ⟨valueInBase 2 digits, 0⟩
    else if (c :: digits).all isOctalDigit then ⟨valueInBase 8 (c :: digits), 0⟩
    else decimalValue ('0' :: c :: digits)
  | spelling => decimalValue spelling

/-- The binary number nearest to a value, which is nothing if the value is too great. -/
def Scaled.nearest (v : Scaled) : Option Binary :=
  let place := ((Decimal.digitsOf v.digits).length : Int) + v.exponent
  if v.digits = 0 then some .zero
  else if 400 < place then none
  else if place < -400 then some .zero
  else if 0 ≤ v.exponent then Binary.ofRatio (v.digits * Nat.pow 10 v.exponent.toNat) 1
  else Binary.ofRatio v.digits (Nat.pow 10 (-v.exponent).toNat)

/-- The shorter one of two texts, and the first of two with one length. -/
def shorter (s t : Text) : Text := if t.length < s.length then t else s

/-- Drops a zero in front of a point, and the sign of a positive exponent. -/
def bare (s : Text) : Text :=
  let s := match s with
    | '0' :: '.' :: digits => '.' :: digits
    | s => s
  match Text.splitOnce (text "e+") s with
  | some (mantissa, exponent) => mantissa ++ 'e' :: exponent
  | none => s

/-- Writes a fraction that begins with zeros with an exponent. -/
def scaleFraction (s : Text) : Text :=
  match s with
  | '.' :: '0' :: rest =>
    let digits := rest.dropWhile (· == '0')
    if digits = [] then s else digits ++ text "e-" ++ Decimal.digitsOf (s.length - 1)
  | _ => s

/-- Writes the zeros at the end as an exponent. -/
def scaleZeros (s : Text) : Text :=
  let base := Text.dropWhileEnd (· == '0') s
  if base.length = s.length then s
  else base ++ 'e' :: Decimal.digitsOf (s.length - base.length)

/-- Writes a fraction in front of an exponent without its point. -/
def scaleMantissa (s : Text) : Text :=
  match Text.splitOnce ['.'] s with
  | none => s
  | some (whole, after) =>
    match Text.splitOnce ['e'] after with
    | none => s
    | some (part, exponent) =>
      let exponent := exponentValue exponent - (part.length : Int)
      whole ++ part ++ 'e' ::
        (if exponent < 0 then '-' :: Decimal.digitsOf (-exponent).toNat
        else Decimal.digitsOf exponent.toNat)

/-- The least spelling of a number whose integer value is given, if it is one: positional, with an
exponent, or hexadecimal. -/
def leastSpelling (s : Text) (whole : Option Nat) : Text :=
  match whole with
  | some n =>
    let hex := text "0x" ++ Nat.toDigits 16 n
    if hex.length < s.length then hex
    else
      let s := shorter s (scaleZeros s)
      shorter s (scaleMantissa s)
  | none =>
    let s := shorter s (scaleFraction s)
    let s := shorter s (scaleZeros s)
    shorter s (scaleMantissa s)

/-- The least spelling of a binary number. Integers below a thousand stay as they are. -/
def spell (b : Binary) : Text :=
  match b.toNat? with
  | some n => if n < 1000 then Decimal.digitsOf n else leastSpelling (bare b.toText) (some n)
  | none => leastSpelling (bare b.toText) none

/-- Respells a number. Big integers keep their digits. -/
def respell (spelling : Text) : Text :=
  if spelling.getLast? = some 'n' then spelling.filter (· != '_')
  else
    match (numberValue spelling).nearest with
    | some b => spell b
    | none => text "Infinity"

end Viewloom.Script
