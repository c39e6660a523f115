import Viewloom.Html.EntityTable
import Viewloom.Text.Basic

/-!
# Character references

What may follow an ampersand: a number, or the longest name of the table that the text begins
with. Within an attribute value a name without a semicolon is not read before an equals sign or an
alphanumeric character.
-/

namespace Viewloom.Html

/-- The value of a hexadecimal digit. -/
def hexDigit? (c : Char) : Option Nat :=
  if '0' ≤ c ∧ c ≤ '9' then some (c.toNat - '0'.toNat)
  else if 'a' ≤ c ∧ c ≤ 'f' then some (c.toNat - 'a'.toNat + 10)
  else if 'A' ≤ c ∧ c ≤ 'F' then some (c.toNat - 'A'.toNat + 10)
  else none

def hexValue (digits : Text) : Nat :=
  digits.foldl (fun value c => value * 16 + (hexDigit? c).getD 0) 0

def decimalValue (digits : Text) : Nat :=
  digits.foldl (fun value c => value * 10 + (c.toNat - '0'.toNat)) 0

/-- The characters that the numbers from 128 to 159 stand for. -/
def replacements : List Nat :=
  [0x20ac, 0x81, 0x201a, 0x192, 0x201e, 0x2026, 0x2020, 0x2021, 0x2c6, 0x2030, 0x160, 0x2039,
    0x152, 0x8d, 0x17d, 0x8f, 0x90, 0x2018, 0x2019, 0x201c, 0x201d, 0x2022, 0x2013, 0x2014,
    0x2dc, 0x2122, 0x161, 0x203a, 0x153, 0x9d, 0x17e, 0x178]

/-- The character that stands for those that cannot be read. -/
def replacementChar : Char := Char.ofNat 0xfffd

/-- The character of a numeric reference. -/
def charOfNumber (n : Nat) : Char :=
  if n = 0 ∨ 0x10ffff < n ∨ (0xd800 ≤ n ∧ n ≤ 0xdfff) then replacementChar
  else if 0x80 ≤ n ∧ n ≤ 0x9f then Char.ofNat (replacements.getD (n - 0x80) n)
  else Char.ofNat n

/-- The name and the value of an item of the table. -/
def readItem (item : Text) : Text × Text :=
  let name := item.takeWhile (· != '=')
  let codes := List.splitOnP (· == '-') (item.drop (name.length + 1))
  (name, codes.map fun code => Char.ofNat (hexValue code))

/-- The names that begin with a letter, without it, and their values. -/
def entitiesOf (letter : Char) : List (Text × Text) :=
  (List.splitOnP (· == ' ') (entityItems letter)).map readItem

/-- The longer of two names. -/
def longerName (best : Option (Text × Text)) (entity : Text × Text) : Option (Text × Text) :=
  match best with
  | none => some entity
  | some known => if known.1.length < entity.1.length then some entity else some known

/-- The longest name that a text begins with, and its value. -/
def longestName : Text → Option (Text × Text)
  | [] => none
  | letter :: s =>
    if letter.isAlpha then
      (((entitiesOf letter).filter fun entity => entity.1.isPrefixOf s).foldl longerName
        none).map fun (name, value) => (letter :: name, value)
    else none

/-- Whether a name without a semicolon is left alone before a character of an attribute value. -/
def blocksName (next : Option Char) : Bool := next.any fun c => c == '=' || c.isAlphanum

/-- Reads a named reference: its characters and its length. In attributes a name without a semicolon
counts only if nothing goes on behind it. -/
def namedReference (inAttribute : Bool) (s : Text) : Option (Text × Nat) :=
  match longestName s with
  | none => none
  | some (name, value) =>
    if inAttribute && name.getLast? != some ';' && blocksName (s.drop name.length).head? then none
    else some (value, name.length)

/-- Reads a run of digits and an optional semicolon; `before` characters have been read. -/
def numberReference (before : Nat) (value : Text → Nat) (digits rest : Text) :
    Option (Text × Nat) :=
  if digits = [] then none
  else
    let semicolon := if rest.head? = some ';' then 1 else 0
    some ([charOfNumber (value digits)], before + digits.length + semicolon)

/-- What a text behind an ampersand stands for, and how many of its characters are read. -/
def charReference (inAttribute : Bool) : Text → Option (Text × Nat)
  | '#' :: 'x' :: s =>
    let digits := s.takeWhile fun c => (hexDigit? c).isSome
    numberReference 2 hexValue digits (s.drop digits.length)
  | '#' :: 'X' :: s =>
    let digits := s.takeWhile fun c => (hexDigit? c).isSome
    numberReference 2 hexValue digits (s.drop digits.length)
  | '#' :: s =>
    let digits := s.takeWhile Char.isDigit
    numberReference 1 decimalValue digits (s.drop digits.length)
  | s => namedReference inAttribute s

end Viewloom.Html
