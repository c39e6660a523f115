import Viewloom.Json.Basic

/-!
# Reading JSON

A text is read as one value with blanks around it. Arrays and objects may stand in one another up to
a limit.
-/

namespace Viewloom.Json

/-- How deep arrays and objects may stand in one another. -/
def depthLimit : Nat := 127

/-- Whether a character may stand between the signs of a document. -/
def isSpace (c : Char) : Bool := c == ' ' || c == '\n' || c == '\t' || c == '\r'

def skipSpaces (s : Text) : Text := s.dropWhile isSpace

/-- The value of a hexadecimal digit of either case. -/
def hexValue? (c : Char) : Option Nat :=
  if '0' ≤ c ∧ c ≤ '9' then some (c.toNat - 48)
  else if 'a' ≤ c ∧ c ≤ 'f' then some (c.toNat - 87)
  else if 'A' ≤ c ∧ c ≤ 'F' then some (c.toNat - 55)
  else none

/-- Reads four hexadecimal digits. -/
def codeUnit? : Text → Option (Nat × Text)
  | a :: b :: c :: d :: s =>
    match hexValue? a, hexValue? b, hexValue? c, hexValue? d with
    | some a, some b, some c, some d => some (((a * 16 + b) * 16 + c) * 16 + d, s)
    | _, _, _, _ => none
  | _ => none

/-- Reads an escaped code point, for which two surrogates may be needed. -/
def codePoint? (s : Text) : Option (Char × Text) :=
  match codeUnit? s with
  | none => none
  | some (high, s) =>
    if high < 0xd800 ∨ 0xdfff < high then some (Char.ofNat high, s)
    else if 0xdc00 ≤ high then none
    else
      match s with
      | '\\' :: 'u' :: s =>
        match codeUnit? s with
        | some (low, s) =>
          if 0xdc00 ≤ low ∧ low ≤ 0xdfff then
            some (Char.ofNat (0x10000 + (high - 0xd800) * 0x400 + (low - 0xdc00)), s)
          else none
        | none => none
      | _ => none

/-- Reads the character that a backslash escapes. -/
def escape? : Text → Option (Char × Text)
  | '"' :: s => some ('"', s)
  | '\\' :: s => some ('\\', s)
  | '/' :: s => some ('/', s)
  | 'b' :: s => some (Char.ofNat 8, s)
  | 'f' :: s => some (Char.ofNat 12, s)
  | 'n' :: s => some ('\n', s)
  | 'r' :: s => some ('\r', s)
  | 't' :: s => some ('\t', s)
  | 'u' :: s => codePoint? s
  | _ => none

/-- Reads a string behind its opening quote, in a limited number of rounds. -/
def stringWithin : Nat → Text → Option (Text × Text)
  | 0, _ => none
  | _ + 1, [] => none
  | rounds + 1, c :: s =>
    if c = '"' then some ([], s)
    else if c = '\\' then
      match escape? s with
      | some (d, s) => (stringWithin rounds s).map fun (value, s) => (d :: value, s)
      | none => none
    else if c.toNat < 32 then none
    else (stringWithin rounds s).map fun (value, s) => (c :: value, s)

/-- Reads a string behind its opening quotation mark. -/
def string? (s : Text) : Option (Text × Text) := stringWithin (s.length + 1) s

/-- Reads at least one digit. -/
def digits? (s : Text) : Option (Text × Text) :=
  let digits := s.takeWhile Char.isDigit
  if digits = [] then none else some (digits, s.drop digits.length)

/-- Reads digits that have no leading zero. -/
def integer? : Text → Option (Text × Text)
  | '0' :: s => if s.head?.any Char.isDigit then none else some (['0'], s)
  | s => digits? s

/-- Reads the part of a number behind its point, if there is one. -/
def fraction? : Text → Option (Text × Text)
  | '.' :: s => (digits? s).map fun (digits, s) => ('.' :: digits, s)
  | s => some ([], s)

/-- Reads the scale of a number, if there is one. -/
def exponent? : Text → Option (Text × Text)
  | c :: s =>
    if c = 'e' ∨ c = 'E' then
      match s with
      | '+' :: s => (digits? s).map fun (digits, s) => (c :: '+' :: digits, s)
      | '-' :: s => (digits? s).map fun (digits, s) => (c :: '-' :: digits, s)
      | s => (digits? s).map fun (digits, s) => (c :: digits, s)
    else some ([], c :: s)
  | [] => some ([], [])

/-- Reads a number without its sign, as it is spelled. -/
def unsigned? (s : Text) : Option (Text × Text) := do
  let (whole, s) ← integer? s
  let (part, s) ← fraction? s
  let (scale, s) ← exponent? s
  some (whole ++ part ++ scale, s)

/-- Reads a number, as it is spelled. -/
def number? : Text → Option (Json × Text)
  | '-' :: s => (unsigned? s).map fun (spelling, s) => (number ('-' :: spelling), s)
  | s => (unsigned? s).map fun (spelling, s) => (number spelling, s)

/-- Reads items up to a closing bracket, with commas between them. -/
def itemsWithin {α : Type} (close : Char) (item : Text → Option (α × Text)) :
    Nat → Text → Option (List α × Text)
  | 0, _ => none
  | rounds + 1, s =>
    match item (skipSpaces s) with
    | none => none
    | some (first, s) =>
      match skipSpaces s with
      | ',' :: s => (itemsWithin close item rounds s).map fun (rest, s) => (first :: rest, s)
      | c :: s => if c = close then some ([first], s) else none
      | [] => none

/-- Reads the items between two brackets, of which the first has been read. -/
def items? {α : Type} (close : Char) (item : Text → Option (α × Text)) (s : Text) :
    Option (List α × Text) :=
  match skipSpaces s with
  | [] => none
  | c :: rest => if c = close then some ([], rest) else itemsWithin close item (s.length + 1) (c :: rest)

/-- Reads a member of an object, given how its value is read. -/
def member? (value : Text → Option (Json × Text)) : Text → Option ((Text × Json) × Text)
  | '"' :: s =>
    match string? s with
    | none => none
    | some (name, s) =>
      match skipSpaces s with
      | ':' :: s => (value (skipSpaces s)).map fun (value, s) => ((name, value), s)
      | _ => none
  | _ => none

/-- Reads one of the words that stand for a value. -/
def word? (word : Text) (value : Json) (s : Text) : Option (Json × Text) :=
  (Text.stripStart word s).map fun s => (value, s)

/-- Reads a value that is no array or object. -/
def scalar? : Text → Option (Json × Text)
  | '"' :: s => (string? s).map fun (value, s) => (string value, s)
  | 'n' :: s => word? (text "ull") null s
  | 't' :: s => word? (text "rue") (bool true) s
  | 'f' :: s => word? (text "alse") (bool false) s
  | s => number? s

/-- Reads a value in which arrays and objects stand in one another up to a depth. -/
def valueWithin : Nat → Text → Option (Json × Text)
  | 0, s => scalar? s
  | depth + 1, s =>
    match s with
    | '[' :: s => (items? ']' (valueWithin depth) s).map fun (items, s) => (array items, s)
    | '{' :: s =>
      (items? '}' (member? (valueWithin depth)) s).map fun (members, s) => (object members, s)
    | s => scalar? s

/-- Reads a text that holds one value. -/
def read (s : Text) : Option Json :=
  match valueWithin depthLimit (skipSpaces s) with
  | some (value, rest) => if skipSpaces rest = [] then some value else none
  | none => none

end Viewloom.Json
