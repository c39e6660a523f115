import Viewloom.Json.Basic

/-!
# Written JSON

The compact form of a value. Characters outside of ASCII are written as they are.
-/

namespace Viewloom.Json

def hexDigit (n : Nat) : Char := if n < 10 then Char.ofNat (48 + n) else Char.ofNat (87 + n)

/-- A character within quotation marks. Control characters have a short escape or their number. -/
def escapeChar (c : Char) : Text :=
  if c = '"' then ['\\', '"']
  else if c = '\\' then ['\\', '\\']
  else if c = '\n' then ['\\', 'n']
  else if c = '\r' then ['\\', 'r']
  else if c = '\t' then ['\\', 't']
  else if c.toNat = 8 then ['\\', 'b']
  else if c.toNat = 12 then ['\\', 'f']
  else if c.toNat < 32 then
    ['\\', 'u', '0', '0', hexDigit (c.toNat / 16), hexDigit (c.toNat % 16)]
  else [c]

def writeString (s : Text) : Text := '"' :: s.flatMap escapeChar ++ ['"']

mutual

/-- Writes a value without any blanks. -/
def write : Json → Text
  | null => text "null"
  | bool true => text "true"
  | bool false => text "false"
  | number spelling => spelling
  | string value => writeString value
  | array [] => ['[', ']']
  | array (item :: items) => '[' :: write item ++ writeItems items ++ [']']
  | object [] => ['{', '}']
  | object ((name, value) :: members) =>
    '{' :: writeString name ++ ':' :: write value ++ writeMembers members ++ ['}']

def writeItems : List Json → Text
  | [] => []
  | item :: items => ',' :: write item ++ writeItems items

def writeMembers : List (Text × Json) → Text
  | [] => []
  | (name, value) :: members => ',' :: writeString name ++ ':' :: write value ++ writeMembers members

end

end Viewloom.Json
