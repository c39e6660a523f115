import Viewloom.Script.Tree
import Viewloom.Text.Basic
import Viewloom.Unicode.Blank

/-!
# Laid out trees

A laid out tree can be written at a depth of indentation and in a place of a line. Its level tells
how tightly it binds, and so whether it needs parentheses where it stands.
-/

namespace Viewloom.Script

/-- Where an expression begins: some of them need parentheses at the beginning of a statement, of the
body of an arrow or of a default export, and calls in the callee of `new`. -/
inductive Place where
  | inner
  | statement
  | arrow
  | exported
  | callee
  deriving DecidableEq, Repr

/-- Whether an expression ends in a chain with an optional part, which parentheses close. -/
inductive Chain where
  | no
  | opened
  | closed
  deriving DecidableEq, Repr

/-- A tree as it is printed, given its place and its depth, and what those around it have to know of
it. -/
structure Laid where
  kind : Kind
  word : Text
  level : Nat
  chain : Chain
  write : Place → Nat → Text

namespace Laid

/-! ## Levels -/

def sequenceLevel : Nat := 1
def itemLevel : Nat := 2
def assignmentLevel : Nat := 4
def conditionalLevel : Nat := 5
def exponentLevel : Nat := 17
def unaryLevel : Nat := 18
def stepLevel : Nat := 19
def newLevel : Nat := 20
def callLevel : Nat := 21
def memberLevel : Nat := 22
def solidLevel : Nat := 23

/-- The levels of binary operators. -/
def operatorLevels : List (Text × Nat) :=
  [(text "??", 6), (text "||", 7), (text "&&", 8), (['|'], 9), (['^'], 10), (['&'], 11),
    (text "==", 12), (text "!=", 12), (text "===", 12), (text "!==", 12), (['<'], 13), (['>'], 13),
    (text "<=", 13), (text ">=", 13), (text "in", 13), (text "instanceof", 13), (text "<<", 14),
    (text ">>", 14), (text ">>>", 14), (['+'], 15), (['-'], 15), (['*'], 16), (['/'], 16),
    (['%'], 16), (text "**", exponentLevel)]

/-! ## Texts -/

/-- A text in parentheses. -/
def parenthesized (s : Text) : Text := '(' :: s ++ [')']

/-- Writes an expression where one of a lower level stands in parentheses. -/
def writeAt (least : Nat) (place : Place) (t : Laid) (depth : Nat) : Text :=
  if t.level < least then parenthesized (t.write .inner depth) else t.write place depth

/-- Writes an expression that is not at the beginning of anything. -/
def above (least : Nat) (t : Laid) (depth : Nat) : Text := t.writeAt least .inner depth

/-- Writes a part that is no operand. -/
def plain (t : Laid) (depth : Nat) : Text := t.write .inner depth

def tabs (depth : Nat) : Text := List.replicate depth '\t'

/-- Writes parts on lines of their own, each behind a line end. -/
def lines (ts : List Laid) (depth : Nat) : Text :=
  ts.flatMap fun t => '\n' :: tabs depth ++ t.write .statement depth

/-- Writes statements or members in braces. -/
def braced (ts : List Laid) (depth : Nat) : Text :=
  if ts.isEmpty then text "\x7b\x7d"
  else '{' :: lines ts (depth + 1) ++ '\n' :: tabs depth ++ ['}']

/-- Writes parts with commas between them. -/
def listed (ts : List Laid) (depth : Nat) : Text :=
  List.intercalate (text ", ") (ts.map fun t => t.above itemLevel depth)

/-- Writes parts on lines of their own with commas between them. -/
def listedLines (ts : List Laid) (depth : Nat) : Text :=
  '\n' :: List.intercalate (text ",\n")
    (ts.map fun t => tabs (depth + 1) ++ t.above itemLevel (depth + 1)) ++ '\n' :: tabs depth

def isHole (t : Laid) : Bool := t.kind == .hole

/-- An expression or a part that needs no parentheses. -/
def solid (kind : Kind) (word : Text) (write : Nat → Text) : Laid :=
  ⟨kind, word, solidLevel, .no, fun _ depth => write depth⟩

/-- An expression that stands in parentheses in some places. -/
def guarded (kind : Kind) (places : List Place) (write : Nat → Text) : Laid :=
  ⟨kind, [], solidLevel, .no, fun place depth =>
    if places.contains place then parenthesized (write depth) else write depth⟩

end Laid

/-! ## Comments -/

/-- Cuts a text at its line ends. -/
def commentLines (s : Text) : List Text := List.splitOnP (· == '\n') (s.filter (· != '\r'))

/-- Writes a comment, whose further lines are indented anew. -/
def writeComment (source : Text) (depth : Nat) : Text :=
  match commentLines source with
  | [] => []
  | first :: rest =>
    first ++ rest.flatMap fun line => '\n' :: Laid.tabs depth ++ Text.trimStart line

end Viewloom.Script
