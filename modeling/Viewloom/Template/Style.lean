import Viewloom.Template.Basic
import Viewloom.Unicode.Blank

/-!
# Inline styles

The declarations of a style attribute, and the spelling of their properties as keys of a style
object.
-/

namespace Viewloom.Template

/-- Puts a character in front of the first of several pieces. -/
def consFirst (c : Char) : List Text → List Text
  | [] => [[c]]
  | piece :: pieces => (c :: piece) :: pieces

/-- The quote that is open behind a character. -/
def quoteAfter (quote : Option Char) (c : Char) : Option Char :=
  match quote with
  | some q => if c = q then none else some q
  | none => if c = '"' ∨ c = '\'' then some c else none

/-- The number of open parentheses behind a character. -/
def depthAfter (quote : Option Char) (depth : Nat) (c : Char) : Nat :=
  if quote.isSome then depth
  else if c = '(' then depth + 1
  else if c = ')' then depth - 1
  else depth

/-- Cuts a style at the semicolons outside of quotes and parentheses. -/
def splitDeclarations (quote : Option Char) (depth : Nat) : Text → List Text
  | [] => [[]]
  | c :: s =>
    if quote.isNone && c == ';' && depth == 0 then [] :: splitDeclarations none 0 s
    else consFirst c (splitDeclarations (quoteAfter quote c) (depthAfter quote depth c) s)

/-- Reads a property and a value, neither of them blank. -/
def readDeclaration (s : Text) : Option Declaration :=
  match Text.splitOnce [':'] s with
  | none => none
  | some (property, value) =>
    let property := Text.trim property
    let value := Text.trim value
    if property = [] ∨ value = [] then none else some ⟨property, value⟩

/-- The declarations of a style attribute; incomplete ones are dropped. -/
def parseStyle (style : Text) : List Declaration :=
  (splitDeclarations none 0 style).filterMap readDeclaration

/-- Drops hyphens and raises the letters behind them. -/
def joinHumps : Bool → Text → Text
  | _, [] => []
  | raise, c :: s =>
    if c = '-' then joinHumps true s
    else (if raise then c.toUpper else c) :: joinHumps false s

/-- Whether a property is a custom one, whose name is not changed. -/
def isCustom (property : Text) : Bool := (text "--").isPrefixOf property

/-- The key of a property in a style object. Custom properties keep their names. -/
def styleKey (property : Text) : Text :=
  if isCustom property then property
  else
    let lower := Text.lowerAscii property
    match Text.stripStart (text "-ms-") lower with
    | some rest => joinHumps false (text "ms-" ++ rest)
    | none => joinHumps false lower

/-- Lowers capitals and puts hyphens in front of them. -/
def splitHumps (key : Text) : Text :=
  key.flatMap fun c => if c.isUpper then ['-', c.toLower] else [c]

/-- The name of a property in a stylesheet, read back from its key. -/
def cssProperty (property : Text) : Text :=
  let key := styleKey property
  if isCustom key then key
  else
    let name := splitHumps key
    if (text "ms-").isPrefixOf name then '-' :: name else name

end Viewloom.Template
