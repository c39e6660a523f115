import Viewloom.Script.Token
import Viewloom.Script.Tree

/-!
# Parsers of scripts

A parser reads a tree from a source that stands in front of a token. Every token parser leaves the
source in front of the next token, except for the raw ones, which are for texts between tags and in
templates.
-/

namespace Viewloom.Script

/-- What is still to be read, and the gap in front of it. -/
structure Source where
  rest : Text
  hasBreak : Bool
  comments : List Comment

namespace Source

/-- The source in front of the first token of a text. -/
def ofText (s : Text) : Option Source :=
  (gap s).map fun g => ⟨g.rest, g.hasBreak, g.comments⟩

/-- A source that is read on without a gap. -/
def raw (s : Text) : Source := ⟨s, false, []⟩

end Source

/-- A parser, which fails or gives what it has read and the source behind it. -/
def Parser (α : Type) : Type := Source → Option (α × Source)

namespace Parser

variable {α β : Type}

instance : Monad Parser where
  pure a := fun s => some (a, s)
  bind p f := fun s =>
    match p s with
    | some (a, s) => f a s
    | none => none

def fail : Parser α := fun _ => none

/-- The source that is left. -/
def source : Parser Source := fun s => some (s, s)

def ofOption : Option α → Parser α
  | some a => pure a
  | none => fail

/-- Fails unless a condition holds. -/
def require (condition : Bool) : Parser Unit := if condition then pure () else fail

/-- A token parser from a scanner. -/
def token (read : Text → Option (α × Text)) : Parser α := fun s =>
  match read s.rest with
  | some (a, rest) => (Source.ofText rest).map fun s => (a, s)
  | none => none

/-- A token parser that does not look for a gap behind its token. -/
def rawToken (read : Text → Option (α × Text)) : Parser α := fun s =>
  (read s.rest).map fun (a, rest) => (a, Source.raw rest)

/-- Looks for the gap in front of the next token. -/
def skipGap : Parser Unit := fun s => (Source.ofText s.rest).map fun s => ((), s)

/-- Whether the next token satisfies a test. -/
def peek (read : Text → Option (α × Text)) (test : α → Bool) : Parser Bool := fun s =>
  match read s.rest with
  | some (a, _) => some (test a, s)
  | none => some (false, s)

/-- The next character, without reading it. -/
def nextChar : Parser (Option Char) := fun s => some (s.rest.head?, s)

/-- Whether a line has ended in front of the next token. -/
def hasBreak : Parser Bool := fun s => some (s.hasBreak, s)

/-- The next punctuator, if the next token is one. -/
def nextMark : Parser Text := fun s =>
  match readPunctuator s.rest with
  | some (mark, _) => some (mark, s)
  | none => some ([], s)

/-- Whether a mark follows, without reading it. -/
def atMark (mark : Text) : Parser Bool := do
  let next ← nextMark
  pure (next == mark)

/-- Reads a punctuator. -/
def mark (mark : Text) : Parser Unit := do
  let next ← token readPunctuator
  require (next == mark)

/-- Reads a punctuator if it comes next. -/
def skipMark (wanted : Text) : Parser Bool := do
  if ← atMark wanted then
    mark wanted
    pure true
  else pure false

/-- Reads a character without the gap behind it. -/
def rawChar (wanted : Char) : Parser Unit :=
  rawToken fun s => (Text.stripStart [wanted] s).map fun rest => ((), rest)

/-- The next name, as far as it is spelled without escapes. -/
def nextWord : Parser Text := fun s =>
  match readName s.rest with
  | some (name, _) => some (if name.isEscaped then [] else name.word, s)
  | none => some ([], s)

/-- Whether a word follows, without reading it. -/
def atWord (word : Text) : Parser Bool := do
  let next ← nextWord
  pure (next == word)

/-- Reads a fixed word. -/
def word (word : Text) : Parser Unit := do
  let name ← token readName
  require (name == ⟨word, false⟩)

/-- Reads a word if it follows. -/
def skipWord (wanted : Text) : Parser Bool := do
  if ← atWord wanted then
    word wanted
    pure true
  else pure false

/-- The token behind the next name. -/
def behindWord (p : Parser α) : Parser α := fun s =>
  match token readName s with
  | some (_, after) => (p after).map fun (a, _) => (a, s)
  | none => none

/-- Reads the end of a statement. A semicolon may be left out in front of a closing brace, at the end
of the script and where a line ends. -/
def semicolon : Parser Unit := do
  if ← skipMark [';'] then pure ()
  else
    let s ← source
    require (s.hasBreak || s.rest == [] || s.rest.head? == some '}')

/-- Reads items as long as there are some, in a limited number of rounds. -/
def many (item : Parser (Option α)) : Nat → Parser (List α)
  | 0 => fail
  | rounds + 1 => do
    match ← item with
    | some a =>
      let rest ← many item rounds
      pure (a :: rest)
    | none => pure []

/-- Reads items up to a closing punctuator, with commas between them and perhaps behind the last one,
which is told. -/
def commaList (close : Text) (item : Parser α) : Nat → Parser (List α × Bool)
  | 0 => fail
  | rounds + 1 => do
    if ← skipMark close then pure ([], true)
    else
      let first ← item
      if ← skipMark close then pure ([first], false)
      else
        mark [',']
        let (rest, comma) ← commaList close item rounds
        pure (first :: rest, comma)

end Parser

/-! ## Contexts -/

/-- What surrounds a piece of a script. -/
structure Context where
  /-- The operator `in` ends an expression. -/
  withoutIn : Bool
  inFunction : Bool
  inGenerator : Bool
  canAwait : Bool
  /-- Imports and exports may stand here. -/
  isTop : Bool
  deriving DecidableEq, Repr

namespace Context

/-- The context of the statements of a module. -/
def top : Context := ⟨false, false, false, true, true⟩

/-- The context of a function body. -/
def ofFunction (isAsync isGenerator : Bool) : Context := ⟨false, true, isGenerator, isAsync, false⟩

/-- The context of a value or a block that belongs to a class. -/
def ofInitializer : Context := ⟨false, false, false, false, false⟩

/-- The context within brackets, where `in` is an operator again. -/
def allowIn (c : Context) : Context := { c with withoutIn := false }

/-- The context of a statement that is part of another one. -/
def nested (c : Context) : Context := { c with withoutIn := false, isTop := false }

end Context

/-- The parsers that the productions of the grammar refer back to, and a number of rounds that no
list in the script exceeds. -/
structure Grammar where
  rounds : Nat
  assignment : Context → Parser Tree
  statement : Context → Parser Tree
  element : Context → Parser Tree

namespace Grammar

open Viewloom.Script.Parser

/-- Reads expressions with commas between them. -/
def expressions (g : Grammar) (c : Context) : Nat → Parser (List Tree)
  | 0 => fail
  | rounds + 1 => do
    let first ← g.assignment c
    if ← skipMark [','] then
      let rest ← g.expressions c rounds
      pure (first :: rest)
    else pure [first]

/-- Reads an expression, which may be a sequence. -/
def expression (g : Grammar) (c : Context) : Parser Tree := do
  match ← g.expressions c g.rounds with
  | [e] => pure e
  | es => pure (.inner .sequence es)

end Grammar

/-! ## Names -/

/-- Words that are no names. -/
def reservedWords : List Text :=
  [text "break", text "case", text "catch", text "class", text "const", text "continue",
    text "debugger", text "default", text "delete", text "do", text "else", text "enum",
    text "export", text "extends", text "false", text "finally", text "for", text "function",
    text "if", text "import", text "in", text "instanceof", text "new", text "null",
    text "return", text "super", text "switch", text "this", text "throw", text "true",
    text "try", text "typeof", text "var", text "void", text "while", text "with",
    text "await"]

/-- Whether a word may name a variable. -/
def isVariableName (c : Context) (word : Text) : Bool :=
  !reservedWords.contains word && !(c.inGenerator && word == text "yield")

/-- Reads the name of a variable. -/
def variableName (c : Context) : Parser Text := do
  let name ← Parser.token readName
  Parser.require (isVariableName c name.word)
  pure name.word

end Viewloom.Script
