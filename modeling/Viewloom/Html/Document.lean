import Viewloom.Html.Mode.Foreign

/-!
# Reading a document

A text is read token by token, and each token changes the document under construction. The content
of a page is what its body holds.
-/

namespace Viewloom.Html

namespace Builder

/-- What a token does in the mode of the parser. -/
def byMode (b : Builder) : Token → Outcome :=
  match b.mode with
  | .initial => b.initial
  | .beforeHtml => b.beforeHtml
  | .beforeHead => b.beforeHead
  | .inHead => b.inHead
  | .afterHead => b.afterHead
  | .inBody => b.inBody
  | .inText => b.inText
  | .inTable => b.inTable
  | .inTableText => b.inTableText
  | .inCaption => b.inCaption
  | .inColumnGroup => b.inColumnGroup
  | .inTableBody => b.inTableBody
  | .inRow => b.inRow
  | .inCell => b.inCell
  | .inSelect => b.inSelect
  | .inSelectInTable => b.inSelectInTable
  | .inTemplate => b.inTemplate
  | .afterBody => b.afterBody
  | .inFrameset => b.inFrameset
  | .afterFrameset => b.afterFrameset
  | .afterAfterBody => b.afterAfterBody
  | .afterAfterFrameset => b.afterAfterFrameset

/-- What a token does, in foreign content or in the mode of the parser. -/
def outcome (b : Builder) (token : Token) : Outcome :=
  if b.isForeign token then b.inForeign byMode token else b.byMode token

/-- Processes a token until it is used up, in a limited number of rounds. -/
def processWithin : Nat → Builder → Token → Builder
  | 0, b, _ => b
  | rounds + 1, b, token =>
    match b.outcome token with
    | .done b => b
    | .again b token => processWithin rounds b token

/-- Processes a token. Each round closes elements or goes on to a later mode, so the number of open
elements bounds the rounds. -/
def process (b : Builder) (token : Token) : Builder :=
  processWithin (16 + 4 * (b.stack.length + b.templateModes.length)) b token

/-- Drops the line break that may follow the start tag of preformatted text. -/
def dropFirstNewline (token : Token) : Option Token :=
  match token with
  | .chars ['\n'] => none
  | .chars ('\n' :: value) => some (.chars value)
  | token => some token

/-- Takes a token, of which a line break behind some start tags is dropped first. -/
def feed (b : Builder) (token : Token) : Builder :=
  if b.dropNewline then
    match dropFirstNewline token with
    | some token => process { b with dropNewline := false } token
    | none => { b with dropNewline := false }
  else b.process token

/-- Whether the innermost open element is foreign, in which sections of character data are read. -/
def isInForeign (b : Builder) : Bool := b.current?.any fun o => o.name.space != .html

/-- Reads a text to its end; every round but the last uses up at least one character. -/
def readWithin : Nat → Builder → Text → Builder
  | 0, b, _ => b
  | rounds + 1, b, s =>
    match nextToken b.reading b.isInForeign s with
    | (some .eof, _, _) => b.feed .eof
    | (some token, rest, reading) => readWithin rounds (feed { b with reading := reading } token) rest
    | (none, rest, reading) => readWithin rounds { b with reading := reading } rest

end Builder

/-! ## Documents -/

/-- Writes every line end as one line feed. -/
def normalizeLines : Text → Text
  | '\r' :: '\n' :: s => '\n' :: normalizeLines s
  | '\r' :: s => '\n' :: normalizeLines s
  | c :: s => c :: normalizeLines s
  | [] => []

/-- Drops the mark of the byte order at the beginning. -/
def dropMark : Text → Text
  | [] => []
  | c :: s => if c.toNat = 0xfeff then s else c :: s

/-- The nodes of a document. -/
def parseDocument (source : Text) : List Tree :=
  let input := normalizeLines (dropMark source)
  (Builder.empty.readWithin (input.length + 1) input).trees

/-- The content of the body of a document. -/
def parseBody (source : Text) : List Markup.Node :=
  match Tree.contentOfAll? (text "body") (parseDocument source) with
  | some content => Tree.toMarkupAll content
  | none => []

end Viewloom.Html
