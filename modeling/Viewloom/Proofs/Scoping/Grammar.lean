import Viewloom.Proofs.Scoping.ClassNames

/-!
# Stylesheets by their rules

A stylesheet is built from rules and at-rules, with blanks and comments in between. Its text is printed
with any function in the place of the selectors.

## Implementation notes

Preludes and declarations are lists of pieces, so that an escape, a string or a comment is one thing.
What makes a stylesheet well-formed stands in its type. That a slash and an asterisk next to each other
open a comment is seen between pieces only, so it is asked of the whole list.
-/

namespace Viewloom.Css

/-! ## Pieces -/

/-- What preludes and declarations are made of. -/
inductive Piece where
  | char (c : Char)
  | escape (c : Char)
  | quoted (quote : Quote) (body : Text)
  | comment (body : Text)
  deriving DecidableEq

/-- Whether a text can stand between two quotes. -/
def isBody (quote : Char) : Text → Bool
  | [] => true
  | ['\\'] => false
  | '\\' :: _ :: s => isBody quote s
  | c :: s => c != quote && isBody quote s

/-- Whether no comment ends in a text. -/
def isOpen : Text → Bool
  | [] => true
  | '*' :: '/' :: _ => false
  | _ :: s => isOpen s

namespace Piece

def text : Piece → Text
  | char c => [c]
  | escape c => ['\\', c]
  | quoted quote body => quote.1 :: body ++ [quote.1]
  | comment body => '/' :: '*' :: body ++ ['*', '/']

/-- Whether a piece can stand where some characters are marks. -/
def isSound (marks : Char → Bool) : Piece → Bool
  | char c => !(marks c || isQuote c || c == '\\')
  | escape _ => true
  | quoted quote body => isBody quote.1 body
  | comment body => isOpen body

/-- Whether a piece is no escape of a mark or a quote. -/
def isLegible (marks : Char → Bool) : Piece → Bool
  | escape c => !(marks c || isQuote c)
  | _ => true

end Piece

/-- Whether no asterisk follows a slash. -/
def isApart (slash : Piece) : List Piece → Bool
  | [] => true
  | p :: ps => !(p == slash && ps.head? == some (.char '*')) && isApart slash ps

/-- Whether the braces among some pieces are balanced within a number of open ones. -/
def isBalanced : Nat → List Piece → Bool
  | 0, [] => true
  | _ + 1, [] => false
  | depth, .char '{' :: ps => isBalanced (depth + 1) ps
  | 0, .char '}' :: _ => false
  | depth + 1, .char '}' :: ps => isBalanced depth ps
  | depth, _ :: ps => isBalanced depth ps

def textOf (ps : List Piece) : Text := ps.flatMap Piece.text

/-- Pieces in which no mark stands by itself. -/
structure Phrase (marks : Char → Bool) where
  pieces : List Piece
  sound : pieces.all (Piece.isSound marks) = true
  apart : isApart (.char '/') pieces = true

namespace Phrase

variable {marks : Char → Bool}

def text (phrase : Phrase marks) : Text := textOf phrase.pieces

/-- Whether no escape looks like a mark, a quote or the opening of a comment. -/
def isLegible (phrase : Phrase marks) (marks : Char → Bool) : Bool :=
  phrase.pieces.all (Piece.isLegible marks) && isApart (.escape '/') phrase.pieces

end Phrase

/-! ## Items -/

def isBrace (c : Char) : Bool := c == '{' || c == '}'

/-- A selector ends before a brace, and an at-sign begins an at-rule. -/
def isSelectorMark (c : Char) : Bool := isStructural c || c == '@'

/-- What stands in front of the block of a rule. -/
abbrev Selector := Phrase isSelectorMark

/-- What stands in a block of declarations, whose braces are balanced. -/
structure Declarations extends Phrase fun _ => false where
  balanced : isBalanced 0 pieces = true

/-- The beginning of an at-rule. Its name goes as far as it can. -/
structure AtRule where
  name : Text
  prelude : Phrase isStructural
  points : name.all isNamePoint = true
  ends : prelude.text.head?.all (fun c => !(isNamePoint c || c == '\\')) = true

namespace AtRule

def text (rule : AtRule) : Text := '@' :: rule.name ++ rule.prelude.text

/-- Whether the block of an at-rule holds rules. -/
def isGrouping (rule : AtRule) : Bool := Css.isGrouping (Text.lowerAscii rule.name)

/-- Whether the letters, digits and hyphens that a name begins with decide as the whole name does. -/
def isRead (rule : AtRule) : Bool :=
  Css.isGrouping (Text.lowerAscii (rule.name.takeWhile fun c => c.isAlphanum || c == '-')) ==
    rule.isGrouping

end AtRule

/-- Whether a character is white space by the grammar of stylesheets. -/
def isSpace (c : Char) : Bool := c == ' ' || c == '\n' || c == '\t' || c == '\r' || c == '\x0c'

/-- An item of a stylesheet. -/
inductive Item where
  | blank (c : Char) (h : isSpace c = true)
  | comment (body : Text) (h : isOpen body = true)
  | rule (selector : Selector) (declarations : Declarations)
  | statement (head : AtRule)
  | block (head : AtRule) (h : head.isGrouping = false) (content : Declarations)
  | group (head : AtRule) (h : head.isGrouping = true) (items : List Item)

def braced (before inner : Text) : Text := before ++ '{' :: inner ++ ['}']

mutual

/-- The text of an item, with a function applied to its selectors. -/
def Item.print (onSelector : Text → Text) : Item → Text
  | .blank c _ => [c]
  | .comment body _ => (Piece.comment body).text
  | .rule selector declarations => braced (onSelector selector.text) declarations.text
  | .statement head => head.text ++ [';']
  | .block head _ content => braced head.text content.text
  | .group head _ items => braced head.text (printAll onSelector items)

def Item.printAll (onSelector : Text → Text) : List Item → Text
  | [] => []
  | item :: items => item.print onSelector ++ printAll onSelector items

end

mutual

/-- Whether escapes look like nothing else, and the names of at-rules do not deceive. -/
def Item.isLegible : Item → Bool
  | .rule selector declarations =>
    selector.isLegible isStructural && declarations.isLegible isBrace
  | .statement head => head.prelude.isLegible isStructural
  | .block head _ content =>
    head.isRead && head.prelude.isLegible isStructural && content.isLegible isBrace
  | .group head _ items =>
    head.isRead && head.prelude.isLegible isStructural && isLegibleAll items
  | _ => true

def Item.isLegibleAll : List Item → Bool
  | [] => true
  | item :: items => item.isLegible && isLegibleAll items

end

/-- Whether a comment stands in front of the next item. -/
def Item.commentsNext (commented : Bool) : Item → Bool
  | .blank _ _ => commented
  | .comment _ _ => true
  | _ => false

end Viewloom.Css
