import Viewloom.Markup.Basic
import Viewloom.Unicode.Blank

/-!
# Printed markup

Two forms of a tree: on one line as it stands, and indented with one line per node, where an
element with text keeps its content on one line.
-/

namespace Viewloom.Markup

def escapeTextChar (c : Char) : Text :=
  if c = '&' then text "&amp;" else if c = '<' then text "&lt;"
  else if c = '>' then text "&gt;" else [c]

/-- Writes a text so that it opens no tag and no reference. -/
def escapeText (value : Text) : Text := value.flatMap escapeTextChar

def escapeAttributeChar (c : Char) : Text :=
  if c = '&' then text "&amp;" else if c = '"' then text "&quot;" else [c]

/-- Writes a value so that it ends at its own quotation mark only. -/
def escapeAttribute (value : Text) : Text := value.flatMap escapeAttributeChar

/-- An attribute behind a blank, always with a value. -/
def printAttribute (a : Attribute) : Text :=
  ' ' :: a.name ++ text "=\"" ++ escapeAttribute a.value ++ ['"']

def openTag (tag : Text) (attributes : List Attribute) : Text :=
  '<' :: tag ++ attributes.flatMap printAttribute ++ ['>']

def closeTag (tag : Text) : Text := text "</" ++ tag ++ ['>']

def printComment (value : Text) : Text := text "<!--" ++ value ++ text "-->"

mutual

/-- A node on one line; the flag tells whether its text stands in a raw text element. -/
def Node.compact (raw : Bool) : Node → Text
  | .text value => if raw then value else escapeText value
  | .comment value => printComment value
  | .element tag attributes children =>
    if isVoid tag then openTag tag attributes
    else openTag tag attributes ++ compactAll (isRawText tag) children ++ closeTag tag

def Node.compactAll (raw : Bool) : List Node → Text
  | [] => []
  | n :: ns => n.compact raw ++ compactAll raw ns

end

/-- Writes nodes on one line. -/
def toHtml (nodes : List Node) : Text := Node.compactAll false nodes

/-- Two blanks for every level. -/
def indentation (depth : Nat) : Text := List.replicate (2 * depth) ' '

/-- Whether a node is a text that is more than blanks. -/
def Node.isVisibleText : Node → Bool
  | .text value => !Text.isAllBlank value
  | _ => false

/-- Whether an element with this content is written on one line. -/
def keepsOneLine (tag : Text) (children : List Node) : Bool :=
  children.isEmpty || children.any Node.isVisibleText || isRawText tag

mutual

/-- The lines of a node at a depth. Blank texts have none, and other texts are trimmed. -/
def Node.prettyLines (depth : Nat) : Node → List Text
  | .text value =>
    if Text.isAllBlank value then [] else [indentation depth ++ escapeText (Text.trim value)]
  | .comment value => [indentation depth ++ printComment value]
  | .element tag attributes children =>
    if isVoid tag then [indentation depth ++ openTag tag attributes]
    else if keepsOneLine tag children then
      [indentation depth ++ (Node.element tag attributes children).compact false]
    else
      (indentation depth ++ openTag tag attributes) ::
        (prettyLinesAll (depth + 1) children ++ [indentation depth ++ closeTag tag])

def Node.prettyLinesAll (depth : Nat) : List Node → List Text
  | [] => []
  | n :: ns => n.prettyLines depth ++ prettyLinesAll depth ns

end

/-- Writes nodes with one line per node. -/
def prettyPrint (nodes : List Node) : Text := List.intercalate ['\n'] (Node.prettyLinesAll 0 nodes)

end Viewloom.Markup
