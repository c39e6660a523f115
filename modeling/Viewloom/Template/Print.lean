import Viewloom.Markup.Print
import Viewloom.Template.Style

/-!
# Printed templates

A template is written as one expression: elements as tags, texts with escapes, and each socket as a
guarded container that looks its proxy up by name.
-/

namespace Viewloom.Template

/-- A character in a string: the quotation mark, the backslash and line ends are escaped. -/
def quotedChar (c : Char) : Text :=
  if c = '\\' then text "\\\\"
  else if c = '\'' then text "\\'"
  else if c = '\n' then text "\\n"
  else if c = '\r' then text "\\r"
  else if c.toNat = 0x2028 then text "\\u2028"
  else if c.toNat = 0x2029 then text "\\u2029"
  else [c]

/-- A string literal in single quotes. -/
def quoted (s : Text) : Text := '\'' :: s.flatMap quotedChar ++ ['\'']

/-- A character of a text: signs of markup become references, braces become strings. -/
def escapedChar (c : Char) : Text :=
  if c = '&' then text "&amp;"
  else if c = '<' then text "&lt;"
  else if c = '>' then text "&gt;"
  else if c = '{' then text "\x7b'\x7b'\x7d"
  else if c = '}' then text "\x7b'\x7d'\x7d"
  else [c]

/-- A text between tags, where braces stand in containers of their own. -/
def escaped (s : Text) : Text := s.flatMap escapedChar

/-- Whether a style value is written as a number. -/
def isNumeral (value : Text) : Bool :=
  value.head?.any Char.isDigit && value.all (fun c => c.isDigit || c == '.') &&
    decide (value.count '.' ≤ 1)

/-- A value that is written like a number is one, and any other is a string. -/
def styleValue (value : Text) : Text := if isNumeral value then value else quoted value

/-- An entry of a style object. Only names of custom properties are quoted. -/
def styleEntry (d : Declaration) : Text :=
  let key := styleKey d.property
  (if isCustom key then quoted key else key) ++ text ": " ++ styleValue d.value

/-- How a property is set behind its name. -/
def printValue : Value → Text
  | .static value => text "=\"" ++ Markup.escapeAttribute value ++ ['"']
  | .flag => []
  | .style [] => text "=\x7b\x7b\x7d\x7d"
  | .style declarations =>
    text "=\x7b\x7b " ++ List.intercalate (text ", ") (declarations.map styleEntry) ++ text " \x7d\x7d"
  | .innerHtml value => text "=\x7b\x7b __html: " ++ quoted value ++ text " \x7d\x7d"

def printProperty (p : Property) : Text := ' ' :: p.name ++ printValue p.value

def printProperties (properties : List Property) : Text := properties.flatMap printProperty

def fragmentTag : Text := text "React.Fragment"

def openFragment : Text := '<' :: fragmentTag ++ ['>']

def closeFragment : Text := text "</" ++ fragmentTag ++ ['>']

/-- The proxy of a socket. -/
def proxyRef (socket : Text) : Text := text "proxies[" ++ quoted socket ++ [']']

/-- What stands before the content of a socket. -/
def socketHead (name : Text) (target : Target) (content : Content Node) : Text :=
  let proxy := proxyRef name
  let guarded :=
    '{' :: proxy ++ text " && <" ++ target.tag ++ printProperties target.properties ++
      text " \x7b..." ++ proxy ++ text "\x7d>"
  match content with
  | .proxied => guarded ++ '{' :: proxy ++ text ".children"
  | .fallback _ =>
    guarded ++ '{' :: proxy ++ text ".children ? " ++ proxy ++ text ".children : " ++ openFragment
  | .nested _ =>
    guarded ++ text "\x7bcreateScope(" ++ proxy ++ text ".children, (proxies) => " ++ openFragment

/-- What stands behind the content of a socket. -/
def socketTail (target : Target) (content : Content Node) : Text :=
  let closed := text "</" ++ target.tag ++ text ">\x7d"
  match content with
  | .proxied => '}' :: closed
  | .fallback _ => closeFragment ++ '}' :: closed
  | .nested _ => closeFragment ++ text ")\x7d" ++ closed

/-- Keeps a comment from ending early. -/
def guardComment : Text → Text
  | '*' :: '/' :: s => '*' :: ' ' :: '/' :: guardComment s
  | c :: s => c :: guardComment s
  | [] => []

/-- A comment between braces, in which nothing ends it early. -/
def printComment (value : Text) : Text := text "\x7b/* " ++ guardComment value ++ text " */\x7d"

/-- An element without content. -/
def printEmpty (tag : Text) (properties : List Property) : Text :=
  '<' :: tag ++ printProperties properties ++ text " />"

def openTag (tag : Text) (properties : List Property) : Text :=
  '<' :: tag ++ printProperties properties ++ ['>']

def closeTag (tag : Text) : Text := text "</" ++ tag ++ ['>']

mutual

/-- A node on one line. -/
def Node.inline : Node → Text
  | .text value => escaped value
  | .comment value => printComment value
  | .element tag properties [] => printEmpty tag properties
  | .component tag properties [] => printEmpty tag properties
  | .element tag properties (n :: ns) =>
    openTag tag properties ++ inlineAll (n :: ns) ++ closeTag tag
  | .component tag properties (n :: ns) =>
    openTag tag properties ++ inlineAll (n :: ns) ++ closeTag tag
  | .socket name target _ .proxied => socketHead name target .proxied ++ socketTail target .proxied
  | .socket name target _ (.fallback nodes) =>
    socketHead name target (.fallback nodes) ++ inlineAll nodes ++
      socketTail target (.fallback nodes)
  | .socket name target _ (.nested nodes) =>
    socketHead name target (.nested nodes) ++ inlineAll nodes ++
      socketTail target (.nested nodes)

def Node.inlineAll : List Node → Text
  | [] => []
  | n :: ns => n.inline ++ inlineAll ns

end

/-- Whether nodes are laid out on lines of their own: there are some, and none is a text. -/
def breaksLines (nodes : List Node) : Bool := !nodes.isEmpty && !nodes.any Node.isText

def indented (depth : Nat) (line : Text) : Text := Markup.indentation depth ++ line

/-- Lines in between two others. -/
def enclosed (first : Text) (inner : List Text) (last : Text) : List Text :=
  first :: (inner ++ [last])

mutual

/-- The lines of a node. Nodes next to a text share its line. -/
def Node.block (depth : Nat) : Node → List Text
  | .element tag properties children =>
    if breaksLines children then
      enclosed (indented depth (openTag tag properties)) (blockAll (depth + 1) children)
        (indented depth (closeTag tag))
    else [indented depth (Node.element tag properties children).inline]
  | .component tag properties children =>
    if breaksLines children then
      enclosed (indented depth (openTag tag properties)) (blockAll (depth + 1) children)
        (indented depth (closeTag tag))
    else [indented depth (Node.component tag properties children).inline]
  | .socket name target inner (.fallback nodes) =>
    if breaksLines nodes then
      enclosed (indented depth (socketHead name target (.fallback nodes)))
        (blockAll (depth + 1) nodes) (indented depth (socketTail target (.fallback nodes)))
    else [indented depth (Node.socket name target inner (.fallback nodes)).inline]
  | .socket name target inner (.nested nodes) =>
    if breaksLines nodes then
      enclosed (indented depth (socketHead name target (.nested nodes)))
        (blockAll (depth + 1) nodes) (indented depth (socketTail target (.nested nodes)))
    else [indented depth (Node.socket name target inner (.nested nodes)).inline]
  | n => [indented depth n.inline]

/-- The lines of nodes that are laid out one by one. -/
def Node.blockAll (depth : Nat) : List Node → List Text
  | [] => []
  | n :: ns => n.block depth ++ blockAll depth ns

end

/-- The lines of a list of nodes, which is one line if it holds a text. -/
def blockList (depth : Nat) (nodes : List Node) : List Text :=
  if nodes.any Node.isText then [indented depth (Text.trim (Node.inlineAll nodes))]
  else Node.blockAll depth nodes

/-- Writes a template as one expression. -/
def print : List Node → Text
  | [] => text "null"
  | [.element tag properties children] =>
    List.intercalate ['\n'] ((Node.element tag properties children).block 0)
  | [.component tag properties children] =>
    List.intercalate ['\n'] ((Node.component tag properties children).block 0)
  | nodes => List.intercalate ['\n'] (enclosed openFragment (blockList 1 nodes) closeFragment)

end Viewloom.Template
