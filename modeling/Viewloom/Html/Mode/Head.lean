import Viewloom.Html.Adoption
import Viewloom.Html.Doctype

/-!
# The start of a document

The modes up to the body. Whatever does not belong to them opens the elements that a document must
have.
-/

namespace Viewloom.Html.Builder

/-- Whether a text consists of separators. -/
def isBlankRun (value : Text) : Bool := value.all isSpace

/-- Gives the root element the attributes of a repeated html tag. -/
def mergeRoot (b : Builder) (attributes : List Attribute) : Builder :=
  match b.stack.getLast? with
  | some o =>
    if b.inTemplateElement then b else { b with trees := Tree.addMissingAll o.id attributes b.trees }
  | none => b

/-- Closes a template with everything that is open in it. -/
def endTemplate (b : Builder) : Builder :=
  let b := (b.popWhile Name.isThoroughImpliedEnd).popThroughNamed (text "template")
  let b := b.clearToMarker
  resetMode { b with templateModes := b.templateModes.tail }

/-- The rules of the head for start tags. -/
def headStart (b : Builder) (name : Text) (attributes : List Attribute) : Builder :=
  if name = text "title" then b.openText name attributes (.escapable name)
  else if name = text "noframes" ∨ name = text "style" ∨ name = text "noscript" then
    b.openText name attributes (.raw name)
  else if name = text "script" then b.openText name attributes .script
  else if name = text "template" then
    let b := (b.openHtml name attributes).pushMarker.noFrameset
    { b with mode := .inTemplate, templateModes := .inTemplate :: b.templateModes }
  else b.insertVoid name attributes

/-- Whether a tag is read by the rules of the head, wherever it stands. -/
def isHeadTag (name : Text) : Bool := headTags.contains name || name == text "noscript"

def headEndTemplate (b : Builder) : Builder :=
  if b.inTemplateElement then b.endTemplate else b

/-- What a token does at the beginning of a document. -/
def initial (b : Builder) (token : Token) : Outcome :=
  match token with
  | .chars value =>
    if isBlankRun value then .done b
    else .again { b with quirks := true, mode := .beforeHtml } token
  | .comment value => .done (b.insertAt .root (.comment value))
  | .doctype name publicId systemId forceQuirks =>
    .done { b with quirks := isQuirky name publicId systemId forceQuirks, mode := .beforeHtml }
  | token => .again { b with quirks := true, mode := .beforeHtml } token

/-- End tags that open the elements around them instead of being ignored. -/
def isOpeningEnd (name : Text) : Bool :=
  [text "head", text "body", text "html", text "br"].contains name

/-- What a token does in front of the root. -/
def beforeHtml (b : Builder) (token : Token) : Outcome :=
  let opened := (b.openHtml (text "html") []).withMode .beforeHead
  match token with
  | .chars value => if isBlankRun value then .done b else .again opened token
  | .comment value => .done (b.insertAt .root (.comment value))
  | .doctype _ _ _ _ => .done b
  | .startTag name attributes _ =>
    if name = text "html" then .done ((b.openHtml name attributes).withMode .beforeHead)
    else .again opened token
  | .endTag name => if isOpeningEnd name then .again opened token else .done b
  | token => .again opened token

/-- Opens the head and remembers it. -/
def openHead (b : Builder) (attributes : List Attribute) : Builder :=
  let b := (b.openHtml (text "head") attributes).withMode .inHead
  { b with head := b.current? }

/-- What a token does in front of the head. -/
def beforeHead (b : Builder) (token : Token) : Outcome :=
  match token with
  | .chars value => if isBlankRun value then .done b else .again (b.openHead []) token
  | .comment value => .done (b.insertComment value)
  | .doctype _ _ _ _ => .done b
  | .startTag name attributes _ =>
    if name = text "html" then .done (b.mergeRoot attributes)
    else if name = text "head" then .done (b.openHead attributes)
    else .again (b.openHead []) token
  | .endTag name => if isOpeningEnd name then .again (b.openHead []) token else .done b
  | token => .again (b.openHead []) token

/-- What a token does in the head. What does not belong there closes it. -/
def inHead (b : Builder) (token : Token) : Outcome :=
  let closed := b.pop.withMode .afterHead
  match token with
  | .chars value => if isBlankRun value then .done (b.insertText value) else .again closed token
  | .comment value => .done (b.insertComment value)
  | .doctype _ _ _ _ => .done b
  | .startTag name attributes _ =>
    if name = text "html" then .done (b.mergeRoot attributes)
    else if isHeadTag name then .done (b.headStart name attributes)
    else if name = text "head" then .done b
    else .again closed token
  | .endTag name =>
    if name = text "head" then .done closed
    else if name = text "template" then .done b.headEndTemplate
    else if isOpeningEnd name then .again closed token
    else .done b
  | token => .again closed token

def openBody (b : Builder) (attributes : List Attribute) : Builder :=
  (b.openHtml (text "body") attributes).withMode .inBody

/-- What a token does between the head and the body. -/
def afterHead (b : Builder) (token : Token) : Outcome :=
  match token with
  | .chars value =>
    if isBlankRun value then .done (b.insertText value) else .again (b.openBody []) token
  | .comment value => .done (b.insertComment value)
  | .doctype _ _ _ _ => .done b
  | .startTag name attributes _ =>
    if name = text "html" then .done (b.mergeRoot attributes)
    else if name = text "body" then .done (b.openBody attributes).noFrameset
    else if name = text "frameset" then
      .done ((b.openHtml name attributes).withMode .inFrameset)
    else if headTags.contains name then
      match b.head with
      | some head =>
        let b := headStart { b with stack := head :: b.stack } name attributes
        .done (b.removeFromStack head.id)
      | none => .done b
    else if name = text "head" then .done b
    else .again (b.openBody []) token
  | .endTag name =>
    if name = text "template" then .done b.headEndTemplate
    else if isOpeningEnd name && name != text "head" then .again (b.openBody []) token
    else .done b
  | token => .again (b.openBody []) token

/-- The rules within an element that holds only text. -/
def inText (b : Builder) (token : Token) : Outcome :=
  match token with
  | .chars value => .done (b.insertText value)
  | .eof => .again (b.pop.withMode b.returnMode) token
  | .endTag _ => .done (b.pop.withMode b.returnMode)
  | _ => .done b

end Viewloom.Html.Builder
