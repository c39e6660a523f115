import Viewloom.Html.Mode.Head

/-!
# The body

The rules for the content of a page outside of tables and select elements.
-/

namespace Viewloom.Html.Builder

/-- Opens an element of another name space. -/
def openForeign (b : Builder) (name : Name) (attributes : List Attribute) (selfClosing : Bool) :
    Builder :=
  let b := b.openElement name attributes
  if selfClosing then b.pop else b

/-- The attributes of a foreign element, with their capitals restored. -/
def foreignAttributes (space : Space) (attributes : List Attribute) : List Attribute :=
  match space with
  | .svg => adjustAttributes (spaceAttributes ++ svgAttributes) attributes
  | .mathml => adjustAttributes (spaceAttributes ++ mathAttributes) attributes
  | .html => attributes

def isHiddenInput (attributes : List Attribute) : Bool :=
  (Attribute.get? (text "type") attributes).any fun value =>
    Text.equalsIgnoreCaseAscii value (text "hidden")

/-- The innermost list item of some names, unless a special element is nearer. -/
def itemToClose (names : List Text) : List Open → Option Text
  | [] => none
  | o :: os =>
    if o.name.isOneOf names then some o.name.name
    else if o.name.isSpecial && !o.name.isOneOf [text "address", text "div", text "p"] then none
    else itemToClose names os

/-- Closes the list item that a new item of the same list follows. -/
def closeItem (b : Builder) (names : List Text) : Builder :=
  match itemToClose names b.stack with
  | some name => (b.closeImpliedExcept name).popThroughNamed name
  | none => b

/-- Opens an item of a list, which closes the one before it. -/
def openItem (b : Builder) (names : List Text) (name : Text) (attributes : List Attribute) :
    Builder :=
  (b.noFrameset.closeItem names).endParagraph.openHtml name attributes

/-- Closes a link that is open where another one begins. -/
def closeLink (b : Builder) : Builder :=
  match b.recentFormatting.find? fun o => o.name.name = text "a" with
  | none => b
  | some o => ((b.adopt (text "a")).removeFormatting o.id).removeFromStack o.id

/-- Adds characters to the body. -/
def bodyChars (b : Builder) (value : Text) : Builder :=
  let b := b.reconstruct.insertText value
  if isBlankRun value then b else b.noFrameset

/-- The mode of a select element that opens here. -/
def modeWithinSelect (mode : Mode) : Mode :=
  if [Mode.inTable, .inCaption, .inTableBody, .inRow, .inCell].contains mode then
    .inSelectInTable
  else .inSelect

/-- Tags that a page ignores where they stand on their own. -/
def isMisplaced (name : Text) : Bool :=
  [text "caption", text "col", text "colgroup", text "frame", text "head", text "tbody",
    text "td", text "tfoot", text "th", text "thead", text "tr"].contains name

def isVoidInline (name : Text) : Bool :=
  [text "area", text "br", text "embed", text "img", text "keygen", text "wbr"].contains name

/-- A frameset takes the place of a body without content. -/
def replaceBody (b : Builder) (attributes : List Attribute) : Builder :=
  match b.stack.reverse with
  | root :: body :: _ =>
    if b.framesetOk && body.name == Name.html (text "body") then
      let b := { b with trees := Tree.removeAll body.id b.trees, stack := [root] }
      (b.openHtml (text "frameset") attributes).withMode .inFrameset
    else b
  | _ => b

/-- Adds the attributes of a second tag to the body, where it has none of the name. -/
def mergeBody (b : Builder) (attributes : List Attribute) : Builder :=
  match b.stack.reverse with
  | _ :: body :: _ =>
    if body.name == Name.html (text "body") && !b.inTemplateElement then
      noFrameset { b with trees := Tree.addMissingAll body.id attributes b.trees }
    else b
  | _ => b

/-- Opens a form, unless one is open. -/
def openForm (b : Builder) (attributes : List Attribute) : Builder :=
  if b.form.isSome && !b.inTemplateElement then b
  else
    let b' := b.endParagraph.openHtml (text "form") attributes
    if b'.inTemplateElement then b' else { b' with form := b'.current?.map Open.id }

/-- The rules for start tags. -/
def bodyStart (b : Builder) (name : Text) (attributes : List Attribute) (selfClosing : Bool) :
    Builder :=
  if name = text "html" then b.mergeRoot attributes
  else if headTags.contains name then b.headStart name attributes
  else if name = text "body" then b.mergeBody attributes
  else if name = text "frameset" then b.replaceBody attributes
  else if blockTags.contains name || name == text "menu" then
    b.endParagraph.openHtml name attributes
  else if (Name.html name).isHeading then
    let b := b.endParagraph
    let b := if b.currentIs Name.isHeading then b.pop else b
    b.openHtml name attributes
  else if name = text "pre" ∨ name = text "listing" then
    { (b.endParagraph.openHtml name attributes).noFrameset with dropNewline := true }
  else if name = text "form" then b.openForm attributes
  else if name = text "li" then b.openItem [name] name attributes
  else if name = text "dd" ∨ name = text "dt" then
    b.openItem [text "dd", text "dt"] name attributes
  else if name = text "plaintext" then
    { b.endParagraph.openHtml name attributes with reading := .plain }
  else if name = text "button" then
    let b :=
      if b.hasInScope Name.isScope name then b.closeImplied.popThroughNamed name else b
    (b.reconstruct.openHtml name attributes).noFrameset
  else if name = text "a" then b.closeLink.reconstruct.openFormatting name attributes
  else if formattingTags.contains name then b.reconstruct.openFormatting name attributes
  else if name = text "nobr" then
    let b := b.reconstruct
    let b := if b.hasInScope Name.isScope name then (b.adopt name).reconstruct else b
    b.openFormatting name attributes
  else if name = text "applet" ∨ name = text "marquee" ∨ name = text "object" then
    (b.reconstruct.openHtml name attributes).pushMarker.noFrameset
  else if name = text "table" then
    let b := if b.quirks then b else b.endParagraph
    (b.openHtml name attributes).noFrameset.withMode .inTable
  else if isVoidInline name then (b.reconstruct.insertVoid name attributes).noFrameset
  else if name = text "input" then
    let b' := b.reconstruct.insertVoid name attributes
    if isHiddenInput attributes then b' else b'.noFrameset
  else if name = text "param" ∨ name = text "source" ∨ name = text "track" then
    b.insertVoid name attributes
  else if name = text "hr" then (b.endParagraph.insertVoid name attributes).noFrameset
  else if name = text "image" then
    (b.reconstruct.insertVoid (text "img") attributes).noFrameset
  else if name = text "textarea" then
    { b.noFrameset.openText name attributes (.escapable name) with dropNewline := true }
  else if name = text "xmp" then
    b.endParagraph.reconstruct.noFrameset.openText name attributes (.raw name)
  else if name = text "iframe" then b.noFrameset.openText name attributes (.raw name)
  else if name = text "noembed" ∨ name = text "noscript" then
    b.openText name attributes (.raw name)
  else if name = text "select" then
    (b.reconstruct.openHtml name attributes).noFrameset.withMode (modeWithinSelect b.mode)
  else if name = text "optgroup" ∨ name = text "option" then
    let b := if b.currentNamed (text "option") then b.pop else b
    b.reconstruct.openHtml name attributes
  else if name = text "rb" ∨ name = text "rtc" then
    let b := if b.hasInScope Name.isScope (text "ruby") then b.closeImplied else b
    b.openHtml name attributes
  else if name = text "rp" ∨ name = text "rt" then
    let b :=
      if b.hasInScope Name.isScope (text "ruby") then b.closeImpliedExcept (text "rtc") else b
    b.openHtml name attributes
  else if name = text "math" then
    b.openForeign ⟨.mathml, name⟩ (foreignAttributes .mathml attributes) selfClosing
  else if name = text "svg" then
    b.openForeign ⟨.svg, name⟩ (foreignAttributes .svg attributes) selfClosing
  else if isMisplaced name then b
  else b.reconstruct.openHtml name attributes

/-- Closes a form, which need not be the innermost open element. -/
def closeForm (b : Builder) : Builder :=
  let name := text "form"
  if b.inTemplateElement then
    if b.hasInScope Name.isScope name then b.closeImplied.popThroughNamed name else b
  else
    match b.form with
    | none => b
    | some id =>
      let b := { b with form := none }
      if inScope Name.isScope (fun o => o.id == id) b.stack then b.closeImplied.removeFromStack id
      else b

/-- The rules for end tags. -/
def bodyEnd (b : Builder) (name : Text) : Builder :=
  if name = text "template" then b.headEndTemplate
  else if name = text "body" then
    if b.hasInScope Name.isScope name then b.withMode .afterBody else b
  else if blockEndTags.contains name then
    if b.hasInScope Name.isScope name then b.closeImplied.popThroughNamed name else b
  else if name = text "form" then b.closeForm
  else if name = text "p" then
    let b := if b.hasInScope Name.isButtonScope name then b else b.openHtml name []
    b.closeParagraph
  else if name = text "li" then
    if b.hasInScope Name.isListScope name then (b.closeImpliedExcept name).popThroughNamed name
    else b
  else if name = text "dd" ∨ name = text "dt" then
    if b.hasInScope Name.isScope name then (b.closeImpliedExcept name).popThroughNamed name else b
  else if (Name.html name).isHeading then
    if inScope Name.isScope (fun o => o.name.isHeading) b.stack then
      b.closeImplied.popThrough Name.isHeading
    else b
  else if formattingTags.contains name || name == text "a" || name == text "nobr" then b.adopt name
  else if name = text "applet" ∨ name = text "marquee" ∨ name = text "object" then
    if b.hasInScope Name.isScope name then
      (b.closeImplied.popThroughNamed name).clearToMarker
    else b
  else if name = text "br" then b.bodyStart name [] false
  else b.closeNamed name

/-- The end of a document closes its open templates. -/
def templateEnd (b : Builder) : Outcome :=
  if b.inTemplateElement then
    let b := (b.popThroughNamed (text "template")).clearToMarker
    .again (resetMode { b with templateModes := b.templateModes.tail }) .eof
  else .done b

/-- What a token does in the body. -/
def inBody (b : Builder) (token : Token) : Outcome :=
  match token with
  | .null => .done b
  | .doctype _ _ _ _ => .done b
  | .chars value => .done (b.bodyChars value)
  | .comment value => .done (b.insertComment value)
  | .startTag name attributes selfClosing => .done (b.bodyStart name attributes selfClosing)
  | .endTag name =>
    if name = text "html" then
      if b.hasInScope Name.isScope (text "body") then .again (b.withMode .afterBody) token
      else .done b
    else .done (b.bodyEnd name)
  | .eof => if b.templateModes.isEmpty then .done b else b.templateEnd

/-- What a token does behind the body. What belongs into the body opens it again. -/
def afterBody (b : Builder) (token : Token) : Outcome :=
  match token with
  | .chars value =>
    if isBlankRun value then .done (b.bodyChars value) else .again (b.withMode .inBody) token
  | .comment value =>
    match b.stack.getLast? with
    | some root => .done (b.insertAt (.inside root.id) (.comment value))
    | none => .done b
  | .doctype _ _ _ _ => .done b
  | .startTag name attributes _ =>
    if name = text "html" then .done (b.mergeRoot attributes)
    else .again (b.withMode .inBody) token
  | .endTag name =>
    if name = text "html" then .done (b.withMode .afterAfterBody)
    else .again (b.withMode .inBody) token
  | .eof => .done b
  | token => .again (b.withMode .inBody) token

/-- What a token does behind the document. -/
def afterAfterBody (b : Builder) (token : Token) : Outcome :=
  match token with
  | .chars value =>
    if isBlankRun value then .done (b.bodyChars value) else .again (b.withMode .inBody) token
  | .comment value => .done (b.insertAt .root (.comment value))
  | .doctype _ _ _ _ => .done b
  | .startTag name attributes _ =>
    if name = text "html" then .done (b.mergeRoot attributes)
    else .again (b.withMode .inBody) token
  | .eof => .done b
  | token => .again (b.withMode .inBody) token

end Viewloom.Html.Builder
