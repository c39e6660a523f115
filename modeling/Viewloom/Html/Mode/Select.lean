import Viewloom.Html.Mode.Table

/-!
# Select elements, templates and framesets
-/

namespace Viewloom.Html.Builder

/-- Closes a menu of choices. -/
def closeSelect (b : Builder) : Builder := (b.popThroughNamed (text "select")).resetMode

def popNamed (b : Builder) (name : Text) : Builder := if b.currentNamed name then b.pop else b

/-- An option that ends together with its group. -/
def endGroup (b : Builder) : Builder :=
  match b.stack with
  | o :: p :: _ =>
    if o.name = Name.html (text "option") ∧ p.name = Name.html (text "optgroup") then b.pop.pop
    else b.popNamed (text "optgroup")
  | _ => b.popNamed (text "optgroup")

/-- What a token does in a menu of choices, which has hardly any elements. -/
def inSelect (b : Builder) (token : Token) : Outcome :=
  let inside := b.hasInScope Name.isSelectScope (text "select")
  match token with
  | .null => .done b
  | .chars value => .done (b.insertText value)
  | .comment value => .done (b.insertComment value)
  | .doctype _ _ _ _ => .done b
  | .startTag name attributes _ =>
    if name = text "html" then .done (b.mergeRoot attributes)
    else if name = text "option" then
      .done ((b.popNamed name).openHtml name attributes)
    else if name = text "optgroup" then
      .done (((b.popNamed (text "option")).popNamed name).openHtml name attributes)
    else if name = text "select" then if inside then .done b.closeSelect else .done b
    else if name = text "input" ∨ name = text "keygen" ∨ name = text "textarea" then
      if inside then .again b.closeSelect token else .done b
    else if name = text "script" ∨ name = text "template" then .done (b.headStart name attributes)
    else .done b
  | .endTag name =>
    if name = text "optgroup" then .done b.endGroup
    else if name = text "option" then .done (b.popNamed name)
    else if name = text "select" then if inside then .done b.closeSelect else .done b
    else if name = text "template" then .done b.headEndTemplate
    else .done b
  | .eof => inBody b token

/-- Whether a tag in a menu of choices belongs to the table around it. -/
def isTableTag (name : Text) : Bool :=
  [text "caption", text "table"].contains name || isTableSection name || isRowPart name

/-- What a token does in a menu of choices in a table. -/
def inSelectInTable (b : Builder) (token : Token) : Outcome :=
  match token with
  | .startTag name _ _ => if isTableTag name then .again b.closeSelect token else inSelect b token
  | .endTag name =>
    if isTableTag name then
      if b.hasInScope Name.isTableScope name then .again b.closeSelect token else .done b
    else inSelect b token
  | token => inSelect b token

/-- Goes on with the content of a template in the mode that it calls for. -/
def enterTemplateMode (b : Builder) (mode : Mode) (token : Token) : Outcome :=
  .again { b with templateModes := mode :: b.templateModes.tail, mode := mode } token

/-- What a token does in a template, whose first tag decides how it is read. -/
def inTemplate (b : Builder) (token : Token) : Outcome :=
  match token with
  | .chars _ => inBody b token
  | .comment _ => inBody b token
  | .startTag name attributes _ =>
    if headTags.contains name then .done (b.headStart name attributes)
    else if name = text "caption" || name = text "colgroup" || isTableSection name then
      b.enterTemplateMode .inTable token
    else if name = text "col" then b.enterTemplateMode .inColumnGroup token
    else if name = text "tr" then b.enterTemplateMode .inTableBody token
    else if name = text "td" ∨ name = text "th" then b.enterTemplateMode .inRow token
    else b.enterTemplateMode .inBody token
  | .endTag name => if name = text "template" then .done b.headEndTemplate else .done b
  | .eof => b.templateEnd
  | _ => .done b

/-- What a token does in a document of frames. -/
def inFrameset (b : Builder) (token : Token) : Outcome :=
  match token with
  | .chars value => if isBlankRun value then .done (b.insertText value) else .done b
  | .comment value => .done (b.insertComment value)
  | .startTag name attributes _ =>
    if name = text "html" then .done (b.mergeRoot attributes)
    else if name = text "frameset" then .done (b.openHtml name attributes)
    else if name = text "frame" then .done (b.insertVoid name attributes)
    else if name = text "noframes" then .done (b.headStart name attributes)
    else .done b
  | .endTag name =>
    if name = text "frameset" && decide (1 < b.stack.length) then
      let b := b.pop
      .done (if b.currentNamed name then b else b.withMode .afterFrameset)
    else .done b
  | _ => .done b

/-- What a token does behind the frames. -/
def afterFrameset (b : Builder) (token : Token) : Outcome :=
  match token with
  | .chars value => if isBlankRun value then .done (b.insertText value) else .done b
  | .comment value => .done (b.insertComment value)
  | .startTag name attributes _ =>
    if name = text "html" then .done (b.mergeRoot attributes)
    else if name = text "noframes" then .done (b.headStart name attributes)
    else .done b
  | .endTag name => .done (if name = text "html" then b.withMode .afterAfterFrameset else b)
  | _ => .done b

/-- What a token does behind a document of frames. -/
def afterAfterFrameset (b : Builder) (token : Token) : Outcome :=
  match token with
  | .chars value => if isBlankRun value then .done (b.bodyChars value) else .done b
  | .comment value => .done (b.insertAt .root (.comment value))
  | .startTag name attributes _ =>
    if name = text "html" then .done (b.mergeRoot attributes)
    else if name = text "noframes" then .done (b.headStart name attributes)
    else .done b
  | _ => .done b

end Viewloom.Html.Builder
