import Viewloom.Html.Mode.Body

/-!
# Tables

The rules between the tags of a table. Content that belongs to no cell moves in front of the table.
-/

namespace Viewloom.Html.Builder

/-- Processes a token by the rules of the body, with misplaced content moved out of the table. -/
def foster (b : Builder) (token : Token) : Outcome :=
  match inBody { b with fostering := true } token with
  | .done b => .done { b with fostering := false }
  | .again b token => .again { b with fostering := false } token

/-- Closes a table with everything that is open in it. -/
def closeTable (b : Builder) : Builder := (b.popThroughNamed (text "table")).resetMode

/-- Opens the caption of a table. -/
def openCaption (b : Builder) (attributes : List Attribute) : Builder :=
  ((b.popTo Name.isTableScope).pushMarker.openHtml (text "caption") attributes).withMode .inCaption

def isTableSection (name : Text) : Bool :=
  [text "tbody", text "tfoot", text "thead"].contains name

/-- Whether a tag stands directly in a table. -/
def isTablePart (name : Text) : Bool :=
  [text "caption", text "col", text "colgroup"].contains name || isTableSection name

def isRowPart (name : Text) : Bool := [text "td", text "th", text "tr"].contains name

/-- What a token does directly in a table. What does not belong there is put in front of it. -/
def inTable (b : Builder) (token : Token) : Outcome :=
  match token with
  | .null => b.foster token
  | .chars _ =>
    if b.currentIs fun n => n.isFoster || n == Name.html (text "template") then
      .again { b with mode := .inTableText, returnMode := b.mode, tableText := [] } token
    else b.foster token
  | .comment value => .done (b.insertComment value)
  | .doctype _ _ _ _ => .done b
  | .startTag name attributes _ =>
    if name = text "caption" then .done (b.openCaption attributes)
    else if name = text "colgroup" then
      .done (((b.popTo Name.isTableScope).openHtml name attributes).withMode .inColumnGroup)
    else if name = text "col" then
      .again (((b.popTo Name.isTableScope).openHtml (text "colgroup") []).withMode .inColumnGroup)
        token
    else if isTableSection name then
      .done (((b.popTo Name.isTableScope).openHtml name attributes).withMode .inTableBody)
    else if isRowPart name then
      .again (((b.popTo Name.isTableScope).openHtml (text "tbody") []).withMode .inTableBody) token
    else if name = text "table" then
      if b.hasInScope Name.isTableScope name then .again b.closeTable token else .done b
    else if name = text "style" ∨ name = text "script" ∨ name = text "template" then
      .done (b.headStart name attributes)
    else if name = text "input" && isHiddenInput attributes then
      .done (b.insertVoid name attributes)
    else if name = text "form" then
      if b.inTemplateElement || b.form.isSome then .done b
      else .done { b.insertVoid name attributes with form := some b.fresh }
    else b.foster token
  | .endTag name =>
    if name = text "table" then
      if b.hasInScope Name.isTableScope name then .done b.closeTable else .done b
    else if name = text "template" then .done b.headEndTemplate
    else if name = text "body" || name = text "html" || isTablePart name || isRowPart name then
      .done b
    else b.foster token
  | .eof => inBody b token

/-- Text between the tags of a table is kept if it is blank and moved out of the table if not. -/
def flushTableText (b : Builder) : Builder :=
  let pieces := b.tableText.reverse
  let b := { b with tableText := [], mode := b.returnMode }
  if pieces.all isBlankRun then pieces.foldl insertText b
  else
    { pieces.foldl bodyChars { b with fostering := true } with fostering := false }

/-- Collects the characters that stand directly in a table. -/
def inTableText (b : Builder) (token : Token) : Outcome :=
  match token with
  | .null => .done b
  | .chars value => .done { b with tableText := value :: b.tableText }
  | token => .again b.flushTableText token

/-- Closes the caption of a table. -/
def closeCaption (b : Builder) : Builder :=
  ((b.closeImplied.popThroughNamed (text "caption")).clearToMarker).withMode .inTable

/-- What a token does in the caption of a table. -/
def inCaption (b : Builder) (token : Token) : Outcome :=
  let inside := b.hasInScope Name.isTableScope (text "caption")
  match token with
  | .startTag name _ _ =>
    if isTablePart name || isRowPart name then
      if inside then .again b.closeCaption token else .done b
    else inBody b token
  | .endTag name =>
    if name = text "caption" then if inside then .done b.closeCaption else .done b
    else if name = text "table" then if inside then .again b.closeCaption token else .done b
    else if name = text "body" || name = text "html" || isTablePart name || isRowPart name then
      .done b
    else inBody b token
  | token => inBody b token

/-- What a token does in a group of columns. -/
def inColumnGroup (b : Builder) (token : Token) : Outcome :=
  let leave : Outcome :=
    if b.currentNamed (text "colgroup") then .again (b.pop.withMode .inTable) token else .done b
  match token with
  | .chars value => if isBlankRun value then .done (b.insertText value) else leave
  | .comment value => .done (b.insertComment value)
  | .doctype _ _ _ _ => .done b
  | .startTag name attributes _ =>
    if name = text "html" then .done (b.mergeRoot attributes)
    else if name = text "col" then .done (b.insertVoid name attributes)
    else if name = text "template" then .done (b.headStart name attributes)
    else leave
  | .endTag name =>
    if name = text "colgroup" then
      if b.currentNamed name then .done (b.pop.withMode .inTable) else .done b
    else if name = text "col" then .done b
    else if name = text "template" then .done b.headEndTemplate
    else leave
  | .eof => inBody b token
  | .null => leave

def leaveTableBody (b : Builder) : Builder := (b.popTo Name.isTableBody).pop.withMode .inTable

/-- What a token does directly in a section of a table. -/
def inTableBody (b : Builder) (token : Token) : Outcome :=
  let inside := inScope Name.isTableScope
    (fun o => o.name.isOneOf [text "table", text "tbody", text "tfoot", text "thead"]) b.stack
  match token with
  | .startTag name attributes _ =>
    if name = text "tr" then
      .done (((b.popTo Name.isTableBody).openHtml name attributes).withMode .inRow)
    else if name = text "th" ∨ name = text "td" then
      .again (((b.popTo Name.isTableBody).openHtml (text "tr") []).withMode .inRow) token
    else if isTablePart name then if inside then .again b.leaveTableBody token else .done b
    else inTable b token
  | .endTag name =>
    if isTableSection name then
      if b.hasInScope Name.isTableScope name then .done b.leaveTableBody else .done b
    else if name = text "table" then if inside then .again b.leaveTableBody token else .done b
    else if name = text "body" || name = text "html" || isTablePart name || isRowPart name then
      .done b
    else inTable b token
  | token => inTable b token

def leaveRow (b : Builder) : Builder := (b.popTo Name.isTableRow).pop.withMode .inTableBody

/-- What a token does directly in a row. -/
def inRow (b : Builder) (token : Token) : Outcome :=
  let inside := b.hasInScope Name.isTableScope (text "tr")
  match token with
  | .startTag name attributes _ =>
    if name = text "th" ∨ name = text "td" then
      .done (((b.popTo Name.isTableRow).openHtml name attributes).withMode .inCell).pushMarker
    else if isTablePart name || name = text "tr" then
      if inside then .again b.leaveRow token else .done b
    else inTable b token
  | .endTag name =>
    if name = text "tr" then if inside then .done b.leaveRow else .done b
    else if name = text "table" then if inside then .again b.leaveRow token else .done b
    else if isTableSection name then
      if b.hasInScope Name.isTableScope name && inside then .again b.leaveRow token else .done b
    else if name = text "body" || name = text "html" || isTablePart name || isRowPart name then
      .done b
    else inTable b token
  | token => inTable b token

/-- Closes a cell. -/
def closeCell (b : Builder) : Builder :=
  (b.closeImplied.popThrough Name.isCell).clearToMarker.withMode .inRow

/-- What a token does in a cell. -/
def inCell (b : Builder) (token : Token) : Outcome :=
  let inside := inScope Name.isTableScope (fun o => o.name.isCell) b.stack
  match token with
  | .startTag name _ _ =>
    if isTablePart name || isRowPart name then
      if inside then .again b.closeCell token else .done b
    else inBody b token
  | .endTag name =>
    if name = text "td" ∨ name = text "th" then
      if b.hasInScope Name.isTableScope name then
        .done ((b.closeImplied.popThroughNamed name).clearToMarker.withMode .inRow)
      else .done b
    else if [text "body", text "caption", text "col", text "colgroup", text "html"].contains name
    then .done b
    else if name = text "table" || name = text "tr" || isTableSection name then
      if b.hasInScope Name.isTableScope name then .again b.closeCell token else .done b
    else inBody b token
  | token => inBody b token

end Viewloom.Html.Builder
