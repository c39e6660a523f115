import Viewloom.Html.Mode.Select

/-!
# Foreign content

The rules within SVG and MathML, which hold until an element whose content is HTML.
-/

namespace Viewloom.Html.Builder

/-- A MathML annotation that declares its content to be HTML. -/
def isHtmlAnnotation (o : Open) : Bool :=
  o.name == ⟨.mathml, text "annotation-xml"⟩ &&
    (Attribute.get? (text "encoding") o.attributes).any fun value =>
      Text.equalsIgnoreCaseAscii value (text "text/html") ||
        Text.equalsIgnoreCaseAscii value (text "application/xhtml+xml")

def isMathTextException (name : Text) : Bool :=
  name == text "mglyph" || name == text "malignmark"

/-- Whether a token is processed by the rules of foreign content. -/
def isForeign (b : Builder) (token : Token) : Bool :=
  match b.current? with
  | none => false
  | some o =>
    if o.name.space = .html then false
    else
      match token with
      | .eof => false
      | .chars _ | .null =>
        !(o.name.isMathTextPoint || o.name.isSvgHtmlPoint || isHtmlAnnotation o)
      | .startTag name _ _ =>
        !((o.name.isMathTextPoint && !isMathTextException name) || o.name.isSvgHtmlPoint ||
          isHtmlAnnotation o ||
            (o.name == ⟨.mathml, text "annotation-xml"⟩ && name == text "svg"))
      | _ => true

/-- Whether a tag that breaks out of foreign content stops at an element. -/
def endsBreakout (o : Open) : Bool :=
  o.name.space == .html || o.name.isMathTextPoint || o.name.isSvgHtmlPoint

/-- Closes the foreign elements that an HTML tag must not stand in. -/
def breakOut (b : Builder) : Builder :=
  { b with stack := b.stack.dropWhile fun o => !endsBreakout o }

def hasFontAttribute (attributes : List Attribute) : Bool :=
  attributes.any fun a => [text "color", text "face", text "size"].contains a.name

/-- Opens an element in foreign content, with the capitals of its name restored. -/
def foreignStart (b : Builder) (name : Text) (attributes : List Attribute) (selfClosing : Bool) :
    Builder :=
  match b.current? with
  | none => b
  | some o =>
    let adjusted := if o.name.space = .svg then (svgTags.lookup name).getD name else name
    b.openForeign ⟨o.name.space, adjusted⟩ (foreignAttributes o.name.space attributes) selfClosing

/-- The foreign element that an end tag closes, if it stands before the first HTML element. -/
def foreignMatch (name : Text) : List Open → Option Open
  | [] => none
  | o :: os =>
    if o.name.space = .html then none
    else if Text.equalsIgnoreCaseAscii o.name.name name then some o
    else foreignMatch name os

/-- Processes a token within foreign content, given the rules of the insertion modes. -/
def inForeign (b : Builder) (byMode : Builder → Token → Outcome) (token : Token) : Outcome :=
  match token with
  | .null => .done (b.insertText [replacementChar])
  | .chars value =>
    let b := b.insertText value
    .done (if isBlankRun value then b else b.noFrameset)
  | .comment value => .done (b.insertComment value)
  | .startTag name attributes selfClosing =>
    if breakoutTags.contains name || (name == text "font" && hasFontAttribute attributes) then
      .again b.breakOut token
    else .done (b.foreignStart name attributes selfClosing)
  | .endTag name =>
    if name = text "br" ∨ name = text "p" then byMode b.breakOut token
    else
      match foreignMatch name b.stack with
      | some o => .done { b with stack := (b.stack.dropWhile fun p => p.id != o.id).tail }
      | none => byMode b token
  | _ => .done b

end Viewloom.Html.Builder
