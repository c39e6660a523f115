import Viewloom.Socket
import Viewloom.Template.Style

/-!
# Templates of markup

Each node of a page has its node in the template. Attributes take the names that components know
them by, and the content of stylesheets and text areas becomes a property.
-/

namespace Viewloom.Template

/-- Attributes that components spell differently. -/
def propertyNames : List (Text × Text) :=
  ([("class", "className"), ("for", "htmlFor"), ("accept-charset", "acceptCharset"),
    ("accesskey", "accessKey"), ("allowfullscreen", "allowFullScreen"),
    ("autocomplete", "autoComplete"), ("autofocus", "autoFocus"), ("autoplay", "autoPlay"),
    ("cellpadding", "cellPadding"), ("cellspacing", "cellSpacing"), ("charset", "charSet"),
    ("colspan", "colSpan"), ("contenteditable", "contentEditable"),
    ("crossorigin", "crossOrigin"), ("datetime", "dateTime"), ("enctype", "encType"),
    ("formaction", "formAction"), ("frameborder", "frameBorder"), ("http-equiv", "httpEquiv"),
    ("inputmode", "inputMode"), ("maxlength", "maxLength"), ("minlength", "minLength"),
    ("marginheight", "marginHeight"), ("marginwidth", "marginWidth"),
    ("novalidate", "noValidate"), ("playsinline", "playsInline"), ("readonly", "readOnly"),
    ("referrerpolicy", "referrerPolicy"), ("rowspan", "rowSpan"), ("spellcheck", "spellCheck"),
    ("srcdoc", "srcDoc"), ("srcset", "srcSet"), ("tabindex", "tabIndex"), ("usemap", "useMap"),
    ("viewbox", "viewBox"), ("xlink:href", "xlinkHref"), ("xml:lang", "xmlLang"),
    ("xml:space", "xmlSpace"), ("clip-path", "clipPath"), ("clip-rule", "clipRule"),
    ("fill-opacity", "fillOpacity"), ("fill-rule", "fillRule"), ("font-family", "fontFamily"),
    ("font-size", "fontSize"), ("font-weight", "fontWeight"), ("stop-color", "stopColor"),
    ("stop-opacity", "stopOpacity"), ("stroke-dasharray", "strokeDasharray"),
    ("stroke-dashoffset", "strokeDashoffset"), ("stroke-linecap", "strokeLinecap"),
    ("stroke-linejoin", "strokeLinejoin"), ("stroke-miterlimit", "strokeMiterlimit"),
    ("stroke-opacity", "strokeOpacity"), ("stroke-width", "strokeWidth"),
    ("text-anchor", "textAnchor")] : List (String × String)).map fun (a, b) => (text a, text b)

/-- Attributes that are true if they are present without a value. -/
def booleanAttributes : List Text :=
  [text "allowfullscreen", text "async", text "autofocus", text "autoplay", text "checked",
    text "controls", text "default", text "defer", text "disabled", text "formnovalidate",
    text "hidden", text "loop", text "multiple", text "muted", text "novalidate", text "open",
    text "playsinline", text "readonly", text "required", text "reversed", text "selected"]

/-- Elements whose value attribute is only a default. -/
def valueElements : List Text := [text "input", text "select", text "textarea"]

/-- The name of the property for an attribute, whose name is also given in small letters. -/
def propertyName (tag name lower : Text) : Text :=
  if lower = text "value" ∧ valueElements.contains tag = true then text "defaultValue"
  else if lower = text "checked" ∧ tag = text "input" then text "defaultChecked"
  else (propertyNames.lookup lower).getD name

/-- The property for an attribute of an element. -/
def Property.ofAttribute (tag : Text) (a : Attribute) : Property :=
  let lower := Text.lowerAscii a.name
  if lower = text "style" then ⟨text "style", .style (parseStyle a.value)⟩
  else
    ⟨propertyName tag a.name lower,
      if a.value = [] ∧ booleanAttributes.contains lower = true then .flag else .static a.value⟩

/-- The texts that an element holds directly. -/
def directText : List Markup.Node → Text
  | [] => []
  | .text value :: ns => value ++ directText ns
  | _ :: ns => directText ns

/-- The properties that take the place of the content of an element, if it has any. -/
def contentProperties (tag : Text) (children : List Markup.Node) : Option (List Property) :=
  if tag = text "style" then
    some [⟨text "dangerouslySetInnerHTML", .innerHtml (directText children)⟩]
  else if tag = text "textarea" then
    let value := directText children
    some (if value = [] then [] else [⟨text "defaultValue", .static value⟩])
  else none

/-- The tag of an element without its socket name. -/
def baseTag (tag : Text) : Text :=
  match splitSocketTag tag with
  | some (base, _) => base
  | none => tag

/-- Blank text with a line break only lays out the source of a page. -/
def isLayout (value : Text) : Bool := Text.isAllBlank value && value.contains '\n'

mutual

/-- Turns a node of markup into nodes of a template. Blanks with a line break between tags are
dropped. -/
def ofMarkupNode : Markup.Node → List Node
  | .text value => if isLayout value then [] else [.text value]
  | .comment value => [.comment (Text.trim value)]
  | .element tag attributes children =>
    let properties := attributes.map (Property.ofAttribute (baseTag tag))
    match contentProperties (baseTag tag) children with
    | some more => [.element tag (properties ++ more) []]
    | none => [.element tag properties (ofMarkup children)]

/-- The template of a page. Layout is dropped. -/
def ofMarkup : List Markup.Node → List Node
  | [] => []
  | n :: ns => ofMarkupNode n ++ ofMarkup ns

end

end Viewloom.Template
