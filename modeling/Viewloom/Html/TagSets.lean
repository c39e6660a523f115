import Viewloom.Html.Tree

/-!
# Sets of elements

The groups of elements that the construction of a document treats alike.
-/

namespace Viewloom.Html

namespace Name

/-- A name outside of foreign content. -/
def html (name : Text) : Name := ⟨.html, name⟩

/-- Whether a name is an HTML name of a list. -/
def isOneOf (names : List Text) (n : Name) : Bool := n.space == .html && names.contains n.name

/-- Whether texts in a mathematical element are read as outside of it. -/
def isMathTextPoint (n : Name) : Bool :=
  n.space == .mathml &&
    [text "mi", text "mo", text "mn", text "ms", text "mtext"].contains n.name

/-- SVG elements whose content is HTML. -/
def isSvgHtmlPoint (n : Name) : Bool :=
  n.space == .svg && [text "foreignObject", text "desc", text "title"].contains n.name

/-- Whether a search among the open elements ends at a name. -/
def isScope (n : Name) : Bool :=
  isMathTextPoint n || isSvgHtmlPoint n ||
    isOneOf
      [text "applet", text "caption", text "html", text "table", text "td", text "th",
        text "marquee", text "object", text "template"] n

/-- Whether a search for an item of a list ends at a name. -/
def isListScope (n : Name) : Bool := isScope n || isOneOf [text "ol", text "ul"] n

/-- Whether a search for a paragraph ends at a name. -/
def isButtonScope (n : Name) : Bool := isScope n || isOneOf [text "button"] n

/-- Whether a search for a part of a table ends at a name. -/
def isTableScope (n : Name) : Bool := isOneOf [text "html", text "table", text "template"] n

/-- Whether a search for a menu of choices ends at a name. -/
def isSelectScope (n : Name) : Bool := !isOneOf [text "optgroup", text "option"] n

def isHeading (n : Name) : Bool :=
  isOneOf [text "h1", text "h2", text "h3", text "h4", text "h5", text "h6"] n

/-- Whether the end of an element may be left out. -/
def isImpliedEnd (n : Name) : Bool :=
  isOneOf
    [text "dd", text "dt", text "li", text "option", text "optgroup", text "p", text "rb",
      text "rp", text "rt", text "rtc"] n

/-- Whether the end of an element may be left out in front of the end of a template. -/
def isThoroughImpliedEnd (n : Name) : Bool :=
  isImpliedEnd n ||
    isOneOf
      [text "caption", text "colgroup", text "tbody", text "td", text "tfoot", text "th",
        text "thead", text "tr"] n

/-- Whether an end tag of another name does not pass an element. -/
def isSpecial (n : Name) : Bool :=
  isOneOf
    [text "address", text "applet", text "area", text "article", text "aside", text "base",
      text "basefont", text "bgsound", text "blockquote", text "body", text "br", text "button",
      text "caption", text "center", text "col", text "colgroup", text "dd", text "details",
      text "dir", text "div", text "dl", text "dt", text "embed", text "fieldset",
      text "figcaption", text "figure", text "footer", text "form", text "frame",
      text "frameset", text "h1", text "h2", text "h3", text "h4", text "h5", text "h6",
      text "head", text "header", text "hgroup", text "hr", text "html", text "iframe",
      text "img", text "input", text "isindex", text "li", text "link", text "listing",
      text "main", text "marquee", text "menu", text "meta", text "nav", text "noembed",
      text "noframes", text "noscript", text "object", text "ol", text "p", text "param",
      text "plaintext", text "pre", text "script", text "section", text "select",
      text "source", text "style", text "summary", text "table", text "tbody", text "td",
      text "template", text "textarea", text "tfoot", text "th", text "thead", text "title",
      text "tr", text "track", text "ul", text "wbr", text "xmp"] n

/-- Elements whose misplaced content moves in front of the table. -/
def isFoster (n : Name) : Bool :=
  isOneOf [text "table", text "tbody", text "tfoot", text "thead", text "tr"] n

/-- Whether closing up to a section of a table stops at an element. -/
def isTableBody (n : Name) : Bool :=
  isOneOf [text "tbody", text "tfoot", text "thead", text "template", text "html"] n

/-- Whether closing up to a row stops at an element. -/
def isTableRow (n : Name) : Bool := isOneOf [text "tr", text "template", text "html"] n

def isCell (n : Name) : Bool := isOneOf [text "td", text "th"] n

end Name

/-- The tags of formatting elements that are opened again where they have been closed early. -/
def formattingTags : List Text :=
  [text "b", text "big", text "code", text "em", text "font", text "i", text "s", text "small",
    text "strike", text "strong", text "tt", text "u"]

/-- Blocks that close an open paragraph. -/
def blockTags : List Text :=
  [text "address", text "article", text "aside", text "blockquote", text "center",
    text "details", text "dialog", text "dir", text "div", text "dl", text "fieldset",
    text "figcaption", text "figure", text "footer", text "header", text "hgroup", text "main",
    text "nav", text "ol", text "p", text "section", text "summary", text "ul"]

/-- End tags that close an element of their own name in scope. -/
def blockEndTags : List Text :=
  [text "address", text "article", text "aside", text "blockquote", text "button",
    text "center", text "details", text "dialog", text "dir", text "div", text "dl",
    text "fieldset", text "figcaption", text "figure", text "footer", text "header",
    text "hgroup", text "listing", text "main", text "menu", text "nav", text "ol", text "pre",
    text "section", text "summary", text "ul"]

/-- The tags of elements that belong into the head. -/
def headTags : List Text :=
  [text "base", text "basefont", text "bgsound", text "link", text "meta", text "noframes",
    text "script", text "style", text "template", text "title"]

/-- HTML tags that end foreign content. -/
def breakoutTags : List Text :=
  [text "b", text "big", text "blockquote", text "body", text "br", text "center", text "code",
    text "dd", text "div", text "dl", text "dt", text "em", text "embed", text "h1", text "h2",
    text "h3", text "h4", text "h5", text "h6", text "head", text "hr", text "i", text "img",
    text "li", text "listing", text "menu", text "meta", text "nobr", text "ol", text "p",
    text "pre", text "ruby", text "s", text "small", text "span", text "strong", text "strike",
    text "sub", text "sup", text "table", text "tt", text "u", text "ul", text "var"]

/-- The tags of drawings that have capitals. -/
def svgTags : List (Text × Text) :=
  ([("altglyph", "altGlyph"), ("altglyphdef", "altGlyphDef"), ("altglyphitem", "altGlyphItem"),
    ("animatecolor", "animateColor"), ("animatemotion", "animateMotion"),
    ("animatetransform", "animateTransform"), ("clippath", "clipPath"), ("feblend", "feBlend"),
    ("fecolormatrix", "feColorMatrix"), ("fecomponenttransfer", "feComponentTransfer"),
    ("fecomposite", "feComposite"), ("feconvolvematrix", "feConvolveMatrix"),
    ("fediffuselighting", "feDiffuseLighting"), ("fedisplacementmap", "feDisplacementMap"),
    ("fedistantlight", "feDistantLight"), ("fedropshadow", "feDropShadow"),
    ("feflood", "feFlood"), ("fefunca", "feFuncA"), ("fefuncb", "feFuncB"),
    ("fefuncg", "feFuncG"), ("fefuncr", "feFuncR"), ("fegaussianblur", "feGaussianBlur"),
    ("feimage", "feImage"), ("femerge", "feMerge"), ("femergenode", "feMergeNode"),
    ("femorphology", "feMorphology"), ("feoffset", "feOffset"),
    ("fepointlight", "fePointLight"), ("fespecularlighting", "feSpecularLighting"),
    ("fespotlight", "feSpotLight"), ("fetile", "feTile"), ("feturbulence", "feTurbulence"),
    ("foreignobject", "foreignObject"), ("glyphref", "glyphRef"),
    ("lineargradient", "linearGradient"), ("radialgradient", "radialGradient"),
    ("textpath", "textPath")] : List (String × String)).map fun (a, b) => (text a, text b)

/-- The attributes of drawings that have capitals. -/
def svgAttributes : List (Text × Text) :=
  ([("attributename", "attributeName"), ("attributetype", "attributeType"),
    ("basefrequency", "baseFrequency"), ("baseprofile", "baseProfile"),
    ("calcmode", "calcMode"), ("clippathunits", "clipPathUnits"),
    ("diffuseconstant", "diffuseConstant"), ("edgemode", "edgeMode"),
    ("filterunits", "filterUnits"), ("glyphref", "glyphRef"),
    ("gradienttransform", "gradientTransform"), ("gradientunits", "gradientUnits"),
    ("kernelmatrix", "kernelMatrix"), ("kernelunitlength", "kernelUnitLength"),
    ("keypoints", "keyPoints"), ("keysplines", "keySplines"), ("keytimes", "keyTimes"),
    ("lengthadjust", "lengthAdjust"), ("limitingconeangle", "limitingConeAngle"),
    ("markerheight", "markerHeight"), ("markerunits", "markerUnits"),
    ("markerwidth", "markerWidth"), ("maskcontentunits", "maskContentUnits"),
    ("maskunits", "maskUnits"), ("numoctaves", "numOctaves"), ("pathlength", "pathLength"),
    ("patterncontentunits", "patternContentUnits"), ("patterntransform", "patternTransform"),
    ("patternunits", "patternUnits"), ("pointsatx", "pointsAtX"), ("pointsaty", "pointsAtY"),
    ("pointsatz", "pointsAtZ"), ("preservealpha", "preserveAlpha"),
    ("preserveaspectratio", "preserveAspectRatio"), ("primitiveunits", "primitiveUnits"),
    ("refx", "refX"), ("refy", "refY"), ("repeatcount", "repeatCount"),
    ("repeatdur", "repeatDur"), ("requiredextensions", "requiredExtensions"),
    ("requiredfeatures", "requiredFeatures"), ("specularconstant", "specularConstant"),
    ("specularexponent", "specularExponent"), ("spreadmethod", "spreadMethod"),
    ("startoffset", "startOffset"), ("stddeviation", "stdDeviation"),
    ("stitchtiles", "stitchTiles"), ("surfacescale", "surfaceScale"),
    ("systemlanguage", "systemLanguage"), ("tablevalues", "tableValues"),
    ("targetx", "targetX"), ("targety", "targetY"), ("textlength", "textLength"),
    ("viewbox", "viewBox"), ("viewtarget", "viewTarget"),
    ("xchannelselector", "xChannelSelector"), ("ychannelselector", "yChannelSelector"),
    ("zoomandpan", "zoomAndPan")] : List (String × String)).map fun (a, b) => (text a, text b)

/-- Replaces the names of attributes by a table. -/
def adjustAttributes (table : List (Text × Text)) (attributes : List Attribute) : List Attribute :=
  attributes.map fun a => ⟨(table.lookup a.name).getD a.name, a.value⟩

/-- The attributes of formulas that have capitals. -/
def mathAttributes : List (Text × Text) := [(text "definitionurl", text "definitionURL")]

/-- In foreign content a name space declaration without a name has an empty name before the colon
of its attribute. -/
def spaceAttributes : List (Text × Text) := [(text "xmlns", text ":xmlns")]

end Viewloom.Html
