import Viewloom.Css.Stylesheet
import Viewloom.Markup.Basic

/-!
# Scoped markup

The classes of a page move into the private name space, in its class attributes and in its
stylesheets alike.
-/

namespace Viewloom.Markup

/-- Scopes the class names of an attribute list, in place. -/
def scopeAttributes (attributes : List Attribute) : List Attribute :=
  match Attribute.get? (text "class") attributes with
  | some value => Attribute.set (text "class") (Css.scopeClassAttribute value) attributes
  | none => attributes

mutual

/-- Scopes a node; the flag tells whether its text is a stylesheet. -/
def Node.scope (css : Bool) : Node → Node
  | .element tag attributes children =>
    .element tag (scopeAttributes attributes) (scopeAll (tag == Viewloom.text "style") children)
  | .text value => .text (if css then Css.scopeStylesheet value else value)
  | .comment value => .comment value

def Node.scopeAll (css : Bool) : List Node → List Node
  | [] => []
  | n :: ns => n.scope css :: scopeAll css ns

end

/-- Scopes all stylesheets and class attributes of a page. -/
def scope (nodes : List Node) : List Node := Node.scopeAll false nodes

end Viewloom.Markup
