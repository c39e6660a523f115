import Viewloom.Json.Basic
import Viewloom.Markup.Basic
import Viewloom.View.Basic

/-!
# Views as JSON

Markup, templates and views are written as objects with a fixed order of fields, and read back from
objects or from arrays of their fields.
-/

namespace Viewloom

open Json (array object string bool null fields? tagged? adjacent? decodeAll)

/-! ## Markup -/

namespace Attribute

/-- An attribute as an object of its name and its value. -/
def toJson (a : Attribute) : Json :=
  object [(text "name", string a.name), (text "value", string a.value)]

/-- Reads an attribute. Further members are ignored, repeated ones refused. -/
def ofJson? (j : Json) : Option Attribute := do
  match ← fields? [text "name", text "value"] j with
  | [name, value] => some ⟨← name.asString?, ← value.asString?⟩
  | _ => none

end Attribute

/-- A tag, attributes and children. -/
def elementFields : List Text := [text "tag", text "attributes", text "children"]

namespace Markup

mutual

/-- A node as an object that is tagged with its kind. -/
def Node.toJson : Node → Json
  | .element tag attributes children =>
    object
      [(Viewloom.text "type", string (Viewloom.text "element")), (Viewloom.text "tag", string tag),
        (Viewloom.text "attributes", array (attributes.map Attribute.toJson)),
        (Viewloom.text "children", array (toJsonAll children))]
  | .text value =>
    object
      [(Viewloom.text "type", string (Viewloom.text "text")),
        (Viewloom.text "value", string value)]
  | .comment value =>
    object
      [(Viewloom.text "type", string (Viewloom.text "comment")),
        (Viewloom.text "value", string value)]

def Node.toJsonAll : List Node → List Json
  | [] => []
  | n :: ns => n.toJson :: toJsonAll ns

end

/-- Reads a node whose children are nested up to a depth. -/
def Node.ofJsonWithin : Nat → Json → Option Node
  | 0, _ => none
  | depth + 1, j => do
    let (tag, rest) ← tagged? (Viewloom.text "type") j
    if tag = Viewloom.text "element" then
      match ← fields? elementFields rest with
      | [tag, attributes, children] =>
        some (.element (← tag.asString?) (← decodeAll Attribute.ofJson? attributes)
          (← decodeAll (ofJsonWithin depth) children))
      | _ => none
    else
      match ← fields? [Viewloom.text "value"] rest with
      | [value] =>
        let value ← value.asString?
        if tag = Viewloom.text "text" then some (.text value)
        else if tag = Viewloom.text "comment" then some (.comment value)
        else none
      | _ => none

end Markup

/-! ## Templates -/

namespace Template

namespace Declaration

def toJson (d : Declaration) : Json :=
  object [(text "property", string d.property), (text "value", string d.value)]

def ofJson? (j : Json) : Option Declaration := do
  match ← fields? [text "property", text "value"] j with
  | [property, value] => some ⟨← property.asString?, ← value.asString?⟩
  | _ => none

end Declaration

namespace Value

/-- A value as an object that is tagged with its kind; a flag has no value. -/
def toJson : Value → Json
  | static value =>
    object [(text "kind", string (text "static")), (text "value", string value)]
  | flag => object [(text "kind", string (text "flag"))]
  | style declarations =>
    object
      [(text "kind", string (text "style")),
        (text "value", array (declarations.map Declaration.toJson))]
  | innerHtml value =>
    object [(text "kind", string (text "inner-html")), (text "value", string value)]

/-- Whether a member is left out or `null`, which is the same for a value that is not needed. -/
def isAbsent : Option Json → Bool
  | none | some .null => true
  | _ => false

/-- Reads a value of a property by its kind. -/
def ofJson? (j : Json) : Option Value := do
  let (kind, value) ← adjacent? (text "kind") (text "value") j
  if kind = text "flag" then if isAbsent value then some flag else none
  else
    let value ← value
    if kind = text "static" then value.asString?.map static
    else if kind = text "style" then (decodeAll Declaration.ofJson? value).map style
    else if kind = text "inner-html" then value.asString?.map innerHtml
    else none

end Value

namespace Property

def toJson (p : Property) : Json :=
  object [(text "name", string p.name), (text "value", p.value.toJson)]

def ofJson? (j : Json) : Option Property := do
  match ← fields? [text "name", text "value"] j with
  | [name, value] => some ⟨← name.asString?, ← Value.ofJson? value⟩
  | _ => none

end Property

/-- The three fields of an element, given its children. -/
def elementMembers (tag : Text) (properties : List Property) (children : List Json) :
    List (Text × Json) :=
  [(text "tag", string tag), (text "attributes", array (properties.map Property.toJson)),
    (text "children", array children)]

/-- An object that is tagged with its kind among its members. -/
def typed (type : Text) (members : List (Text × Json)) : Json :=
  object ((text "type", string type) :: members)

/-- A content as an object whose nodes stand beside its kind. -/
def contentJson (kind : Text) (nodes : List Json) : Json :=
  object [(text "kind", string kind), (text "nodes", array nodes)]

/-- The members of a socket: its name, its target with what stands in it, and its content. -/
def socketMembers (name : Text) (target : Target) (inner : List Json) (content : Json) :
    List (Text × Json) :=
  [(text "name", string name),
    (text "target", object (elementMembers target.tag target.properties inner)),
    (text "isComponent", bool target.isComponent), (text "content", content)]

mutual

/-- A node of a template as an object that is tagged with its kind. -/
def Node.toJson : Node → Json
  | .element tag properties children =>
    typed (Viewloom.text "element") (elementMembers tag properties (toJsonAll children))
  | .component tag properties children =>
    typed (Viewloom.text "component") (elementMembers tag properties (toJsonAll children))
  | .text value => typed (Viewloom.text "text") [(Viewloom.text "value", string value)]
  | .comment value => typed (Viewloom.text "comment") [(Viewloom.text "value", string value)]
  | .socket name target inner .proxied =>
    typed (Viewloom.text "socket")
      (socketMembers name target (toJsonAll inner)
        (object [(Viewloom.text "kind", string (Viewloom.text "proxied"))]))
  | .socket name target inner (.fallback nodes) =>
    typed (Viewloom.text "socket")
      (socketMembers name target (toJsonAll inner)
        (contentJson (Viewloom.text "fallback") (toJsonAll nodes)))
  | .socket name target inner (.nested nodes) =>
    typed (Viewloom.text "socket")
      (socketMembers name target (toJsonAll inner)
        (contentJson (Viewloom.text "scoped") (toJsonAll nodes)))

def Node.toJsonAll : List Node → List Json
  | [] => []
  | n :: ns => n.toJson :: toJsonAll ns

end

/-- Reads an element, given how its children are read. -/
def elementOf? (node : Json → Option Node) (j : Json) :
    Option (Text × List Property × List Node) := do
  match ← fields? elementFields j with
  | [tag, properties, children] =>
    some (← tag.asString?, ← decodeAll Property.ofJson? properties, ← decodeAll node children)
  | _ => none

/-- Reads a content, of nodes that are read by a reader of their own. -/
def contentOf? (node : Json → Option Node) (j : Json) : Option (Content Node) := do
  let (kind, nodes) ← adjacent? (text "kind") (text "nodes") j
  if kind = text "proxied" then if Value.isAbsent nodes then some .proxied else none
  else
    let nodes ← decodeAll node (← nodes)
    if kind = text "fallback" then some (.fallback nodes)
    else if kind = text "scoped" then some (.nested nodes)
    else none

/-- Reads a node whose children are nested up to a depth. -/
def Node.ofJsonWithin : Nat → Json → Option Node
  | 0, _ => none
  | depth + 1, j => do
    let (type, rest) ← tagged? (Viewloom.text "type") j
    if type = Viewloom.text "element" then
      let (tag, properties, children) ← elementOf? (ofJsonWithin depth) rest
      some (.element tag properties children)
    else if type = Viewloom.text "component" then
      let (tag, properties, children) ← elementOf? (ofJsonWithin depth) rest
      some (.component tag properties children)
    else if type = Viewloom.text "socket" then
      match ← fields?
        [Viewloom.text "name", Viewloom.text "target", Viewloom.text "isComponent",
          Viewloom.text "content"] rest with
      | [name, target, isComponent, content] =>
        let (tag, properties, inner) ← elementOf? (ofJsonWithin depth) target
        some (.socket (← name.asString?) ⟨tag, properties, ← isComponent.asBool?⟩ inner
          (← contentOf? (ofJsonWithin depth) content))
      | _ => none
    else
      match ← fields? [Viewloom.text "value"] rest with
      | [value] =>
        let value ← value.asString?
        if type = Viewloom.text "text" then some (.text value)
        else if type = Viewloom.text "comment" then some (.comment value)
        else none
      | _ => none

end Template

/-! ## Views -/

namespace Names

/-- The names of a view, in the order in which they are written. -/
def fieldNames : List Text :=
  [text "controllerClassName", text "className", text "elementTag", text "fileSlug"]

def toJson (n : Names) : Json :=
  object
    (fieldNames.zip
      [string n.controllerClassName, string n.className, string n.elementTag, string n.fileSlug])

def ofJson? (j : Json) : Option Names := do
  match ← fields? fieldNames j with
  | [controller, className, tag, slug] =>
    some ⟨← controller.asString?, ← className.asString?, ← tag.asString?, ← slug.asString?⟩
  | _ => none

end Names

namespace View

/-- What the state of a view holds, in the order in which it is written. -/
def stateFields : List Text :=
  [text "sanitizedMarkup", text "sockets", text "templateNodes", text "template",
    text "children"]

mutual

/-- A view with its names, its state and the views below it. -/
def toJson : View → Json
  | ⟨label, names, markup, sockets, nodes, template, children⟩ =>
    object
      [(text "label", string label), (text "names", names.toJson),
        (text "state",
          object
            (stateFields.zip
              [string markup, array (sockets.map string), array (Template.Node.toJsonAll nodes),
                string template, array (toJsonAll children)]))]

def toJsonAll : List View → List Json
  | [] => []
  | v :: vs => toJson v :: toJsonAll vs

end

/-- Reads a view whose parts are nested up to a depth. -/
def ofJsonWithin : Nat → Json → Option View
  | 0, _ => none
  | depth + 1, j => do
    match ← fields? [text "label", text "names", text "state"] j with
    | [label, names, state] =>
      match ← fields? stateFields state with
      | [markup, sockets, nodes, template, children] =>
        some
          { label := ← label.asString?
            names := ← Names.ofJson? names
            markup := ← markup.asString?
            sockets := ← decodeAll Json.asString? sockets
            nodes := ← decodeAll (Template.Node.ofJsonWithin depth) nodes
            template := ← template.asString?
            children := ← decodeAll (ofJsonWithin depth) children }
      | _ => none
    | _ => none

end View

end Viewloom
