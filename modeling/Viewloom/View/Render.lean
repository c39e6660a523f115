import Viewloom.Controller
import Viewloom.Markup.Print
import Viewloom.Proxy
import Viewloom.Template.Binding
import Viewloom.Template.Style
import Viewloom.View.Basic

/-!
# Rendered views

A view is rendered to HTML against a set of proxies. Each child view renders under its own
controller, with what its socket received or else with empty proxies.
-/

namespace Viewloom

namespace ProxySet

/-- The proxies a view renders with: the supplied children under an external controller, and empty
ones otherwise. -/
def select (lookup : Lookup) (view : View) (supplied : List ProxyNode) : ProxySet :=
  if lookup.isExternal then ofChildren supplied else ofSockets view.sockets

end ProxySet

mutual

/-- What a child of a controller is rendered as, where it stands in no socket. -/
def ProxyNode.render : ProxyNode → Text
  | .text value => Markup.escapeText value
  | .element socket props none =>
    Markup.openTag socket (props.entries.map fun (name, value) => ⟨name, value⟩) ++
      Markup.closeTag socket
  | .element socket props (some children) =>
    Markup.openTag socket (props.entries.map fun (name, value) => ⟨name, value⟩) ++
      ProxyNode.renderAll children ++ Markup.closeTag socket

def ProxyNode.renderAll : List ProxyNode → Text
  | [] => []
  | n :: ns => n.render ++ ProxyNode.renderAll ns

end

namespace Template

/-- The attribute that a property writes. -/
def attributeName (property : Text) : Text :=
  if property = text "className" then text "class"
  else if property = text "htmlFor" then text "for"
  else if property = text "defaultValue" then text "value"
  else if property = text "defaultChecked" then text "checked"
  else property

/-- An attribute in rendered markup. -/
def writeAttribute (name value : Text) : Text := Markup.printAttribute ⟨name, value⟩

/-- A property in rendered markup, with the name it has there. Injected markup is no attribute. -/
def Property.render (p : Property) : Text :=
  match p.value with
  | .static value => writeAttribute (attributeName p.name) value
  | .flag => ' ' :: attributeName p.name
  | .style declarations =>
    writeAttribute (text "style")
      (List.intercalate [';'] (declarations.map fun d => cssProperty d.property ++ ':' :: d.value))
  | .innerHtml _ => []

/-- The properties that are not overridden. -/
def ownProperties (properties : List Property) (props : SortedMap Text) : List Property :=
  properties.filter fun p => !props.contains p.name

/-- The opening tag of an element whose properties are partly overridden. -/
def renderOpenTag (tag : Text) (properties : List Property) (props : SortedMap Text) : Text :=
  '<' :: tag ++ (ownProperties properties props).flatMap Property.render ++
    (props.entries.flatMap fun (name, value) => writeAttribute (attributeName name) value) ++ ['>']

/-- The raw content of an element, if one of its properties holds it. -/
def innerHtml? : List Property → Option Text
  | [] => none
  | p :: ps =>
    match innerHtml? ps, p.value with
    | some html, _ => some html
    | none, .innerHtml html => some html
    | none, _ => none

/-- An element, given its rendered content. -/
def renderElement (tag : Text) (properties : List Property) (props : SortedMap Text)
    (content : Text) : Text :=
  if Markup.isVoid tag then renderOpenTag tag properties props
  else
    renderOpenTag tag properties props ++
      (innerHtml? (ownProperties properties props)).getD content ++ Markup.closeTag tag

/-- Renders a child view by its tag, with the children its socket received. -/
abbrev Components := Text → List ProxyNode → Text

mutual

/-- Renders a node. A socket is shown only if a proxy has its name, which may replace what stands in
it. -/
def Node.render (components : Components) (proxies : ProxySet) : Node → Text
  | .text value => Markup.escapeText value
  | .comment _ => []
  | .component tag _ _ => components tag []
  | .element tag properties children =>
    renderElement tag properties .empty (Node.renderAll components proxies children)
  | .socket name target _ .proxied =>
    match proxies.get? name with
    | none => []
    | some proxy =>
      if target.isComponent then components target.tag (proxy.children.getD [])
      else
        renderElement target.tag target.properties proxy.props
          (ProxyNode.renderAll (proxy.children.getD []))
  | .socket name target _ (.fallback nodes) =>
    match proxies.get? name with
    | none => []
    | some proxy =>
      if target.isComponent then components target.tag (proxy.children.getD [])
      else
        renderElement target.tag target.properties proxy.props
          (match proxy.children with
          | some children => ProxyNode.renderAll children
          | none => Node.renderAll components proxies nodes)
  | .socket name target _ (.nested nodes) =>
    match proxies.get? name with
    | none => []
    | some proxy =>
      if target.isComponent then components target.tag (proxy.children.getD [])
      else
        renderElement target.tag target.properties proxy.props
          (Node.renderAll components (.ofChildren (proxy.children.getD [])) nodes)

def Node.renderAll (components : Components) (proxies : ProxySet) : List Node → Text
  | [] => []
  | n :: ns => n.render components proxies ++ Node.renderAll components proxies ns

end

end Template

namespace View

mutual

/-- Renders a view whose child views find their controllers by a function. -/
def renderWith (controllers : View → Lookup) : View → ProxySet → Text
  | ⟨_, _, _, _, nodes, _, children⟩, proxies =>
    Template.Node.renderAll (renderChild controllers children) proxies nodes

/-- Renders the first of several child views that a tag refers to. -/
def renderChild (controllers : View → Lookup) : List View → Template.Components
  | [], _, _ => []
  | child :: rest, tag, supplied =>
    if Template.controllerRef child.className = tag then
      renderWith controllers child (ProxySet.select (controllers child) child supplied)
    else renderChild controllers rest tag supplied

end

/-- Renders a view whose child views control themselves. -/
def render (view : View) (proxies : ProxySet) : Text := renderWith (fun _ => .notFound) view proxies

end View

end Viewloom
