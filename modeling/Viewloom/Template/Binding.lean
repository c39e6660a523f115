import Viewloom.Socket
import Viewloom.Template.Basic

/-!
# Bound templates

Binding turns the placeholders of child views into references to them, and the elements whose tags
carry a socket name into sockets.
-/

namespace Viewloom.Template

/-- The expression that renders a child view. -/
def controllerRef (className : Text) : Text := className ++ text ".Controller"

/-- The class of the last child view that a placeholder tag stands for. -/
def classOf? (children : List Names) (tag : Text) : Option Text :=
  (children.reverse.find? fun names =>
    Extraction.placeholderTag names.elementTag == tag).map Names.className

/-- The reference that takes the place of a placeholder tag, which may carry a socket name. -/
def componentTag? (children : List Names) (tag : Text) : Option Text :=
  match splitSocketTag tag with
  | some (base, socket) =>
    (classOf? children base).map fun className => socketTag (controllerRef className) socket
  | none => (classOf? children tag).map controllerRef

mutual

/-- Turns the placeholders of child views into components, in all parts of a node. -/
def Node.bindChildren (names : List Names) : Node → Node
  | .element tag properties children =>
    match componentTag? names tag with
    | some tag => .component tag properties (bindChildrenAll names children)
    | none => .element tag properties (bindChildrenAll names children)
  | .component tag properties children =>
    .component tag properties (bindChildrenAll names children)
  | .socket name target inner (.fallback nodes) =>
    .socket name target inner (.fallback (bindChildrenAll names nodes))
  | .socket name target inner (.nested nodes) =>
    .socket name target inner (.nested (bindChildrenAll names nodes))
  | n => n

/-- Turns the placeholders of child views into references. -/
def Node.bindChildrenAll (names : List Names) : List Node → List Node
  | [] => []
  | n :: ns => n.bindChildren names :: bindChildrenAll names ns

end

mutual

def Node.countBound (names : List Names) : Node → Nat
  | .element tag _ children =>
    (if (componentTag? names tag).isSome then 1 else 0) + countBoundAll names children
  | .component _ _ children => countBoundAll names children
  | .socket _ _ _ (.fallback nodes) => countBoundAll names nodes
  | .socket _ _ _ (.nested nodes) => countBoundAll names nodes
  | _ => 0

/-- The number of placeholders that become references. -/
def Node.countBoundAll (names : List Names) : List Node → Nat
  | [] => 0
  | n :: ns => n.countBound names + countBoundAll names ns

end

mutual

def Node.hasSocket : Node → Bool
  | .socket _ _ _ _ => true
  | .element _ _ children => hasSocketAny children
  | .component _ _ children => hasSocketAny children
  | _ => false

/-- Whether a socket stands among nodes, at any depth. -/
def Node.hasSocketAny : List Node → Bool
  | [] => false
  | n :: ns => n.hasSocket || hasSocketAny ns

end

/-- How authored content fills a socket. -/
def contentOf (children : List Node) : Content Node :=
  if children.isEmpty then .proxied
  else if Node.hasSocketAny children then .nested children
  else .fallback children

/-- A node whose tag may carry a socket name, given its bound children. -/
def bindTag (isComponent : Bool) (tag : Text) (properties : List Property)
    (children : List Node) : Node × List Text :=
  match splitSocketTag tag with
  | some (base, socket) =>
    (.socket socket ⟨base, properties, isComponent⟩ [] (contentOf children), [socket])
  | none =>
    (if isComponent then .component tag properties children else .element tag properties children,
      [])

mutual

def Node.bindSockets : Node → Node × List Text
  | .element tag properties children =>
    let (children, sockets) := bindSocketsAll children
    let (node, bound) := bindTag false tag properties children
    (node, sockets ++ bound)
  | .component tag properties children =>
    let (children, sockets) := bindSocketsAll children
    let (node, bound) := bindTag true tag properties children
    (node, sockets ++ bound)
  | .socket name target inner (.fallback nodes) =>
    let (nodes, sockets) := bindSocketsAll nodes
    (.socket name target inner (.fallback nodes), sockets)
  | .socket name target inner (.nested nodes) =>
    let (nodes, sockets) := bindSocketsAll nodes
    (.socket name target inner (.nested nodes), sockets)
  | n => (n, [])

/-- Turns tags that carry a socket name into sockets; gives their names, inner ones first. -/
def Node.bindSocketsAll : List Node → List Node × List Text
  | [] => ([], [])
  | n :: ns =>
    let (n, sockets) := n.bindSockets
    let (ns, more) := bindSocketsAll ns
    (n :: ns, sockets ++ more)

end

/-- Binds the child views and then the sockets of a template. -/
def bind (names : List Names) (nodes : List Node) : List Node × List Text :=
  Node.bindSocketsAll (Node.bindChildrenAll names nodes)

end Viewloom.Template
