import Viewloom.Text.Basic

/-!
# Templates

The content of a view as it is rendered: elements with properties, references to child views, texts,
comments, and sockets with the content that fills them by default.
-/

namespace Viewloom.Template

/-- One declaration of an inline style, named as authored. -/
structure Declaration where
  property : Text
  value : Text
  deriving DecidableEq, Repr

/-- What a property is set to. -/
inductive Value where
  | static (value : Text)
  | flag
  | style (declarations : List Declaration)
  | innerHtml (value : Text)
  deriving DecidableEq, Repr

/-- A property of an element in a template. -/
structure Property where
  name : Text
  value : Value
  deriving DecidableEq, Repr

/-- The element or child view that a socket stands for. -/
structure Target where
  tag : Text
  properties : List Property
  isComponent : Bool
  deriving DecidableEq, Repr

/-- What fills a socket: only what its proxy brings, authored content unless the proxy brings some,
or content with sockets of its own, which the children of the proxy fill. -/
inductive Content (α : Type) where
  | proxied
  | fallback (nodes : List α)
  | nested (nodes : List α)
  deriving DecidableEq, Repr

/-- A node of a template. Nothing reads the `inner` nodes of a socket's target. -/
inductive Node where
  | element (tag : Text) (properties : List Property) (children : List Node)
  | component (tag : Text) (properties : List Property) (children : List Node)
  | text (value : Text)
  | comment (value : Text)
  | socket (name : Text) (target : Target) (inner : List Node) (content : Content Node)
  deriving Repr

namespace Content

/-- The nodes that a content shows, if it shows any of its own. -/
def nodes {α : Type} : Content α → List α
  | proxied => []
  | fallback nodes => nodes
  | nested nodes => nodes

end Content

namespace Node

/-- The nodes below a node; those of a socket are its content. -/
def children : Node → List Node
  | element _ _ children => children
  | component _ _ children => children
  | socket _ _ _ content => content.nodes
  | _ => []

def isText : Node → Bool
  | text _ => true
  | _ => false

mutual

def beq : Node → Node → Bool
  | element tag properties children, element tag' properties' children' =>
    tag == tag' && properties == properties' && beqAll children children'
  | component tag properties children, component tag' properties' children' =>
    tag == tag' && properties == properties' && beqAll children children'
  | text value, text value' => value == value'
  | comment value, comment value' => value == value'
  | socket name target inner .proxied, socket name' target' inner' .proxied =>
    name == name' && target == target' && beqAll inner inner'
  | socket name target inner (.fallback nodes), socket name' target' inner' (.fallback nodes') =>
    name == name' && target == target' && beqAll inner inner' && beqAll nodes nodes'
  | socket name target inner (.nested nodes), socket name' target' inner' (.nested nodes') =>
    name == name' && target == target' && beqAll inner inner' && beqAll nodes nodes'
  | _, _ => false

def beqAll : List Node → List Node → Bool
  | [], [] => true
  | n :: ns, m :: ms => n.beq m && beqAll ns ms
  | _, _ => false

end

mutual

theorem beq_self : ∀ n : Node, n.beq n = true
  | element _ _ children => by simp [beq, beqAll_self children]
  | component _ _ children => by simp [beq, beqAll_self children]
  | text _ => by simp [beq]
  | comment _ => by simp [beq]
  | socket _ _ inner .proxied => by simp [beq, beqAll_self inner]
  | socket _ _ inner (.fallback nodes) => by simp [beq, beqAll_self inner, beqAll_self nodes]
  | socket _ _ inner (.nested nodes) => by simp [beq, beqAll_self inner, beqAll_self nodes]

theorem beqAll_self : ∀ ns : List Node, beqAll ns ns = true
  | [] => rfl
  | n :: ns => by simp [beqAll, beq_self n, beqAll_self ns]

end

mutual

/-- Nodes that compare equal are equal. -/
theorem eq_of_beq : ∀ {n m : Node}, n.beq m = true → n = m
  | element _ _ _, element _ _ _, h => by
    simp only [beq, Bool.and_eq_true, beq_iff_eq] at h
    rw [h.1.1, h.1.2, eq_of_beqAll h.2]
  | component _ _ _, component _ _ _, h => by
    simp only [beq, Bool.and_eq_true, beq_iff_eq] at h
    rw [h.1.1, h.1.2, eq_of_beqAll h.2]
  | text _, text _, h => by simpa [beq] using h
  | comment _, comment _, h => by simpa [beq] using h
  | socket _ _ _ .proxied, socket _ _ _ .proxied, h => by
    simp only [beq, Bool.and_eq_true, beq_iff_eq] at h
    rw [h.1.1, h.1.2, eq_of_beqAll h.2]
  | socket _ _ _ (.fallback _), socket _ _ _ (.fallback _), h => by
    simp only [beq, Bool.and_eq_true, beq_iff_eq] at h
    rw [h.1.1.1, h.1.1.2, eq_of_beqAll h.1.2, eq_of_beqAll h.2]
  | socket _ _ _ (.nested _), socket _ _ _ (.nested _), h => by
    simp only [beq, Bool.and_eq_true, beq_iff_eq] at h
    rw [h.1.1.1, h.1.1.2, eq_of_beqAll h.1.2, eq_of_beqAll h.2]

theorem eq_of_beqAll : ∀ {ns ms : List Node}, beqAll ns ms = true → ns = ms
  | [], [], _ => rfl
  | n :: ns, m :: ms, h => by
    simp only [beqAll, Bool.and_eq_true] at h
    rw [eq_of_beq h.1, eq_of_beqAll h.2]

end

instance : DecidableEq Node := fun n m =>
  decidable_of_iff (n.beq m = true) ⟨eq_of_beq, fun h => h ▸ beq_self n⟩

end Node

end Viewloom.Template
