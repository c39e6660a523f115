import Viewloom.Text.Basic

/-!
# Markup

The content of a page as an owned tree of elements, texts and comments.
-/

namespace Viewloom

/-- An attribute of an element, or of anything else with names and values. -/
structure Attribute where
  name : Text
  value : Text
  deriving DecidableEq, Repr

namespace Attribute

/-- The value of the first attribute of a name. -/
def get? (name : Text) : List Attribute → Option Text
  | [] => none
  | a :: as => if a.name = name then some a.value else get? name as

def has (name : Text) (attributes : List Attribute) : Bool := (get? name attributes).isSome

/-- Gives a name a value, at the place of its first attribute or else at the end. -/
def set (name value : Text) : List Attribute → List Attribute
  | [] => [⟨name, value⟩]
  | a :: as => if a.name = name then ⟨a.name, value⟩ :: as else a :: set name value as

/-- Drops the first attribute of a name. -/
def erase (name : Text) : List Attribute → List Attribute
  | [] => []
  | a :: as => if a.name = name then as else a :: erase name as

/-- An attribute that has been set is found with its value. -/
@[simp]
theorem get?_set (name value : Text) (attributes : List Attribute) :
    get? name (set name value attributes) = some value := by
  induction attributes with
  | nil => simp [set, get?]
  | cons a as ih => by_cases h : a.name = name <;> simp [set, get?, h, ih]

theorem get?_eq_none_iff {name : Text} {attributes : List Attribute} :
    get? name attributes = none ↔ ∀ a ∈ attributes, a.name ≠ name := by
  induction attributes with
  | nil => simp [get?]
  | cons a as ih => by_cases h : a.name = name <;> simp [get?, h, ih]

theorem erase_of_get?_eq_none {name : Text} {attributes : List Attribute}
    (h : get? name attributes = none) : erase name attributes = attributes := by
  induction attributes with
  | nil => rfl
  | cons a as ih =>
    by_cases ha : a.name = name
    · simp [get?, ha] at h
    · simp only [get?, ha, if_false] at h
      simp [erase, ha, ih h]

end Attribute

namespace Markup

/-- A node of markup. -/
inductive Node where
  | element (tag : Text) (attributes : List Attribute) (children : List Node)
  | text (value : Text)
  | comment (value : Text)
  deriving Repr

/-- An element that has been taken out of its tree. -/
structure Element where
  tag : Text
  attributes : List Attribute
  children : List Node
  deriving Repr

def Element.toNode (e : Element) : Node := .element e.tag e.attributes e.children

mutual

def Node.beq : Node → Node → Bool
  | .element tag attributes children, .element tag' attributes' children' =>
    tag == tag' && attributes == attributes' && beqAll children children'
  | .text value, .text value' => value == value'
  | .comment value, .comment value' => value == value'
  | _, _ => false

def Node.beqAll : List Node → List Node → Bool
  | [], [] => true
  | n :: ns, m :: ms => n.beq m && beqAll ns ms
  | _, _ => false

end

mutual

/-- Nodes are compared to the last character. -/
theorem Node.beq_iff_eq : ∀ {n m : Node}, n.beq m = true ↔ n = m
  | .element _ _ _, .element _ _ _ => by
    simp [Node.beq, Node.beqAll_iff_eq, and_assoc]
  | .text _, .text _ => by simp [Node.beq]
  | .comment _, .comment _ => by simp [Node.beq]
  | .element _ _ _, .text _ => by simp [Node.beq]
  | .element _ _ _, .comment _ => by simp [Node.beq]
  | .text _, .element _ _ _ => by simp [Node.beq]
  | .text _, .comment _ => by simp [Node.beq]
  | .comment _, .element _ _ _ => by simp [Node.beq]
  | .comment _, .text _ => by simp [Node.beq]

theorem Node.beqAll_iff_eq : ∀ {ns ms : List Node}, Node.beqAll ns ms = true ↔ ns = ms
  | [], [] => by simp [Node.beqAll]
  | [], _ :: _ => by simp [Node.beqAll]
  | _ :: _, [] => by simp [Node.beqAll]
  | n :: ns, m :: ms => by simp [Node.beqAll, Node.beq_iff_eq, Node.beqAll_iff_eq]

end

instance : DecidableEq Node := fun _ _ => decidable_of_iff _ Node.beq_iff_eq

deriving instance DecidableEq for Element

/-- The elements without content, which have no closing tag. -/
def voidElements : List Text :=
  [text "area", text "base", text "br", text "col", text "embed", text "hr", text "img",
    text "input", text "link", text "meta", text "param", text "source", text "track", text "wbr"]

/-- Elements that have no content and no closing tag. -/
def isVoid (tag : Text) : Bool := voidElements.contains tag

/-- The elements whose text is printed as it stands. -/
def rawTextElements : List Text := [text "style", text "script"]

/-- Elements whose text is written as it stands. -/
def isRawText (tag : Text) : Bool := rawTextElements.contains tag

mutual

/-- Drops the elements that satisfy a test, with all that they contain. -/
def Node.prune (drop : Text → List Attribute → Bool) : Node → List Node
  | .element tag attributes children =>
    if drop tag attributes then [] else [.element tag attributes (pruneAll drop children)]
  | n => [n]

def Node.pruneAll (drop : Text → List Attribute → Bool) : List Node → List Node
  | [] => []
  | n :: ns => n.prune drop ++ pruneAll drop ns

end

end Markup

end Viewloom
