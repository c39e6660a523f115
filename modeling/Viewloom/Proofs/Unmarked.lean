import Viewloom.Proofs.Extraction

/-!
# Pages without markers

Deleting the markers of child views and sockets changes no other attribute, and it does not matter
whether a page is scoped before or after it.
-/

namespace Viewloom

open Markup (Node)

namespace Markup

/-- Whether an attribute marks a child view or a socket. -/
def isMarker (a : Attribute) : Bool := a.name == childMarker || a.name == socketMarker

/-- The attributes that are no markers. -/
def unmarked (attributes : List Attribute) : List Attribute := attributes.filter (!isMarker ·)

mutual

/-- Deletes every marker of a child view or a socket. -/
def Node.unmark : Node → Node
  | .element tag attributes children => .element tag (unmarked attributes) (unmarkAll children)
  | n => n

def Node.unmarkAll : List Node → List Node
  | [] => []
  | n :: ns => n.unmark :: unmarkAll ns

end
/-! ## Attributes -/

theorem unmarked_cons (a : Attribute) (as : List Attribute) :
    unmarked (a :: as) = if isMarker a then unmarked as else a :: unmarked as := by
  by_cases h : isMarker a = true <;> simp [unmarked, h]

/-- Unmarked attributes stay as they are when they are unmarked again. -/
@[simp]
theorem unmarked_unmarked (attributes : List Attribute) :
    unmarked (unmarked attributes) = unmarked attributes := by
  simp [unmarked]

theorem isMarker_of_name {a : Attribute} {name : Text} (hchild : name ≠ childMarker)
    (hsocket : name ≠ socketMarker) (h : a.name = name) : isMarker a = false := by
  simp [isMarker, h, hchild, hsocket]

/-- Another attribute than the markers is found among the unmarked ones. -/
theorem get?_unmarked {name : Text} (hchild : name ≠ childMarker) (hsocket : name ≠ socketMarker)
    (attributes : List Attribute) :
    Attribute.get? name (unmarked attributes) = Attribute.get? name attributes := by
  induction attributes with
  | nil => rfl
  | cons a as ih =>
      rw [unmarked_cons]
      by_cases ha : a.name = name
      · simp [isMarker_of_name hchild hsocket ha, Attribute.get?, ha]
      · by_cases hm : isMarker a = true <;> simp [hm, Attribute.get?, ha, ih]

/-- No marker is found among unmarked attributes. -/
theorem get?_unmarked_of_marker {name : Text} (h : name = childMarker ∨ name = socketMarker)
    (attributes : List Attribute) : Attribute.get? name (unmarked attributes) = none := by
  refine Attribute.get?_eq_none_iff.2 fun a ha hname => ?_
  have hmarker := (List.mem_filter.1 ha).2
  rcases h with rfl | rfl <;> simp [isMarker, hname] at hmarker

/-- Another attribute than the markers can be set before unmarking or after. -/
theorem set_unmarked {name : Text} (hchild : name ≠ childMarker) (hsocket : name ≠ socketMarker)
    (value : Text) {attributes : List Attribute} (h : Attribute.has name attributes = true) :
    Attribute.set name value (unmarked attributes) =
      unmarked (Attribute.set name value attributes) := by
  induction attributes with
  | nil => simp [Attribute.has, Attribute.get?] at h
  | cons a as ih =>
      rw [unmarked_cons]
      by_cases ha : a.name = name
      · have hset : isMarker ⟨a.name, value⟩ = false := isMarker_of_name hchild hsocket ha
        simp [isMarker_of_name hchild hsocket ha, Attribute.set, ha, unmarked_cons, ha ▸ hset]
      · have h' : Attribute.has name as = true := by simpa [Attribute.has, Attribute.get?, ha] using h
        by_cases hm : isMarker a = true
        · simp [hm, Attribute.set, ha, unmarked_cons, ih h']
        · simp [hm, Attribute.set, ha, unmarked_cons, ih h']

/-- Another attribute than the markers can be erased before unmarking or after. -/
theorem erase_unmarked {name : Text} (hchild : name ≠ childMarker) (hsocket : name ≠ socketMarker)
    (attributes : List Attribute) :
    Attribute.erase name (unmarked attributes) = unmarked (Attribute.erase name attributes) := by
  induction attributes with
  | nil => rfl
  | cons a as ih =>
      rw [unmarked_cons]
      by_cases ha : a.name = name
      · simp [isMarker_of_name hchild hsocket ha, Attribute.erase, ha]
      · by_cases hm : isMarker a = true <;> simp [hm, Attribute.erase, ha, unmarked_cons, ih]

/-- Erasing a marker makes no difference to the unmarked attributes. -/
theorem unmarked_erase {name : Text} (h : name = childMarker ∨ name = socketMarker)
    (attributes : List Attribute) : unmarked (Attribute.erase name attributes) = unmarked attributes := by
  induction attributes with
  | nil => rfl
  | cons a as ih =>
      by_cases ha : a.name = name
      · have hm : isMarker a = true := by rcases h with rfl | rfl <;> simp [isMarker, ha]
        simp [Attribute.erase, ha, unmarked_cons, hm]
      · simp [Attribute.erase, ha, unmarked_cons, ih]

/-- The socket marker is the only one that is left on an element of a view. -/
theorem erase_socketMarker {attributes : List Attribute}
    (hnodup : (attributes.map Attribute.name).Nodup)
    (hchild : Attribute.get? childMarker attributes = none) :
    Attribute.erase socketMarker attributes = unmarked attributes := by
  induction attributes with
  | nil => rfl
  | cons a as ih =>
      simp only [List.map_cons, List.nodup_cons] at hnodup
      have hne : a.name ≠ childMarker := Attribute.get?_eq_none_iff.1 hchild a (by simp)
      have hrest : Attribute.get? childMarker as = none := by
        simpa [Attribute.get?, hne] using hchild
      by_cases ha : a.name = socketMarker
      · have hnone : Attribute.get? socketMarker as = none := by
          refine Attribute.get?_eq_none_iff.2 fun b hb hname => hnodup.1 ?_
          exact List.mem_map.2 ⟨b, hb, by rw [hname, ha]⟩
        have herase := Attribute.erase_of_get?_eq_none hnone
        rw [ih hnodup.2 hrest] at herase
        simp [Attribute.erase, ha, unmarked_cons, isMarker, herase]
      · simp [Attribute.erase, ha, unmarked_cons, isMarker, hne, ih hnodup.2 hrest]

/-- Attributes can be unmarked before they are scoped or after. -/
theorem scopeAttributes_unmarked (attributes : List Attribute) :
    scopeAttributes (unmarked attributes) = unmarked (scopeAttributes attributes) := by
  unfold scopeAttributes
  rw [get?_unmarked class_ne_childMarker class_ne_socketMarker]
  split
  · next value h =>
    exact set_unmarked class_ne_childMarker class_ne_socketMarker _ (by simp [Attribute.has, h])
  · rfl
/-! ## Forests -/

mutual

/-- A node can be unmarked before it is scoped or after. -/
theorem Node.scope_unmark (css : Bool) : ∀ n : Node, n.unmark.scope css = (n.scope css).unmark
  | .element tag attributes children => by
      simp only [Node.unmark, Node.scope, scopeAttributes_unmarked,
        Node.scopeAll_unmarkAll _ children]
  | .text _ => rfl
  | .comment _ => rfl

theorem Node.scopeAll_unmarkAll (css : Bool) :
    ∀ ns : List Node, Node.scopeAll css (Node.unmarkAll ns) = Node.unmarkAll (Node.scopeAll css ns)
  | [] => rfl
  | n :: ns => by
      simp only [Node.unmarkAll, Node.scopeAll, Node.scope_unmark css n,
        Node.scopeAll_unmarkAll css ns]

end

theorem scope_unmarkAll (page : List Node) :
    scope (Node.unmarkAll page) = Node.unmarkAll (scope page) :=
  Node.scopeAll_unmarkAll false page
mutual

/-- Nothing is extracted from an unmarked node. -/
theorem ofNode_unmark : ∀ n : Node, Extraction.ofNode n.unmark = .ok (n.unmark, [])
  | .element tag attributes children => by
      have hnone := get?_unmarked_of_marker (Or.inl rfl) attributes
      simp only [Node.unmark, Extraction.ofNode, hnone, ofNodes_unmarkAll children]
  | .text _ => rfl
  | .comment _ => rfl

/-- Without markers nothing is taken out. -/
theorem ofNodes_unmarkAll : ∀ ns : List Node,
    Extraction.ofNodes (Node.unmarkAll ns) = .ok (Node.unmarkAll ns, [])
  | [] => rfl
  | n :: ns => by
      simp only [Node.unmarkAll, Extraction.ofNodes, ofNode_unmark n, ofNodes_unmarkAll ns,
        List.append_nil]

end

/-- An unmarked page is decomposed into what clean-up leaves of it. -/
theorem decompose_unmarkAll (page : List Node) :
    decompose (scope (Node.unmarkAll page)) =
      .ok (cleanUp (Node.unmarkAll (scope page)), []) := by
  rw [scope_unmarkAll, decompose, ofNodes_unmarkAll]

end Markup

namespace Template

/-- Unmarking changes no text. -/
theorem directText_unmarkAll (ns : List Markup.Node) :
    directText (Node.unmarkAll ns) = directText ns := by
  induction ns with
  | nil => rfl
  | cons n ns ih => cases n <;> simp [Node.unmarkAll, Node.unmark, directText, ih]

theorem has_unmarked {name : Text} (hchild : name ≠ childMarker) (hsocket : name ≠ socketMarker)
    (attributes : List Attribute) :
    Attribute.has name (Markup.unmarked attributes) = Attribute.has name attributes := by
  simp only [Attribute.has, Markup.get?_unmarked hchild hsocket]
theorem ignoreMarker_ne : ignoreMarker ≠ childMarker ∧ ignoreMarker ≠ socketMarker := by decide

theorem emptyMarker_ne : emptyMarker ≠ childMarker ∧ emptyMarker ≠ socketMarker := by decide

end Template

end Viewloom
