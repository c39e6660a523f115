import Viewloom.Extraction
import Viewloom.Markup.Scope

/-!
# Markers of a page

Scoping keeps the child markers of a page, and each extraction uses up one of them, so an extracted
child has fewer markers than its page.
-/

namespace Viewloom

namespace Markup

/-- The number of child markers among attributes. -/
def markersOf (attributes : List Attribute) : Nat :=
  attributes.countP fun a => a.name == childMarker

mutual

/-- The number of markers in a node, on its own tag and below it. -/
def Node.markers : Node → Nat
  | .element _ attributes children => markersOf attributes + markersAll children
  | _ => 0

/-- The number of child markers in a forest. -/
def Node.markersAll : List Node → Nat
  | [] => 0
  | n :: ns => n.markers + markersAll ns

end

/-- Setting an attribute that is there changes no marker. -/
theorem markersOf_set (name value : Text) (attributes : List Attribute)
    (h : Attribute.has name attributes = true) :
    markersOf (Attribute.set name value attributes) = markersOf attributes := by
  induction attributes with
  | nil => simp [Attribute.has, Attribute.get?] at h
  | cons a as ih =>
    by_cases ha : a.name = name
    · simp [Attribute.set, ha, markersOf, List.countP_cons]
    · have h' : Attribute.has name as = true := by simpa [Attribute.has, Attribute.get?, ha] using h
      have := ih h'
      simp only [markersOf] at this
      simp [Attribute.set, ha, markersOf, List.countP_cons, this]

/-- Scoping attributes changes no marker. -/
@[simp]
theorem markersOf_scopeAttributes (attributes : List Attribute) :
    markersOf (scopeAttributes attributes) = markersOf attributes := by
  unfold scopeAttributes
  split
  · next h => exact markersOf_set _ _ _ (by simp [Attribute.has, h])
  · rfl

mutual

/-- Scoping a node changes no marker. -/
@[simp]
theorem Node.markers_scope (css : Bool) : ∀ n : Node, (n.scope css).markers = n.markers
  | .element _ _ children => by
    simp [Node.scope, Node.markers, Node.markersAll_scopeAll _ children]
  | .text _ => rfl
  | .comment _ => rfl

@[simp]
theorem Node.markersAll_scopeAll (css : Bool) :
    ∀ ns : List Node, Node.markersAll (Node.scopeAll css ns) = Node.markersAll ns
  | [] => rfl
  | n :: ns => by
    simp [Node.scopeAll, Node.markersAll, Node.markers_scope css n, Node.markersAll_scopeAll css ns]

end

/-- Erasing an attribute adds no marker. -/
theorem markersOf_erase_le (name : Text) (attributes : List Attribute) :
    markersOf (Attribute.erase name attributes) ≤ markersOf attributes := by
  induction attributes with
  | nil => simp [Attribute.erase]
  | cons a as ih =>
    simp only [markersOf] at ih
    by_cases ha : a.name = name <;> simp [Attribute.erase, ha, markersOf, List.countP_cons, ih]

/-- Erasing a marker takes one away. -/
theorem markersOf_erase_marker {attributes : List Attribute}
    (h : Attribute.has childMarker attributes = true) :
    markersOf (Attribute.erase childMarker attributes) < markersOf attributes := by
  induction attributes with
  | nil => simp [Attribute.has, Attribute.get?] at h
  | cons a as ih =>
    by_cases ha : a.name = childMarker
    · simp [Attribute.erase, ha, markersOf]
    · have h' : Attribute.has childMarker as = true := by
        simpa [Attribute.has, Attribute.get?, ha] using h
      have := ih h'
      simp only [markersOf] at this
      simp [Attribute.erase, ha, markersOf, this]

end Markup

namespace Extraction

open Markup (Node)

/-- The number of markers that are left in an extracted element. -/
def markers (e : Extraction) : Nat := e.element.toNode.markers

def markersAll : List Extraction → Nat
  | [] => 0
  | e :: es => e.markers + markersAll es

theorem markersAll_append (es fs : List Extraction) :
    markersAll (es ++ fs) = markersAll es + markersAll fs := by
  induction es with
  | nil => simp [markersAll]
  | cons e es ih => simp [markersAll, ih, Nat.add_assoc]

mutual

/-- Extraction leaves fewer markers in the extracted nodes than it found, one fewer for each of
them. -/
theorem markers_ofNode : ∀ {n m : Node} {es : List Extraction},
    ofNode n = .ok (m, es) → markersAll es + es.length ≤ n.markers
  | .element tag attributes children, m, es, h => by
    simp only [ofNode] at h
    split at h
    · next label hlabel =>
      split at h
      · simp only [Except.ok.injEq, Prod.mk.injEq] at h
        obtain ⟨-, rfl⟩ := h
        have hmarked : Attribute.has childMarker attributes = true := by
          simp [Attribute.has, hlabel]
        have h₁ := Markup.markersOf_erase_marker hmarked
        have h₂ := Markup.markersOf_erase_le socketMarker (Attribute.erase childMarker attributes)
        simp only [markersAll, markers, Markup.Element.toNode, Node.markers, List.length_cons,
          List.length_nil]
        omega
      · simp at h
    · split at h
      · next children' es' hchildren =>
        simp only [Except.ok.injEq, Prod.mk.injEq] at h
        obtain ⟨-, rfl⟩ := h
        have := markers_ofNodes hchildren
        simp only [Node.markers]
        omega
      · simp at h
  | .text _, m, es, h => by
    simp only [ofNode, Except.ok.injEq, Prod.mk.injEq] at h
    obtain ⟨-, rfl⟩ := h
    simp [markersAll]
  | .comment _, m, es, h => by
    simp only [ofNode, Except.ok.injEq, Prod.mk.injEq] at h
    obtain ⟨-, rfl⟩ := h
    simp [markersAll]

theorem markers_ofNodes : ∀ {ns ms : List Node} {es : List Extraction},
    ofNodes ns = .ok (ms, es) → markersAll es + es.length ≤ Node.markersAll ns
  | [], ms, es, h => by
    simp only [ofNodes, Except.ok.injEq, Prod.mk.injEq] at h
    obtain ⟨-, rfl⟩ := h
    simp [markersAll]
  | n :: ns, ms, es, h => by
    simp only [ofNodes] at h
    split at h
    · simp at h
    · next m es₁ hn =>
      split at h
      · simp at h
      · next ms' es₂ hns =>
        simp only [Except.ok.injEq, Prod.mk.injEq] at h
        obtain ⟨-, rfl⟩ := h
        have h₁ := markers_ofNode hn
        have h₂ := markers_ofNodes hns
        simp only [markersAll_append, List.length_append, Node.markersAll]
        omega

end

/-- Each extraction uses up a marker of the page. -/
theorem markers_decompose {ns ms : List Node} {es : List Extraction}
    (h : Markup.decompose ns = .ok (ms, es)) :
    markersAll es + es.length ≤ Node.markersAll ns := by
  simp only [Markup.decompose] at h
  split at h
  · next hns =>
    simp only [Except.ok.injEq, Prod.mk.injEq] at h
    obtain ⟨-, rfl⟩ := h
    exact markers_ofNodes hns
  · simp at h

end Extraction

end Viewloom
