import Mathlib.Data.List.Nodup
import Viewloom.Proofs.Extraction
import Viewloom.Proofs.Tags

/-!
# Markup as a bound template

Tagging, conversion and both bindings go through a forest node by node. One equation tells what they
make of an element.
-/

namespace Viewloom

namespace Markup

theorem tagSocketsAll_append (ns ms : List Node) :
    (Node.tagSocketsAll (ns ++ ms)).2 =
      (Node.tagSocketsAll ns).2 ++ (Node.tagSocketsAll ms).2 := by
  induction ns with
  | nil => rfl
  | cons n ns ih => simp [Node.tagSocketsAll, ih]

/-- The sockets of an element are its own and then those of its content. -/
theorem sockets_element (tag : Text) (attributes : List Attribute) (children : List Node) :
    (Node.tagSocketsAll [.element tag attributes children]).2 =
      (Attribute.get? socketMarker attributes).toList ++ (Node.tagSocketsAll children).2 := by
  simp only [Node.tagSocketsAll, Node.tagSockets]
  cases Attribute.get? socketMarker attributes <;> simp

end Markup

namespace Template

open Markup (tagSockets)

/-- The bound template of what a page keeps. -/
def bound (names : List Names) (rest : List Markup.Node) : List Node :=
  (bind names (ofMarkup (tagSockets rest).1)).1

/-- The tag of an element, with its socket name if it has one. -/
def writtenTag (tag : Text) (attributes : List Attribute) : Text :=
  match Attribute.get? socketMarker attributes with
  | some socket => socketTag tag socket
  | none => tag

/-- The properties of an element, those for its content last. -/
def propertiesOf (tag : Text) (attributes : List Attribute) (children : List Markup.Node) :
    List Property :=
  attributes.map (Property.ofAttribute tag) ++ (contentProperties tag children).getD []

/-- Whether the content of an element becomes a property. -/
def holdsText (tag : Text) : Bool := tag == text "style" || tag == text "textarea"

/-- The node for a written tag. -/
def Node.make (names : List Names) (written : Text) (properties : List Property)
    (children : List Node) : Node :=
  match componentTag? names written with
  | some reference => (bindTag true reference properties children).1
  | none => (bindTag false written properties children).1

/-- Only elements whose content is a text have it as a property. -/
theorem isSome_contentProperties (tag : Text) (children : List Markup.Node) :
    (contentProperties tag children).isSome = holdsText tag := by
  unfold contentProperties holdsText
  split
  · next h => simp [h]
  · next h₁ =>
    split
    · next h₂ => simp [h₂]
    · next h₂ => simp [h₁, h₂]

theorem contentProperties_congr {ns ms : List Markup.Node} (h : directText ns = directText ms)
    (tag : Text) : contentProperties tag ns = contentProperties tag ms := by
  simp only [contentProperties, h]

theorem propertiesOf_congr {ns ms : List Markup.Node} (h : directText ns = directText ms)
    (tag : Text) (attributes : List Attribute) :
    propertiesOf tag attributes ns = propertiesOf tag attributes ms := by
  simp only [propertiesOf, contentProperties_congr h]

/-! ## Node by node -/

theorem ofMarkup_append (ns ms : List Markup.Node) :
    ofMarkup (ns ++ ms) = ofMarkup ns ++ ofMarkup ms := by
  induction ns with
  | nil => simp [ofMarkup]
  | cons n ns ih => simp [ofMarkup, ih]

theorem bindChildrenAll_append (names : List Names) (ns ms : List Node) :
    Node.bindChildrenAll names (ns ++ ms) =
      Node.bindChildrenAll names ns ++ Node.bindChildrenAll names ms := by
  induction ns with
  | nil => rfl
  | cons n ns ih => simp [Node.bindChildrenAll, ih]

theorem bindSocketsAll_append (ns ms : List Node) :
    (Node.bindSocketsAll (ns ++ ms)).1 =
      (Node.bindSocketsAll ns).1 ++ (Node.bindSocketsAll ms).1 := by
  induction ns with
  | nil => rfl
  | cons n ns ih => simp [Node.bindSocketsAll, ih]

theorem bind_nil (names : List Names) : (bind names []).1 = [] := rfl

/-- What is bound of some nodes does not depend on those beside them. -/
theorem bind_append (names : List Names) (ns ms : List Node) :
    (bind names (ns ++ ms)).1 = (bind names ns).1 ++ (bind names ms).1 := by
  simp [bind, bindChildrenAll_append, bindSocketsAll_append]

@[simp]
theorem bound_nil (names : List Names) : bound names [] = [] := by
  simp [bound, tagSockets, Markup.Node.tagSocketsAll, ofMarkup, bind, Node.bindChildrenAll,
    Node.bindSocketsAll]

theorem bound_cons (names : List Names) (n : Markup.Node) (ns : List Markup.Node) :
    bound names (n :: ns) = bound names [n] ++ bound names ns := by
  simp only [bound, tagSockets, Markup.Node.tagSocketsAll]
  rw [← List.singleton_append, ofMarkup_append, bind_append]

/-- What a template has for some nodes does not depend on those beside them. -/
theorem bound_append (names : List Names) (ns ms : List Markup.Node) :
    bound names (ns ++ ms) = bound names ns ++ bound names ms := by
  induction ns with
  | nil => simp
  | cons n ns ih => rw [List.cons_append, bound_cons, ih, bound_cons names n ns, List.append_assoc]

/-- A text of a template is a text of the page, unless it only lays out the page. -/
theorem bound_text (names : List Names) (value : Text) :
    bound names [.text value] = if isLayout value then [] else [.text value] := by
  simp only [bound, tagSockets, Markup.Node.tagSocketsAll, Markup.Node.tagSockets, ofMarkup,
    ofMarkupNode]
  split <;> rfl

theorem bound_comment (names : List Names) (value : Text) :
    bound names [.comment value] = [.comment (Text.trim value)] := by
  simp [bound, tagSockets, Markup.Node.tagSocketsAll, Markup.Node.tagSockets, ofMarkup,
    ofMarkupNode, bind, Node.bindChildrenAll, Node.bindChildren, Node.bindSocketsAll,
    Node.bindSockets]

/-- A tagged element has its socket in its tag, and no marker any more. -/
theorem tagSockets_element (tag : Text) (attributes : List Attribute)
    (children : List Markup.Node) :
    (Markup.Node.element tag attributes children).tagSockets.1 =
      .element (writtenTag tag attributes) (Attribute.erase socketMarker attributes)
        (tagSockets children).1 := by
  simp only [Markup.Node.tagSockets, writtenTag, tagSockets]
  cases h : Attribute.get? socketMarker attributes with
  | some socket => rfl
  | none => rw [Attribute.erase_of_get?_eq_none h]

/-- An element is bound by its tag, and its content for itself. -/
theorem bind_element (names : List Names) (written : Text) (properties : List Property)
    (children : List Node) :
    (bind names [.element written properties children]).1 =
      [Node.make names written properties (bind names children).1] := by
  simp only [bind, Node.bindChildrenAll, Node.bindChildren, Node.make]
  cases componentTag? names written with
  | some reference => simp [Node.bindSocketsAll, Node.bindSockets]
  | none => simp [Node.bindSocketsAll, Node.bindSockets]

/-- What becomes of an element. -/
theorem bound_element (names : List Names) (tag : Text) (attributes : List Attribute)
    (children : List Markup.Node) :
    bound names [.element tag attributes children] =
      [Node.make names (writtenTag tag attributes)
        (propertiesOf (baseTag (writtenTag tag attributes))
          (Attribute.erase socketMarker attributes) children)
        (if holdsText (baseTag (writtenTag tag attributes)) then [] else bound names children)] := by
  have htext : directText (tagSockets children).1 = directText children :=
    directText_tagSocketsAll children
  simp only [bound, tagSockets, Markup.Node.tagSocketsAll, tagSockets_element, ofMarkup,
    ofMarkupNode, propertiesOf]
  rw [← isSome_contentProperties _ children]
  simp only [tagSockets] at htext
  rw [contentProperties_congr htext]
  cases contentProperties (baseTag (writtenTag tag attributes)) children with
  | some more => simp [bind_element, bind_nil]
  | none => simp [bind_element]

/-! ## Placeholders -/

variable {names : List Names}

/-- A tag that does not begin like a placeholder is none. -/
theorem classOf?_eq_none {tag : Text} (h : ¬ text "af-" <+: tag) : classOf? names tag = none := by
  simp only [classOf?, Option.map_eq_none_iff, List.find?_eq_none, beq_iff_eq]
  rintro n - rfl
  exact h (List.prefix_append ..)

/-- A placeholder stands for the child view of its tag. -/
theorem classOf?_placeholderTag {n : Names} (hn : n ∈ names)
    (hnodup : (names.map Names.elementTag).Nodup) :
    classOf? names (Extraction.placeholderTag n.elementTag) = some n.className := by
  unfold classOf?
  cases hfind : names.reverse.find? fun names =>
      Extraction.placeholderTag names.elementTag == Extraction.placeholderTag n.elementTag with
  | none =>
      have := List.find?_eq_none.1 hfind n (List.mem_reverse.2 hn)
      simp at this
  | some m =>
      have htag : m.elementTag = n.elementTag :=
        placeholderTag_injective (by simpa using List.find?_some hfind)
      have hm : m ∈ names := List.mem_reverse.1 (List.mem_of_find?_eq_some hfind)
      rw [List.inj_on_of_nodup_map hnodup hm hn htag]
      rfl

/-- The class that a placeholder stands for is that of a child view with its tag. -/
theorem mem_of_classOf? {tag className : Text} (h : classOf? names tag = some className) :
    ∃ n ∈ names, n.className = className ∧ tag = Extraction.placeholderTag n.elementTag := by
  obtain ⟨n, hfind, hclass⟩ := Option.map_eq_some_iff.1 h
  refine ⟨n, List.mem_reverse.1 (List.mem_of_find?_eq_some hfind), hclass, ?_⟩
  have := List.find?_some hfind
  simp only [beq_iff_eq] at this
  exact this.symm

/-- What a tag stands for: a child view, if it is the tag of a placeholder, or else itself. -/
def resolve (names : List Names) (tag : Text) : Text :=
  ((classOf? names tag).map controllerRef).getD tag

/-- No reference to a child view of a label holds the mark of a socket. -/
theorem refs_of_labels {names : List Names} (h : ∀ n ∈ names, ∃ l, Names.ofLabel l = .ok n) :
    ∀ n ∈ names, ¬ openMark <:+: controllerRef n.className := by
  intro n hn
  obtain ⟨l, hl⟩ := h n hn
  exact not_openMark_infix_controllerRef hl

/-- A child view is never the tag of a placeholder. -/
theorem controllerRef_ne_placeholderTag {label : Text} {n : Names}
    (h : Names.ofLabel label = .ok n) (tag : Text) :
    controllerRef n.className ≠ Extraction.placeholderTag tag := by
  intro heq
  have hmem : '-' ∈ controllerRef n.className := by
    have hstart : text "af-" = ['a', 'f', '-'] := by decide
    rw [heq, Extraction.placeholderTag, hstart]
    simp
  rw [controllerRef, List.mem_append] at hmem
  rcases hmem with hc | hc
  · exact Names.hyphen_not_mem_className h hc
  · exact absurd hc (by decide)

/-- A tag stays as it is exactly if it is no placeholder. -/
theorem resolve_eq_self_iff {names : List Names} (hlabels : ∀ n ∈ names, ∃ l, Names.ofLabel l = .ok n)
    {tag : Text} : resolve names tag = tag ↔ classOf? names tag = none := by
  unfold resolve
  cases hclass : classOf? names tag with
  | none => simp
  | some className =>
      obtain ⟨n, hn, rfl, rfl⟩ := mem_of_classOf? hclass
      obtain ⟨l, hl⟩ := hlabels n hn
      simp [controllerRef_ne_placeholderTag hl]

/-- The placeholder of a child view becomes the reference to its controller, if no other child has
its tag. -/
theorem resolve_placeholderTag {names : List Names} {n : Names} (hn : n ∈ names)
    (hnodup : (names.map Names.elementTag).Nodup) :
    resolve names (Extraction.placeholderTag n.elementTag) = controllerRef n.className := by
  simp [resolve, classOf?_placeholderTag hn hnodup]

/-- A node is a socket if its written tag holds a mark, and its tag is resolved in front of it. -/
theorem make_eq {names : List Names}
    (hrefs : ∀ n ∈ names, ¬ openMark <:+: controllerRef n.className) (written : Text)
    (properties : List Property) (children : List Node) :
    Node.make names written properties children =
      match splitSocketTag written with
      | some (base, socket) =>
        .socket socket ⟨resolve names base, properties, (classOf? names base).isSome⟩ []
          (contentOf children)
      | none =>
        if (classOf? names written).isSome then
          .component (resolve names written) properties children
        else .element (resolve names written) properties children := by
  unfold Node.make componentTag? resolve
  cases hsplit : splitSocketTag written with
  | none =>
      cases hclass : classOf? names written with
      | none => simp [bindTag, hsplit]
      | some className =>
          obtain ⟨n, hn, rfl, -⟩ := mem_of_classOf? hclass
          have hsplit' := splitSocketTag_eq_none (hrefs n hn)
          simp [bindTag, hsplit']
  | some pair =>
      obtain ⟨base, socket⟩ := pair
      cases hclass : classOf? names base with
      | none => simp [bindTag, hsplit, hclass]
      | some className =>
          obtain ⟨n, hn, rfl, -⟩ := mem_of_classOf? hclass
          have hsplit' := splitSocketTag_socketTag (hrefs n hn) socket
          simp [bindTag, hsplit', hclass]

/-! ## Sockets -/

theorem hasSocketAny_append (ns ms : List Node) :
    Node.hasSocketAny (ns ++ ms) = (Node.hasSocketAny ns || Node.hasSocketAny ms) := by
  induction ns with
  | nil => rfl
  | cons n ns ih => simp [Node.hasSocketAny, ih, Bool.or_assoc]

end Template

end Viewloom
