import Viewloom.Proofs.Scoping.Idempotence
import Viewloom.Template.Conversion

/-!
# What extraction and clean-up leave

Extraction and clean-up go through a forest node by node. Both change elements only, so the texts of
an element stay.
-/

namespace Viewloom

namespace Attribute

/-- Dropping an attribute leaves the others as they are. -/
theorem get?_erase_of_ne {name name' : Text} (h : name' ≠ name) (attributes : List Attribute) :
    get? name (erase name' attributes) = get? name attributes := by
  induction attributes with
  | nil => rfl
  | cons a as ih =>
      by_cases ha : a.name = name'
      · simp [erase, get?, ha, h]
      · simp [erase, get?, ha, ih]

/-- Setting an attribute leaves the others as they are. -/
theorem get?_set_of_ne {name name' : Text} (h : name' ≠ name) (value : Text)
    (attributes : List Attribute) :
    get? name (set name' value attributes) = get? name attributes := by
  induction attributes with
  | nil => simp [set, get?, h]
  | cons a as ih =>
      by_cases ha : a.name = name'
      · simp [set, get?, ha, h]
      · simp [set, get?, ha, ih]

theorem erase_set_of_ne {name name' : Text} (h : name' ≠ name) (value : Text)
    (attributes : List Attribute) :
    erase name (set name' value attributes) = set name' value (erase name attributes) := by
  induction attributes with
  | nil => simp [set, erase, h]
  | cons a as ih =>
      by_cases ha : a.name = name'
      · simp [set, erase, ha, h]
      · by_cases hb : a.name = name
        · simp [set, erase, hb, h.symm]
        · simp [set, erase, ha, hb, ih]

end Attribute

open Markup (Node)

/-! ## Extraction -/

namespace Extraction

theorem ofNode_text {value : Text} {m : Node} {es : List Extraction}
    (h : ofNode (.text value) = .ok (m, es)) : m = .text value ∧ es = [] := by
  simpa only [ofNode, Except.ok.injEq, Prod.mk.injEq, eq_comm] using h

theorem ofNode_comment {value : Text} {m : Node} {es : List Extraction}
    (h : ofNode (.comment value) = .ok (m, es)) : m = .comment value ∧ es = [] := by
  simpa only [ofNode, Except.ok.injEq, Prod.mk.injEq, eq_comm] using h

theorem ofNodes_nil {ms : List Node} {es : List Extraction} (h : ofNodes [] = .ok (ms, es)) :
    ms = [] ∧ es = [] := by
  simpa only [ofNodes, Except.ok.injEq, Prod.mk.injEq, eq_comm] using h

/-- Nodes are extracted one by one, each with the extractions of its own. -/
theorem ofNodes_cons {n : Node} {ns ms : List Node} {es : List Extraction}
    (h : ofNodes (n :: ns) = .ok (ms, es)) :
    ∃ m ms' es₁ es₂, ofNode n = .ok (m, es₁) ∧ ofNodes ns = .ok (ms', es₂) ∧
      ms = m :: ms' ∧ es = es₁ ++ es₂ := by
  simp only [ofNodes] at h
  split at h
  · simp at h
  · next m es₁ hn =>
    split at h
    · simp at h
    · next ms' es₂ hns =>
      simp only [Except.ok.injEq, Prod.mk.injEq] at h
      exact ⟨m, ms', es₁, es₂, hn, hns, h.1.symm, h.2.symm⟩

/-- A marked element is replaced, and its content is not looked at. -/
theorem ofNode_element {tag : Text} {attributes : List Attribute} {children : List Node} {m : Node}
    {es : List Extraction} (h : ofNode (.element tag attributes children) = .ok (m, es)) :
    (∃ label names, Attribute.get? childMarker attributes = some label ∧
      Names.ofLabel label = .ok names ∧ m = placeholder names attributes ∧
      es = [⟨label, names, ⟨tag,
        Attribute.erase socketMarker (Attribute.erase childMarker attributes), children⟩⟩]) ∨
    (Attribute.get? childMarker attributes = none ∧
      ∃ ms, ofNodes children = .ok (ms, es) ∧ m = .element tag attributes ms) := by
  simp only [ofNode] at h
  split at h
  · next label hlabel =>
    split at h
    · next names hnames =>
      simp only [Except.ok.injEq, Prod.mk.injEq] at h
      exact Or.inl ⟨label, names, hlabel, hnames, h.1.symm, h.2.symm⟩
    · simp at h
  · next hnone =>
    split at h
    · next ms es' hms =>
      simp only [Except.ok.injEq, Prod.mk.injEq] at h
      exact Or.inr ⟨hnone, ms, h.2 ▸ hms, h.1.symm⟩
    · simp at h

end Extraction

/-! ## Clean-up -/

namespace Markup

theorem Node.pruneAll_append (drop : Text → List Attribute → Bool) (ns ms : List Node) :
    Node.pruneAll drop (ns ++ ms) = Node.pruneAll drop ns ++ Node.pruneAll drop ms := by
  induction ns with
  | nil => rfl
  | cons n ns ih => simp [Node.pruneAll, ih]

theorem Node.clearEmptyAll_append (ns ms : List Node) :
    Node.clearEmptyAll (ns ++ ms) = Node.clearEmptyAll ns ++ Node.clearEmptyAll ms := by
  induction ns with
  | nil => rfl
  | cons n ns ih => simp [Node.clearEmptyAll, ih]

@[simp]
theorem cleanUp_nil : cleanUp [] = [] := rfl

/-- Cleaning up treats every node for itself. -/
theorem cleanUp_append (ns ms : List Node) : cleanUp (ns ++ ms) = cleanUp ns ++ cleanUp ms := by
  simp [cleanUp, Node.pruneAll_append, Node.clearEmptyAll_append]

theorem cleanUp_cons (n : Node) (ns : List Node) : cleanUp (n :: ns) = cleanUp [n] ++ cleanUp ns :=
  cleanUp_append [n] ns

@[simp]
theorem cleanUp_text (value : Text) : cleanUp [.text value] = [.text value] := rfl

@[simp]
theorem cleanUp_comment (value : Text) : cleanUp [.comment value] = [.comment value] := rfl

/-- Ignored elements and scripts go, an emptied element stays without content, and any other one
keeps its clean content. -/
theorem cleanUp_element (tag : Text) (attributes : List Attribute) (children : List Node) :
    cleanUp [.element tag attributes children] =
      if Attribute.has ignoreMarker attributes = true ∨ tag = text "script" then []
      else if Attribute.has emptyMarker attributes = true then
        [.element tag (Attribute.erase emptyMarker attributes) []]
      else [.element tag attributes (cleanUp children)] := by
  by_cases hignore : Attribute.has ignoreMarker attributes = true
  · simp [cleanUp, Node.pruneAll, Node.prune, Node.clearEmptyAll, hignore]
  by_cases hscript : tag = text "script"
  · by_cases hempty : Attribute.has emptyMarker attributes = true <;>
      simp [cleanUp, Node.pruneAll, Node.prune, Node.clearEmptyAll, Node.clearEmpty, hignore,
        hscript, hempty]
  by_cases hempty : Attribute.has emptyMarker attributes = true <;>
    simp [cleanUp, Node.pruneAll, Node.prune, Node.clearEmptyAll, Node.clearEmpty, hignore,
      hscript, hempty]

/-- Clean-up leaves placeholders alone. -/
theorem cleanUp_placeholder (n : Names) (attributes : List Attribute) :
    cleanUp [Extraction.placeholder n attributes] = [Extraction.placeholder n attributes] := by
  have htag : Extraction.placeholderTag n.elementTag ≠ text "script" := by
    have hstart : text "af-" = ['a', 'f', '-'] := by decide
    have hscript : text "script" = ['s', 'c', 'r', 'i', 'p', 't'] := by decide
    rw [Extraction.placeholderTag, hstart, hscript]
    simp
  have hignore : socketMarker ≠ ignoreMarker := by decide
  have hempty : socketMarker ≠ emptyMarker := by decide
  rw [Extraction.placeholder, cleanUp_element, if_neg, if_neg, cleanUp_nil]
  · cases Attribute.get? socketMarker attributes <;> simp [Attribute.has, Attribute.get?, hempty]
  · rw [not_or]
    refine ⟨?_, htag⟩
    cases Attribute.get? socketMarker attributes <;> simp [Attribute.has, Attribute.get?, hignore]

end Markup

/-! ## Texts -/

namespace Template

theorem directText_append (ns ms : List Markup.Node) :
    directText (ns ++ ms) = directText ns ++ directText ms := by
  induction ns with
  | nil => rfl
  | cons n ns ih => cases n <;> simp [directText, ih]

/-- Cleaning up does not touch texts. -/
theorem directText_cleanUp (ns : List Markup.Node) : directText (Markup.cleanUp ns) = directText ns := by
  induction ns with
  | nil => rfl
  | cons n ns ih =>
      rw [Markup.cleanUp_cons, directText_append, ih]
      cases n with
      | element tag attributes children =>
          rw [Markup.cleanUp_element]
          split
          · simp [directText]
          · split <;> simp [directText]
      | text value => simp [directText]
      | comment value => simp [directText]

/-- Extraction does not touch texts. -/
theorem directText_ofNodes {ns ms : List Markup.Node} {es : List Extraction}
    (h : Extraction.ofNodes ns = .ok (ms, es)) : directText ms = directText ns := by
  induction ns generalizing ms es with
  | nil =>
      obtain ⟨rfl, rfl⟩ := Extraction.ofNodes_nil h
      rfl
  | cons n ns ih =>
      obtain ⟨m, ms', es₁, es₂, hn, hns, rfl, rfl⟩ := Extraction.ofNodes_cons h
      cases n with
      | element tag attributes children =>
          rcases Extraction.ofNode_element hn with ⟨_, _, _, _, rfl, _⟩ | ⟨_, _, _, rfl⟩
          · simp [Extraction.placeholder, directText, ih hns]
          · simp [directText, ih hns]
      | text value =>
          obtain ⟨rfl, rfl⟩ := Extraction.ofNode_text hn
          simp [directText, ih hns]
      | comment value =>
          obtain ⟨rfl, rfl⟩ := Extraction.ofNode_comment hn
          simp [directText, ih hns]

/-- Marking sockets does not touch texts. -/
theorem directText_tagSocketsAll (ns : List Markup.Node) :
    directText (Markup.Node.tagSocketsAll ns).1 = directText ns := by
  induction ns with
  | nil => rfl
  | cons n ns ih =>
      cases n with
      | element tag attributes children =>
          simp only [Markup.Node.tagSocketsAll, Markup.Node.tagSockets]
          split <;> simp [directText, ih]
      | text value => simp [Markup.Node.tagSocketsAll, Markup.Node.tagSockets, directText, ih]
      | comment value => simp [Markup.Node.tagSocketsAll, Markup.Node.tagSockets, directText, ih]

end Template

/-! ## Scoping -/

namespace Markup

/-- Scoping and erasing do not meet, unless the class itself is erased. -/
theorem scopeAttributes_erase {name : Text} (h : text "class" ≠ name)
    (attributes : List Attribute) :
    scopeAttributes (Attribute.erase name attributes) =
      Attribute.erase name (scopeAttributes attributes) := by
  unfold scopeAttributes
  rw [Attribute.get?_erase_of_ne h.symm]
  split
  · rw [Attribute.erase_set_of_ne h]
  · rfl

/-- Scoping changes the class attribute only. -/
theorem get?_scopeAttributes {name : Text} (h : text "class" ≠ name)
    (attributes : List Attribute) :
    Attribute.get? name (scopeAttributes attributes) = Attribute.get? name attributes := by
  unfold scopeAttributes
  split
  · exact Attribute.get?_set_of_ne h _ _
  · rfl

theorem class_ne_childMarker : text "class" ≠ childMarker := by decide

theorem class_ne_socketMarker : text "class" ≠ socketMarker := by decide

mutual

/-- What is taken out of a scoped page is scoped. -/
theorem scope_of_mem_ofNode {css : Bool} : ∀ {n m : Node} {es : List Extraction},
    n.scope css = n → Extraction.ofNode n = .ok (m, es) →
      ∀ e ∈ es, scope [e.element.toNode] = [e.element.toNode]
  | .element tag attributes children, m, es, hscope, h, e, he => by
      simp only [Node.scope, Node.element.injEq, true_and] at hscope
      rcases Extraction.ofNode_element h with ⟨_, _, _, _, _, rfl⟩ | ⟨_, ms, hms, _⟩
      · simp only [List.mem_singleton] at he
        subst he
        simp [scope, Node.scopeAll, Node.scope, Element.toNode,
          scopeAttributes_erase class_ne_childMarker, scopeAttributes_erase class_ne_socketMarker,
          hscope.1, hscope.2]
      · exact scope_of_mem_ofNodes hscope.2 hms e he
  | .text value, m, es, _, h, e, he => by
      obtain ⟨rfl, rfl⟩ := Extraction.ofNode_text h
      cases he
  | .comment value, m, es, _, h, e, he => by
      obtain ⟨rfl, rfl⟩ := Extraction.ofNode_comment h
      cases he

/-- The elements that are taken out of a scoped page are scoped themselves. -/
theorem scope_of_mem_ofNodes {css : Bool} : ∀ {ns ms : List Node} {es : List Extraction},
    Node.scopeAll css ns = ns → Extraction.ofNodes ns = .ok (ms, es) →
      ∀ e ∈ es, scope [e.element.toNode] = [e.element.toNode]
  | [], ms, es, _, h, e, he => by
      obtain ⟨rfl, rfl⟩ := Extraction.ofNodes_nil h
      cases he
  | n :: ns, ms, es, hscope, h, e, he => by
      simp only [Node.scopeAll, List.cons.injEq] at hscope
      obtain ⟨m, ms', es₁, es₂, hn, hns, rfl, rfl⟩ := Extraction.ofNodes_cons h
      rcases List.mem_append.1 he with he | he
      · exact scope_of_mem_ofNode hscope.1 hn e he
      · exact scope_of_mem_ofNodes hscope.2 hns e he

end

end Markup

end Viewloom
