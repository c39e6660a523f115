import Viewloom.Proofs.Forest
import Viewloom.Proofs.Pages

/-!
# Child views stand on their own

A child view is what its element compiles to on its own, as the element was written. The views around
it have scoped it before, but scoping stays within an element, and a second run changes nothing.
-/

namespace Viewloom

open Markup (Node)

/-- A marked element of a page, without its own markers. -/
structure Marked where
  label : Text
  element : Markup.Element
  deriving DecidableEq

/-- The view of a marked element on its own. -/
def Marked.compile (m : Marked) : Except Error View :=
  match Names.ofLabel m.label with
  | .error e => .error e
  | .ok names => View.ofPage m.label names [m.element.toNode]

namespace Markup

mutual

/-- The outermost marked elements of a node, in the order of the page. -/
def Node.outermost : Node → List Marked
  | .element tag attributes children =>
    match Attribute.get? childMarker attributes with
    | some label => [⟨label, ⟨tag, unmarked attributes, children⟩⟩]
    | none => outermostAll children
  | _ => []

def Node.outermostAll : List Node → List Marked
  | [] => []
  | n :: ns => n.outermost ++ outermostAll ns

end

mutual

/-- All marked elements of a node in pre-order. -/
def Node.marked : Node → List Marked
  | .element tag attributes children =>
    ((Attribute.get? childMarker attributes).map fun label =>
      Marked.mk label ⟨tag, unmarked attributes, children⟩).toList ++ markedAll children
  | _ => []

def Node.markedAll : List Node → List Marked
  | [] => []
  | n :: ns => n.marked ++ markedAll ns

end

mutual

/-- The marked elements are the outermost ones and those within them. -/
theorem Node.marked_eq : ∀ n : Node,
    n.marked = n.outermost.flatMap fun m => m :: Node.markedAll m.element.children
  | .element tag attributes children => by
      cases h : Attribute.get? childMarker attributes with
      | none => simpa [Node.marked, Node.outermost, h] using Node.markedAll_eq children
      | some label => simp [Node.marked, Node.outermost, h]
  | .text _ => rfl
  | .comment _ => rfl

/-- Every marked element is an outermost one or stands in one. -/
theorem Node.markedAll_eq : ∀ ns : List Node,
    Node.markedAll ns =
      (Node.outermostAll ns).flatMap fun m => m :: Node.markedAll m.element.children
  | [] => rfl
  | n :: ns => by
      simp [Node.markedAll, Node.outermostAll, Node.marked_eq n, Node.markedAll_eq ns]

end

/-- An element whose attributes have different names. -/
def Distinct (_tag : Text) (attributes : List Attribute) : Prop :=
  (attributes.map Attribute.name).Nodup

instance (tag : Text) (attributes : List Attribute) : Decidable (Distinct tag attributes) :=
  inferInstanceAs (Decidable (List.Nodup _))

/-- Extraction drops the two markers that an element of its own has. -/
theorem erase_markers {attributes : List Attribute}
    (h : (attributes.map Attribute.name).Nodup) :
    Attribute.erase socketMarker (Attribute.erase childMarker attributes) = unmarked attributes := by
  rw [erase_socketMarker (h.sublist ((Attribute.erase_sublist ..).map Attribute.name))
    (Attribute.get?_erase_self h), unmarked_erase (Or.inl rfl)]

/-- What is taken out of a scoped page, and the marked element that it was before. -/
structure Extracted (m : Marked) (e : Extraction) : Prop where
  label : e.label = m.label
  names : Names.ofLabel m.label = .ok e.names
  scope : scope [e.element.toNode] = scope [m.element.toNode]

mutual

/-- Each extraction is that of an outermost marked element. -/
theorem extracted_ofNode {css : Bool} : ∀ {n n' : Node} {es : List Extraction},
    n.All Distinct → Extraction.ofNode (n.scope css) = .ok (n', es) →
      List.Forall₂ Extracted n.outermost es
  | .element tag attributes children, n', es, hn, h => by
      have hmarker := get?_scopeAttributes class_ne_childMarker attributes
      rcases Extraction.ofNode_element h with
        ⟨label, names, hlabel, hnames, -, rfl⟩ | ⟨hnone, ms, hms, -⟩
      · rw [hmarker] at hlabel
        simp only [Node.outermost, hlabel]
        refine .cons ⟨rfl, hnames, ?_⟩ .nil
        rw [← scopeAttributes_erase class_ne_childMarker, ← scopeAttributes_erase class_ne_socketMarker,
          erase_markers hn.1]
        simp [scope, Node.scopeAll, Node.scope, Element.toNode]
      · rw [hmarker] at hnone
        simpa only [Node.outermost, hnone] using extracted_ofNodes hn.2 hms
  | .text _, _, _, _, h => by
      obtain ⟨rfl, rfl⟩ := Extraction.ofNode_text h
      exact .nil
  | .comment _, _, _, _, h => by
      obtain ⟨rfl, rfl⟩ := Extraction.ofNode_comment h
      exact .nil

/-- What is taken out of a scoped page are the outermost marked elements of the page itself. -/
theorem extracted_ofNodes {css : Bool} : ∀ {ns ms : List Node} {es : List Extraction},
    Node.AllOf Distinct ns → Extraction.ofNodes (Node.scopeAll css ns) = .ok (ms, es) →
      List.Forall₂ Extracted (Node.outermostAll ns) es
  | [], _, _, _, h => by
      obtain ⟨rfl, rfl⟩ := Extraction.ofNodes_nil h
      exact .nil
  | n :: ns, _, _, hns, h => by
      obtain ⟨m, ms', es₁, es₂, hm, hms, -, rfl⟩ := Extraction.ofNodes_cons h
      exact List.rel_append (extracted_ofNode hns.1 hm) (extracted_ofNodes hns.2 hms)

end

/-- A marked element of a page whose elements are distinct, with fewer markers than the page. -/
structure Inner (markers : Nat) (m : Marked) : Prop where
  distinct : Node.AllOf Distinct [m.element.toNode]
  unmarked : Attribute.get? childMarker m.element.attributes = none
  fewer : Node.markersAll [m.element.toNode] < markers

theorem Inner.mono {k l : Nat} {m : Marked} (h : Inner k m) (hle : k ≤ l) : Inner l m :=
  { h with fewer := Nat.lt_of_lt_of_le h.fewer hle }

mutual

/-- What is within an outermost marked element has fewer markers than the whole. -/
theorem inner_of_mem_outermost : ∀ {n : Node}, n.All Distinct →
    ∀ m ∈ n.outermost, Inner n.markers m
  | .element tag attributes children, hn, m, hm => by
      cases h : Attribute.get? childMarker attributes with
      | none =>
          simp only [Node.outermost, h] at hm
          exact (inner_of_mem_outermostAll hn.2 m hm).mono (Nat.le_add_left _ _)
      | some label =>
          simp only [Node.outermost, h, List.mem_singleton] at hm
          subst hm
          refine ⟨⟨⟨hn.1.sublist (List.filter_sublist.map Attribute.name), hn.2⟩, trivial⟩,
            get?_unmarked_of_marker (Or.inl rfl) attributes, ?_⟩
          have hmarker : Attribute.has childMarker attributes = true := by simp [Attribute.has, h]
          have hchild := markersOf_erase_marker hmarker
          have hsocket := markersOf_erase_le socketMarker (Attribute.erase childMarker attributes)
          rw [erase_markers hn.1] at hsocket
          simp only [Element.toNode, Node.markersAll, Node.markers]
          omega
  | .text _, _, _, hm => by simp [Node.outermost] at hm
  | .comment _, _, _, hm => by simp [Node.outermost] at hm

theorem inner_of_mem_outermostAll : ∀ {ns : List Node}, Node.AllOf Distinct ns →
    ∀ m ∈ Node.outermostAll ns, Inner (Node.markersAll ns) m
  | [], _, m, hm => by simp [Node.outermostAll] at hm
  | n :: ns, hns, m, hm => by
      rcases List.mem_append.1 hm with hm | hm
      · exact (inner_of_mem_outermost hns.1 m hm).mono (Nat.le_add_right _ _)
      · exact (inner_of_mem_outermostAll hns.2 m hm).mono (Nat.le_add_left _ _)

end

/-- Only the content of a marked element holds further ones. -/
theorem Inner.markedAll_toNode {k : Nat} {m : Marked} (h : Inner k m) :
    Node.markedAll [m.element.toNode] = Node.markedAll m.element.children := by
  simp [Node.markedAll, Element.toNode, Node.marked, h.unmarked]

end Markup

namespace View

/-- Pages that are scoped alike compile alike. -/
theorem ofPage_congr {page page' : List Node} (h : Markup.scope page = Markup.scope page')
    (label : Text) (names : Names) : ofPage label names page = ofPage label names page' := by
  rw [ofPage, ofPage, h]

/-- A view that a marked element compiles to on its own. -/
def StandsFor (m : Marked) (v : View) : Prop := m.compile = .ok v

/-- A view that stands for an element is compiled from the element alone. -/
theorem StandsFor.ofPage {m : Marked} {v : View} (h : StandsFor m v) :
    ofPage m.label v.names [m.element.toNode] = .ok v := by
  unfold StandsFor Marked.compile at h
  split at h
  · simp at h
  · rwa [names_ofPage h]

/-- The view of an extraction stands for the element. -/
theorem standsFor_of_extracted {m : Marked} {e : Extraction} {v : View}
    (h : Markup.Extracted m e) (hv : View.ofPage e.label e.names [e.element.toNode] = .ok v) :
    StandsFor m v := by
  unfold StandsFor Marked.compile
  rw [h.names]
  dsimp only
  rw [← h.label, ← ofPage_congr h.scope, hv]

/-- The children of a view stand for the outermost marked elements of its page. -/
theorem standsFor_children {label : Text} {names : Names} {page : List Node} {v : View}
    (h : ofPage label names page = .ok v) (hpage : Node.AllOf Markup.Distinct page) :
    List.Forall₂ StandsFor (Node.outermostAll page) v.children := by
  obtain ⟨hdecompose, -, hchildren, -⟩ := ofPage_eq_ok h
  obtain ⟨ms, hms, -⟩ := Markup.decompose_eq_ok hdecompose
  have hcompose : ∀ {marked : List Marked} {es : List Extraction} {vs : List View},
      List.Forall₂ Markup.Extracted marked es →
      List.Forall₂ (fun e v => View.ofPage e.label e.names [e.element.toNode] = .ok v) es vs →
      List.Forall₂ StandsFor marked vs := by
    intro marked es vs hmarked
    induction hmarked generalizing vs with
    | nil => rintro ⟨⟩; exact .nil
    | cons hme _ ih =>
        rintro (_ | ⟨hv, hvs⟩)
        exact .cons (standsFor_of_extracted hme hv) (ih hvs)
  exact hcompose (Markup.extracted_ofNodes hpage hms) hchildren

/-- The views below a view stand for the marked elements of its page, at whatever depth. -/
theorem standsFor_descendants {label : Text} {names : Names} {page : List Node} {v : View}
    (h : ofPage label names page = .ok v) (hpage : Node.AllOf Markup.Distinct page) :
    List.Forall₂ StandsFor (Node.markedAll page) (descendantsAll v.children) := by
  induction hn : Node.markersAll page using Nat.strongRecOn generalizing label names page v with
  | ind n ih =>
      subst hn
      have hinner := Markup.inner_of_mem_outermostAll hpage
      have hchildren := standsFor_children h hpage
      rw [Node.markedAll_eq]
      generalize Node.outermostAll page = marked at hinner hchildren
      generalize v.children = vs at hchildren
      induction hchildren with
      | nil => exact .nil
      | @cons m w _ _ hmw _ ihs =>
          simp only [List.mem_cons, forall_eq_or_imp] at hinner
          obtain ⟨hm, hrest⟩ := hinner
          have hbelow := ih _ hm.fewer hmw.ofPage hm.distinct rfl
          rw [hm.markedAll_toNode] at hbelow
          obtain ⟨label, names, markup, sockets, nodes, template, children⟩ := w
          rw [List.flatMap_cons, descendantsAll, descendants]
          exact List.rel_append (.cons hmw hbelow) (ihs hrest)

/-- A child view does not depend on the page that it was taken from: the views of a page are what its
marked elements compile to on their own, so equal elements give equal views in whatever pages. -/
theorem children_independent {label label' : Text} {names names' : Names}
    {page page' : List Node} {v v' : View} (h : ofPage label names page = .ok v)
    (h' : ofPage label' names' page' = .ok v') (hpage : Node.AllOf Markup.Distinct page)
    (hpage' : Node.AllOf Markup.Distinct page') :
    List.Forall₂ StandsFor (Node.outermostAll page) v.children ∧
      List.Forall₂ StandsFor (Node.markedAll page) (descendantsAll v.children) ∧
        ∀ (i j : Nat) (m : Marked), (Node.markedAll page)[i]? = some m →
          (Node.markedAll page')[j]? = some m →
            ∃ w, (descendantsAll v.children)[i]? = some w ∧
              (descendantsAll v'.children)[j]? = some w := by
  have hbelow := standsFor_descendants h hpage
  have hbelow' := standsFor_descendants h' hpage'
  refine ⟨standsFor_children h hpage, hbelow, fun i j m hi hj => ?_⟩
  have hfound : ∀ {marked : List Marked} {vs : List View} {i : Nat},
      List.Forall₂ StandsFor marked vs → marked[i]? = some m →
        ∃ w, vs[i]? = some w ∧ StandsFor m w := by
    intro marked vs i hvs hm
    induction hvs generalizing i with
    | nil => simp at hm
    | cons hmw _ ihs =>
        cases i with
        | zero =>
            obtain rfl : _ = m := by simpa using hm
            exact ⟨_, rfl, hmw⟩
        | succ i => exact ihs (by simpa using hm)
  obtain ⟨w, hw, hmw⟩ := hfound hbelow hi
  obtain ⟨w', hw', hmw'⟩ := hfound hbelow' hj
  obtain rfl : w = w' := by
    rw [StandsFor, hmw] at hmw'
    exact Except.ok.inj hmw'
  exact ⟨w, hw, hw'⟩

/-- A marked element that holds another one. -/
def card : Node :=
  .element (text "p") [⟨text "class", text "a"⟩, ⟨childMarker, text "card"⟩, ⟨socketMarker, text "c"⟩]
    [.text (text "x"), .element (text "b") [⟨childMarker, text "deep"⟩] [.text (text "y")]]

def cardPage : List Node := [.element (text "main") [⟨text "class", text "m"⟩] [card]]

/-- A page that scopes a card once more, since it stands in a child view there. -/
def nestedCardPage : List Node := [.element (text "div") [⟨childMarker, text "outer"⟩] [card]]

/-- A card is compiled to the same view on two pages, at different depths. -/
theorem children_independent_card :
    ∃ v v' w, ofPage (text "page") (Names.ofWords [text "page"]) cardPage = .ok v ∧
      ofPage (text "home") (Names.ofWords [text "home"]) nestedCardPage = .ok v' ∧
        (descendantsAll v.children)[0]? = some w ∧ (descendantsAll v'.children)[1]? = some w := by
  have hok : (ofPage (text "page") (Names.ofWords [text "page"]) cardPage).isOk = true := by
    decide +kernel
  have hok' : (ofPage (text "home") (Names.ofWords [text "home"]) nestedCardPage).isOk = true := by
    decide +kernel
  obtain ⟨v, hv⟩ := exists_of_isOk hok
  obtain ⟨v', hv'⟩ := exists_of_isOk hok'
  obtain ⟨-, -, hequal⟩ :=
    children_independent hv hv' (by decide +kernel) (by decide +kernel)
  obtain ⟨w, hw, hw'⟩ := hequal 0 1 _ rfl (by decide +kernel)
  exact ⟨v, v', w, hv, hv', hw, hw'⟩

end View

end Viewloom
