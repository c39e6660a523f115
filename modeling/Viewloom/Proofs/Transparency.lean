import Viewloom.Proofs.Rendering
import Viewloom.Proofs.Standing

/-!
# Markers are transparent

A page that controls itself renders to the same text with its markers and without them: child views
and sockets put back what they have taken out.
-/

namespace Viewloom

open Markup (Node)

namespace Template

variable {components : Components} {proxies : ProxySet}

/-- Components that render each extracted element as it stands. -/
structure Serves (components : Components) (es : List Extraction) : Prop where
  nodup : (es.map fun e => e.names.elementTag).Nodup
  label : ∀ e ∈ es, Names.ofLabel e.label = .ok e.names
  render : ∀ e ∈ es, components (controllerRef e.names.className) [] = direct e.element.toNode

namespace Serves

variable {es₀ : List Extraction}

/-- The placeholder of an extraction stands for its class. -/
theorem classOf? (h : Serves components es₀) {e : Extraction} (he : e ∈ es₀) :
    Template.classOf? (es₀.map Extraction.names)
        (Extraction.placeholderTag e.names.elementTag) = some e.names.className := by
  refine classOf?_placeholderTag (List.mem_map_of_mem he) ?_
  rw [List.map_map]
  exact h.nodup

/-- No reference of an extraction holds the mark of sockets. -/
theorem refs (h : Serves components es₀) :
    ∀ n ∈ es₀.map Extraction.names, ¬ openMark <:+: controllerRef n.className := by
  intro n hn
  obtain ⟨e, he, rfl⟩ := List.mem_map.1 hn
  exact not_openMark_infix_controllerRef (h.label e he)

/-- What extraction leaves of a forest holds no mark. -/
theorem allOf_of_authored {ns ms : List Markup.Node} {es : List Extraction}
    (hns : Markup.Node.AllOf Authored ns) (hms : Extraction.ofNodes ns = .ok (ms, es)) :
    Markup.Node.AllOf (fun tag _ => ¬ openMark <:+: tag) (Markup.cleanUp ms) :=
  Markup.allOf_cleanUp (fun _ _ h _ _ _ => h) (fun _ _ h _ _ => h)
    (Markup.allOf_of_ofNodes (fun _ _ h _ => h.tag_mark)
      (fun _ _ _ _ h hlabel hnames =>
        not_openMark_infix_placeholderTag (h.label_mark _ _ hlabel hnames)) hns hms)

/-- An element that stays renders as itself if its content does. -/
theorem render_element (h : Serves components es₀) {tag : Text} {attributes : List Attribute}
    (hauthored : Authored tag attributes) (hchild : Attribute.get? childMarker attributes = none)
    {children : List Markup.Node}
    (htags : Markup.Node.AllOf (fun tag _ => ¬ openMark <:+: tag) children)
    (hapart : Markup.Node.SocketsApartAll [.element tag attributes children])
    (hproxies : ∀ socket ∈ (Markup.Node.tagSocketsAll [.element tag attributes children]).2,
      proxies.get? socket = some Proxy.empty) :
    Node.renderAll components proxies
        (bound (es₀.map Extraction.names) [.element tag attributes children]) =
      renderElement tag (propertiesOf tag (Markup.unmarked attributes) children) .empty
        (if holdsText tag then []
        else Node.renderAll components proxies (bound (es₀.map Extraction.names) children)) := by
  rw [renderAll_bound_element hauthored.tag_mark (classOf?_eq_none hauthored.tag_start),
    Markup.erase_socketMarker hauthored.nodup hchild]
  intro socket hsocket
  constructor
  · apply hproxies
    rw [Markup.sockets_element, hsocket]
    simp
  · exact hasSocketAny_bound h.refs htags (hapart.1.1 (by simp [Attribute.has, hsocket]))

mutual

/-- An extracted node is rendered as the unmarked one if its components serve the extractions and
its proxies are empty. -/
theorem render_ofNode (h : Serves components es₀) :
    ∀ {n m : Markup.Node} {es : List Extraction}, n.All Authored →
      Extraction.ofNode n = .ok (m, es) → (∀ e ∈ es, e ∈ es₀) →
      Markup.Node.SocketsApartAll (Markup.cleanUp [m]) →
      (∀ socket ∈ (Markup.Node.tagSocketsAll (Markup.cleanUp [m])).2,
        proxies.get? socket = some Proxy.empty) →
      Node.renderAll components proxies
          (bound (es₀.map Extraction.names) (Markup.cleanUp [m])) = direct n
  | .element tag attributes children, m, es, hn, hm, hes, hapart, hproxies => by
      rcases Extraction.ofNode_element hm with
        ⟨label, names, hlabel, hnames, rfl, rfl⟩ | ⟨hchild, ms, hms, rfl⟩
      · -- A placeholder is rendered by the component that serves its extraction.
        have hmem := hes _ (List.mem_singleton_self _)
        rw [Markup.cleanUp_placeholder] at hproxies ⊢
        rw [renderAll_bound_placeholder (h.classOf? hmem)
          (not_openMark_infix_placeholderTag (hn.1.label_mark _ _ hlabel hnames))
          (not_openMark_infix_controllerRef (h.label _ hmem)), h.render _ hmem]
        · exact direct_extracted tag attributes children
        · intro socket hsocket
          apply hproxies
          rw [Extraction.placeholder, Markup.sockets_element, hsocket]
          simp [Attribute.get?]
      · rw [Markup.cleanUp_element] at hapart hproxies ⊢
        rw [direct]
        split
        · rw [bound_nil]
          rfl
        · next hdrop =>
          rw [if_neg hdrop] at hapart hproxies
          split
          · next hempty =>
            rw [if_pos hempty] at hapart hproxies
            have hauthored := hn.1.of_sublist (Attribute.erase_sublist emptyMarker attributes)
              (by rw [Attribute.get?_erase_of_ne (by decide), hchild])
            have hchild' : Attribute.get? childMarker (Attribute.erase emptyMarker attributes) =
                none := by rw [Attribute.get?_erase_of_ne (by decide), hchild]
            have htags : Markup.Node.AllOf (fun tag _ => ¬ openMark <:+: tag) [] := trivial
            rw [h.render_element hauthored hchild' htags hapart hproxies, bound_nil]
            simp [Node.renderAll]
          · next hempty =>
            rw [if_neg hempty] at hapart hproxies
            rw [h.render_element hn.1 hchild (allOf_of_authored hn.2 hms) hapart hproxies,
              render_ofNodes h hn.2 hms hes hapart.1.2 fun socket hsocket => hproxies socket ?_]
            · rw [propertiesOf_congr ((directText_cleanUp ms).trans (directText_ofNodes hms))]
            · rw [Markup.sockets_element]
              exact List.mem_append_right _ hsocket
  | .text value, m, es, _, hm, _, _, _ => by
      obtain ⟨rfl, rfl⟩ := Extraction.ofNode_text hm
      rw [Markup.cleanUp_text, bound_text, direct]
      split <;> simp [Node.renderAll, Node.render]
  | .comment value, m, es, _, hm, _, _, _ => by
      obtain ⟨rfl, rfl⟩ := Extraction.ofNode_comment hm
      rw [Markup.cleanUp_comment, bound_comment, direct]
      rfl

/-- The bound template of what a page keeps renders as the page itself. -/
theorem render_ofNodes (h : Serves components es₀) :
    ∀ {ns ms : List Markup.Node} {es : List Extraction}, Markup.Node.AllOf Authored ns →
      Extraction.ofNodes ns = .ok (ms, es) → (∀ e ∈ es, e ∈ es₀) →
      Markup.Node.SocketsApartAll (Markup.cleanUp ms) →
      (∀ socket ∈ (Markup.Node.tagSocketsAll (Markup.cleanUp ms)).2,
        proxies.get? socket = some Proxy.empty) →
      Node.renderAll components proxies
          (bound (es₀.map Extraction.names) (Markup.cleanUp ms)) = directAll ns
  | [], ms, es, _, hms, _, _, _ => by
      obtain ⟨rfl, rfl⟩ := Extraction.ofNodes_nil hms
      rw [Markup.cleanUp_nil, bound_nil]
      rfl
  | n :: ns, ms, es, hns, hms, hes, hapart, hproxies => by
      obtain ⟨m, ms', es₁, es₂, hm, hms', rfl, rfl⟩ := Extraction.ofNodes_cons hms
      rw [Markup.cleanUp_cons] at hapart hproxies ⊢
      rw [Markup.Node.socketsApartAll_append] at hapart
      rw [Markup.tagSocketsAll_append] at hproxies
      rw [bound_append, renderAll_append, directAll,
        render_ofNode h hns.1 hm (fun e he => hes e (List.mem_append_left _ he)) hapart.1
          (fun socket hs => hproxies socket (List.mem_append_left _ hs)),
        render_ofNodes h hns.2 hms' (fun e he => hes e (List.mem_append_right _ he)) hapart.2
          (fun socket hs => hproxies socket (List.mem_append_right _ hs))]

end

end Serves

end Template

/-! ## Views -/

namespace View

/-- The children of a view find each other by their classes. -/
theorem renderChild_of_mem (controllers : View → Lookup) {es : List Extraction} {vs : List View}
    (hes : List.Forall₂ (fun e v => ofPage e.label e.names [e.element.toNode] = .ok v) es vs)
    (hnodup : (es.map fun e => e.names.className).Nodup) {e : Extraction} (he : e ∈ es)
    (supplied : List ProxyNode) :
    ∃ v, ofPage e.label e.names [e.element.toNode] = .ok v ∧
      renderChild controllers vs (Template.controllerRef e.names.className) supplied =
        renderWith controllers v (ProxySet.select (controllers v) v supplied) := by
  induction hes with
  | nil => simp at he
  | @cons f w es vs hchild _ ih =>
      simp only [List.map_cons, List.nodup_cons] at hnodup
      have hclass : w.className = f.names.className := by rw [className, names_ofPage hchild]
      rcases List.mem_cons.1 he with rfl | he
      · exact ⟨w, hchild, by rw [renderChild, if_pos (by rw [hclass])]⟩
      · obtain ⟨v, hv, hrender⟩ := ih hnodup.2 he
        refine ⟨v, hv, ?_⟩
        rw [renderChild, if_neg, hrender]
        intro href
        rw [hclass] at href
        exact hnodup.1 (controllerRef_injective href ▸ List.mem_map_of_mem he)

/-- A view that controls itself renders its page as it stands. -/
theorem render_ofPage {label : Text} {names : Names} {page : List Node} {v : View}
    (h : ofPage label names page = .ok v) (hauthored : Node.AllOf Authored page)
    (hapart : ∀ q ∈ Markup.pages page, Node.SocketsApartAll (Markup.remainder q)) :
    v.render (ProxySet.ofSockets v.sockets) = Template.directAll (Markup.scope page) := by
  induction page using Markup.page_induction generalizing label names v with
  | step page ih =>
      obtain ⟨hdecompose, hdistinct, hchildren, hassemble⟩ := ofPage_eq_ok h
      obtain ⟨ms, hms, hrest⟩ := Markup.decompose_eq_ok hdecompose
      obtain ⟨htags, hclasses⟩ := Extraction.nodup_of_firstDuplicate hdistinct
      obtain ⟨-, hv⟩ := assemble_eq_ok hassemble
      have hscoped : Node.AllOf Authored (Markup.scope page) :=
        Markup.Node.allOf_scopeAll (fun _ _ h => h.scope) false hauthored
      have hserves : Template.Serves (renderChild (fun _ => .notFound) v.children)
          (Markup.extractions page) := by
        refine ⟨htags, Extraction.ofLabel_of_mem_ofNodes hms, fun e he => ?_⟩
        obtain ⟨w, hw, hrender⟩ := renderChild_of_mem (fun _ => .notFound) hchildren hclasses he []
        have hchild := ih e he hw
          (Markup.all_of_mem_ofNodes (fun _ _ h => h.extracted) hscoped hms e he)
          fun q hq => hapart q (Markup.mem_pages he hq)
        have hfixed : Node.scopeAll false (Markup.scope page) = Markup.scope page :=
          Markup.scope_scope page
        rw [Markup.scope_of_mem_ofNodes hfixed hms e he] at hchild
        simp only [Template.directAll, List.append_nil] at hchild
        rw [hrender]
        exact hchild
      have hproxies : ∀ socket ∈ (Markup.Node.tagSocketsAll (Markup.cleanUp ms)).2,
          (ProxySet.ofSockets v.sockets).get? socket = some Proxy.empty := by
        intro socket hsocket
        apply ProxySet.get?_ofSockets
        rw [hv, hrest]
        exact hsocket
      have hself := hapart page (Markup.mem_pages_self page)
      rw [hrest] at hself
      rw [← hserves.render_ofNodes hscoped hms (fun _ he => he) hself hproxies,
        ← map_names_of_forall₂ hchildren, ← hrest]
      rw [hv]
      rfl

/-- A page without markers compiles, and nothing is taken out of it. -/
theorem exists_ofPage_unmarkAll (label : Text) (names : Names) (page : List Node) :
    ∃ w, ofPage label names (Node.unmarkAll page) = .ok w := by
  have hdecompose := Markup.decompose_unmarkAll page
  have hnone := (Markup.unsocketed_cleanUp_unmarkAll (Markup.scope page)).1
  rw [ofPage]
  split
  · next herror => simp [hdecompose] at herror
  · next rest es hok =>
    simp only [hdecompose, Except.ok.injEq, Prod.mk.injEq] at hok
    obtain ⟨rfl, rfl⟩ := hok
    simp only [Extraction.firstDuplicate_nil, ofExtractions, assemble, Markup.tagSockets, hnone,
      firstRepeated]
    exact ⟨_, rfl⟩

/-- Markers are transparent: with empty proxies, a page renders as it does without its markers. -/
theorem render_unmarkAll {label : Text} {names : Names} {page : List Node} {v : View}
    (h : ofPage label names page = .ok v) (hauthored : Node.AllOf Authored page)
    (hapart : ∀ q ∈ Markup.pages page, Node.SocketsApartAll (Markup.remainder q)) :
    ∃ w, ofPage label names (Node.unmarkAll page) = .ok w ∧
      v.render (ProxySet.ofSockets v.sockets) = w.render (ProxySet.ofSockets w.sockets) := by
  obtain ⟨w, hw⟩ := exists_ofPage_unmarkAll label names page
  refine ⟨w, hw, ?_⟩
  have hapart' : ∀ q ∈ Markup.pages (Node.unmarkAll page),
      Node.SocketsApartAll (Markup.remainder q) := by
    have hdecompose := Markup.decompose_unmarkAll page
    intro q hq
    rw [Markup.pages, Markup.extractions, hdecompose, Markup.pagesOf, List.mem_singleton] at hq
    rw [hq, Markup.remainder, hdecompose]
    exact (Markup.unsocketed_cleanUp_unmarkAll (Markup.scope page)).2
  rw [render_ofPage h hauthored hapart,
    render_ofPage hw (Markup.Node.allOf_unmarkAll (fun _ _ h => h.unmarked) hauthored) hapart',
    Markup.scope_unmarkAll, Template.directAll_unmarkAll]

/-- A socket beside a child view that is a socket itself and has a child of its own. -/
def markedPage : List Node :=
  [.element (text "main") [⟨socketMarker, text "body"⟩] [.text (text "a")],
    .element (text "p") [⟨childMarker, text "side note"⟩, ⟨socketMarker, text "note"⟩]
      [.text (text "b"), .element (text "b") [⟨childMarker, text "deep"⟩] [.text (text "c")]]]

theorem render_unmarkAll_markedPage :
    ∃ v w, ofPage (text "page") (Names.ofWords [text "page"]) markedPage = .ok v ∧
      ofPage (text "page") (Names.ofWords [text "page"]) (Node.unmarkAll markedPage) = .ok w ∧
      v.render (ProxySet.ofSockets v.sockets) = w.render (ProxySet.ofSockets w.sockets) := by
  have hok : (ofPage (text "page") (Names.ofWords [text "page"]) markedPage).isOk = true := by
    decide +kernel
  obtain ⟨v, hv⟩ := exists_of_isOk hok
  obtain ⟨w, hw, hrender⟩ := render_unmarkAll hv (by decide +kernel) (by decide +kernel)
  exact ⟨v, w, hv, hw, hrender⟩

end View

end Viewloom
