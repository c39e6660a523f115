import Viewloom.Proofs.Forest
import Viewloom.View.Render

/-!
# Rendering without views

A page that controls itself has a rendering of its own, which needs neither views nor sockets: what
is ignored goes, and everything else stands where it stood. A bound template with empty proxies
renders to it.
-/

namespace Viewloom

namespace Template

mutual

/-- The rendering of a node that controls itself. -/
def direct : Markup.Node → Text
  | .text value => if isLayout value then [] else Markup.escapeText value
  | .comment _ => []
  | .element tag attributes children =>
    if Attribute.has ignoreMarker attributes = true ∨ tag = Viewloom.text "script" then []
    else if Attribute.has emptyMarker attributes = true then
      renderElement tag
        (propertiesOf tag (Markup.unmarked (Attribute.erase emptyMarker attributes)) []) .empty []
    else
      renderElement tag (propertiesOf tag (Markup.unmarked attributes) children) .empty
        (if holdsText tag then [] else directAll children)

/-- The rendering of a page that controls itself. -/
def directAll : List Markup.Node → Text
  | [] => []
  | n :: ns => direct n ++ directAll ns

end

mutual

/-- The rendering does not see the markers. -/
theorem direct_unmark : ∀ n : Markup.Node, direct n.unmark = direct n
  | .element tag attributes children => by
      simp only [Markup.Node.unmark, direct, has_unmarked ignoreMarker_ne.1 ignoreMarker_ne.2,
        has_unmarked emptyMarker_ne.1 emptyMarker_ne.2,
        Markup.erase_unmarked emptyMarker_ne.1 emptyMarker_ne.2, Markup.unmarked_unmarked,
        directAll_unmarkAll children, propertiesOf_congr (directText_unmarkAll children)]
  | .text _ => rfl
  | .comment _ => rfl

theorem directAll_unmarkAll : ∀ ns : List Markup.Node, directAll (Markup.Node.unmarkAll ns) = directAll ns
  | [] => rfl
  | n :: ns => by
      simp only [Markup.Node.unmarkAll, directAll, direct_unmark n, directAll_unmarkAll ns]

end

/-- An extracted element renders as it did with its markers. -/
theorem direct_extracted (tag : Text) (attributes : List Attribute) (children : List Markup.Node) :
    direct (.element tag (Attribute.erase socketMarker (Attribute.erase childMarker attributes))
        children) =
      direct (.element tag attributes children) := by
  rw [← direct_unmark, Markup.Node.unmark, Markup.unmarked_erase (Or.inr rfl),
    Markup.unmarked_erase (Or.inl rfl), ← direct_unmark (.element tag attributes children),
    Markup.Node.unmark]

end Template

namespace ProxySet

/-- Each socket has an empty proxy of its own. -/
theorem get?_ofSockets {sockets : List Text} {socket : Text} (h : socket ∈ sockets) :
    (ofSockets sockets).get? socket = some Proxy.empty := by
  have hfold : ∀ (sockets : List Text) (m : ProxySet),
      (socket ∈ sockets ∨ m.get? socket = some Proxy.empty) →
      ((sockets.map fun s => (s, Proxy.empty)).foldl
        (fun (m : ProxySet) entry => m.insert entry.1 entry.2) m).get? socket =
          some Proxy.empty := by
    intro sockets
    induction sockets with
    | nil =>
        rintro m (hmem | hm)
        · simp at hmem
        · exact hm
    | cons s sockets ih =>
        intro m hm
        refine ih _ ?_
        by_cases hs : socket = s
        · exact Or.inr (by simp [hs])
        · refine hm.imp (fun hmem => ?_) fun hm => by simp [hs, hm]
          simpa [hs] using hmem
  exact hfold sockets SortedMap.empty (Or.inl h)

end ProxySet

namespace Template

variable {components : Components} {proxies : ProxySet} {names : List Names}

/-- What stands between the tags of a socket that has received a proxy. -/
def Content.fill (components : Components) (proxies : ProxySet) (proxy : Proxy) :
    Content Node → Text
  | .proxied => ProxyNode.renderAll (proxy.children.getD [])
  | .fallback nodes =>
    match proxy.children with
    | some children => ProxyNode.renderAll children
    | none => Node.renderAll components proxies nodes
  | .nested nodes => Node.renderAll components (.ofChildren (proxy.children.getD [])) nodes

/-- A socket is rendered if it has a proxy, with the children of the proxy or with what stands in
it. -/
theorem render_socket (name : Text) (target : Target) (inner : List Node) (content : Content Node) :
    (Node.socket name target inner content).render components proxies =
      match proxies.get? name with
      | none => []
      | some proxy =>
        if target.isComponent then components target.tag (proxy.children.getD [])
        else
          renderElement target.tag target.properties proxy.props
            (content.fill components proxies proxy) := by
  cases content <;> rfl

theorem renderAll_append (ns ms : List Template.Node) :
    Node.renderAll components proxies (ns ++ ms) =
      Node.renderAll components proxies ns ++ Node.renderAll components proxies ms := by
  induction ns with
  | nil => simp [Node.renderAll]
  | cons n ns ih => simp [Node.renderAll, ih]

theorem renderAll_singleton (n : Template.Node) :
    Node.renderAll components proxies [n] = n.render components proxies := by
  simp [Node.renderAll]

/-- A socket that receives nothing renders the child view it stands for. -/
theorem render_component_socket {socket tag : Text} (hproxy : proxies.get? socket = some Proxy.empty)
    (properties : List Property) (inner : List Template.Node) (content : Content Template.Node) :
    (Node.socket socket ⟨tag, properties, true⟩ inner content).render components proxies =
      components tag [] := by
  cases content <;> simp [Node.render, hproxy, Proxy.empty]

/-- A socket that receives nothing renders its own content, in which there is no other socket. -/
theorem render_element_socket {socket tag : Text} (hproxy : proxies.get? socket = some Proxy.empty)
    (properties : List Property) (inner : List Template.Node) {children : List Template.Node}
    (hnone : Node.hasSocketAny children = false) :
    (Node.socket socket ⟨tag, properties, false⟩ inner (contentOf children)).render components
        proxies =
      renderElement tag properties .empty (Node.renderAll components proxies children) := by
  cases children with
  | nil =>
      rw [contentOf, List.isEmpty_nil, if_pos rfl, Node.render, hproxy]
      rfl
  | cons n ns =>
      have hcontent : contentOf (n :: ns) = .fallback (n :: ns) := by simp [contentOf, hnone]
      rw [hcontent, Node.render, hproxy]
      rfl

/-- An authored element renders itself around its content, whether it is a socket or not. -/
theorem renderAll_bound_element {tag : Text} {attributes : List Attribute}
    {children : List Markup.Node} (htag : ¬ openMark <:+: tag) (hclass : classOf? names tag = none)
    (hsocket : ∀ socket, Attribute.get? socketMarker attributes = some socket →
      proxies.get? socket = some Proxy.empty ∧ Node.hasSocketAny (bound names children) = false) :
    Node.renderAll components proxies (bound names [.element tag attributes children]) =
      renderElement tag (propertiesOf tag (Attribute.erase socketMarker attributes) children)
        .empty
        (if holdsText tag then [] else Node.renderAll components proxies (bound names children)) := by
  rw [bound_element, renderAll_singleton]
  have hcontent : ∀ ns : List Template.Node,
      Node.renderAll components proxies (if holdsText tag then [] else ns) =
        if holdsText tag then [] else Node.renderAll components proxies ns := by
    intro ns
    split <;> simp [Node.renderAll]
  cases hget : Attribute.get? socketMarker attributes with
  | none =>
      have hsplit := splitSocketTag_eq_none htag
      simp only [writtenTag, hget, baseTag, hsplit, Node.make, componentTag?, hclass,
        Option.map_none, bindTag, Bool.false_eq_true, if_false, Node.render, hcontent]
  | some socket =>
      have hsplit := splitSocketTag_socketTag htag socket
      obtain ⟨hproxy, hnone⟩ := hsocket socket hget
      simp only [writtenTag, hget, baseTag, hsplit, Node.make, componentTag?, hclass,
        Option.map_none, bindTag]
      rw [render_element_socket hproxy, hcontent]
      split
      · rfl
      · exact hnone

/-- A placeholder renders the child view it stands for, whether it is a socket or not. -/
theorem renderAll_bound_placeholder {n : Names} {attributes : List Attribute}
    (hclass : classOf? names (Extraction.placeholderTag n.elementTag) = some n.className)
    (htag : ¬ openMark <:+: Extraction.placeholderTag n.elementTag)
    (href : ¬ openMark <:+: controllerRef n.className)
    (hsocket : ∀ socket, Attribute.get? socketMarker attributes = some socket →
      proxies.get? socket = some Proxy.empty) :
    Node.renderAll components proxies (bound names [Extraction.placeholder n attributes]) =
      components (controllerRef n.className) [] := by
  rw [Extraction.placeholder, bound_element, renderAll_singleton]
  cases hget : Attribute.get? socketMarker attributes with
  | none =>
      have hsplit := splitSocketTag_eq_none htag
      have hsplit' := splitSocketTag_eq_none href
      simp [writtenTag, Attribute.get?, Node.make, componentTag?, hsplit, hclass, bindTag, hsplit',
        Node.render]
  | some socket =>
      have hsplit := splitSocketTag_socketTag htag socket
      have hsplit' := splitSocketTag_socketTag href socket
      simp only [writtenTag, Option.map_some, Option.toList_some, Attribute.get?, if_true,
        Node.make, componentTag?, hsplit, hclass, bindTag, hsplit']
      exact render_component_socket (hsocket socket hget) ..

mutual

/-- Without socket markers there are no sockets in the bound template. -/
theorem hasSocket_bound (hrefs : ∀ n ∈ names, ¬ openMark <:+: controllerRef n.className) :
    ∀ {n : Markup.Node}, (n.All fun tag _ => ¬ openMark <:+: tag) →
      (Markup.Node.tagSocketsAll [n]).2 = [] → Node.hasSocketAny (bound names [n]) = false
  | .element tag attributes children, hn, hnone => by
      rw [Markup.sockets_element, List.append_eq_nil_iff, Option.toList_eq_nil_iff] at hnone
      have hchildren := hasSocketAny_bound hrefs hn.2 hnone.2
      have hcontent : Node.hasSocketAny (if holdsText tag then [] else bound names children) =
          false := by
        split
        · rfl
        · exact hchildren
      have hsplit := splitSocketTag_eq_none hn.1
      rw [bound_element]
      simp only [writtenTag, hnone.1, baseTag, hsplit, Node.make, componentTag?]
      cases hclass : classOf? names tag with
      | none => simp [bindTag, hsplit, Node.hasSocketAny, Node.hasSocket, hcontent]
      | some className =>
          obtain ⟨n, hmem, rfl, -⟩ := mem_of_classOf? hclass
          have hsplit' := splitSocketTag_eq_none (hrefs n hmem)
          simp [bindTag, hsplit', Node.hasSocketAny, Node.hasSocket, hcontent]
  | .text value, _, _ => by
      rw [bound_text]
      split <;> rfl
  | .comment value, _, _ => by
      rw [bound_comment]
      rfl

/-- A page without sockets is bound to a template without sockets. -/
theorem hasSocketAny_bound (hrefs : ∀ n ∈ names, ¬ openMark <:+: controllerRef n.className) :
    ∀ {ns : List Markup.Node}, Markup.Node.AllOf (fun tag _ => ¬ openMark <:+: tag) ns →
      (Markup.Node.tagSocketsAll ns).2 = [] → Node.hasSocketAny (bound names ns) = false
  | [], _, _ => by rw [bound_nil]; rfl
  | n :: ns, hns, hnone => by
      rw [← List.singleton_append, Markup.tagSocketsAll_append, List.append_eq_nil_iff] at hnone
      rw [bound_cons, hasSocketAny_append, hasSocket_bound hrefs hns.1 hnone.1,
        hasSocketAny_bound hrefs hns.2 hnone.2]
      rfl

end

end Template

end Viewloom
