import Viewloom.Proofs.Standing
import Viewloom.View.Render

/-!
# The scope of proxies

A view sees the proxies of its outermost sockets alone. What stands in the content of a socket beside
further sockets is rendered with the children of the socket's own proxy.
-/

namespace Viewloom

/-- Two sets give the same proxies to some sockets, and leave the same ones of them without. -/
def ProxySet.AgreeOn (sockets : List Text) (P Q : ProxySet) : Prop :=
  ∀ socket ∈ sockets, P.get? socket = Q.get? socket

namespace Template

mutual

/-- The names of the sockets that do not stand in the content of another one. -/
def Node.outermost : Node → List Text
  | .socket name _ _ _ => [name]
  | .element _ _ children => outermostAll children
  | .component _ _ children => outermostAll children
  | _ => []

def Node.outermostAll : List Node → List Text
  | [] => []
  | n :: ns => n.outermost ++ outermostAll ns

end

/-- A node stands among nodes, or somewhere below them. -/
inductive Node.Within (n : Node) : List Node → Prop where
  | here {ns : List Node} (h : n ∈ ns) : Within n ns
  | under {m : Node} {ns : List Node} (hm : m ∈ ns) (h : Within n m.children) : Within n ns

theorem Node.Within.mono {n : Node} {ns ns' : List Node} (h : n.Within ns) (hsub : ns ⊆ ns') :
    n.Within ns' := by
  cases h with
  | here hn => exact .here (hsub hn)
  | under hm hn => exact .under (hsub hm) hn

mutual

/-- Wherever sockets stand in the content of a socket, that content is nested. -/
def Node.Layered : Node → Prop
  | .element _ _ children => LayeredAll children
  | .component _ _ children => LayeredAll children
  | .socket _ _ _ (.fallback nodes) => hasSocketAny nodes = false ∧ LayeredAll nodes
  | .socket _ _ _ (.nested nodes) => LayeredAll nodes
  | _ => True

def Node.LayeredAll : List Node → Prop
  | [] => True
  | n :: ns => n.Layered ∧ LayeredAll ns

end

namespace Node

theorem layeredAll_append {ns ms : List Node} :
    LayeredAll (ns ++ ms) ↔ LayeredAll ns ∧ LayeredAll ms := by
  induction ns with
  | nil => simp [LayeredAll]
  | cons n ns ih => simp [LayeredAll, ih, and_assoc]

/-- The children of a layered node are layered. -/
theorem Layered.children {n : Node} (h : n.Layered) : LayeredAll n.children := by
  match n, h with
  | .element _ _ _, h => exact h
  | .component _ _ _, h => exact h
  | .text _, _ => trivial
  | .comment _, _ => trivial
  | .socket _ _ _ .proxied, _ => trivial
  | .socket _ _ _ (.fallback _), h => exact h.2
  | .socket _ _ _ (.nested _), h => exact h

theorem LayeredAll.of_mem {n : Node} {ns : List Node} (h : LayeredAll ns) (hn : n ∈ ns) :
    n.Layered := by
  induction ns with
  | nil => simp at hn
  | cons m ns ih =>
      rcases List.mem_cons.1 hn with rfl | hn
      · exact h.1
      · exact ih h.2 hn

/-- What stands somewhere in a layered list is layered. -/
theorem LayeredAll.of_within {n : Node} {ns : List Node} (h : LayeredAll ns)
    (hn : n.Within ns) : n.Layered := by
  induction hn with
  | here hn => exact h.of_mem hn
  | under hm _ ih => exact ih (h.of_mem hm).children

/-- A layered socket with further sockets in its content is nested. -/
theorem Layered.eq_nested {name : Text} {target : Target} {inner : List Node}
    {content : Content Node} (h : (Node.socket name target inner content).Layered)
    (hsockets : hasSocketAny content.nodes = true) : content = .nested content.nodes := by
  cases content with
  | proxied => simp [Content.nodes, hasSocketAny] at hsockets
  | fallback nodes =>
      have hnone : hasSocketAny nodes = false := h.1
      simp [Content.nodes, hnone] at hsockets
  | nested nodes => rfl

/-! ## Bound templates are layered -/

/-- A bound tag with layered children is layered. -/
theorem layered_bindTag (isComponent : Bool) (tag : Text) (properties : List Property)
    {children : List Node} (h : LayeredAll children) :
    (bindTag isComponent tag properties children).1.Layered := by
  unfold bindTag
  split
  · unfold contentOf
    split
    · trivial
    · split
      · exact h
      · next hnone => exact ⟨by simpa using hnone, h⟩
  · split
    · exact h
    · exact h

/-- A node made with layered children is layered. -/
theorem layered_make (names : List Names) (written : Text) (properties : List Property)
    {children : List Node} (h : LayeredAll children) :
    (Node.make names written properties children).Layered := by
  unfold Node.make
  split
  · exact layered_bindTag true _ properties h
  · exact layered_bindTag false _ properties h

mutual

theorem layeredAll_bound_node (names : List Names) :
    ∀ n : Markup.Node, LayeredAll (bound names [n])
  | .element tag attributes children => by
      rw [bound_element]
      refine ⟨layered_make names _ _ ?_, trivial⟩
      split
      · trivial
      · exact layeredAll_bound names children
  | .text value => by
      rw [bound_text]
      split
      · trivial
      · exact ⟨trivial, trivial⟩
  | .comment value => by
      rw [bound_comment]
      exact ⟨trivial, trivial⟩

/-- Bound nodes are layered. -/
theorem layeredAll_bound (names : List Names) :
    ∀ ns : List Markup.Node, LayeredAll (bound names ns)
  | [] => by
      rw [bound_nil]
      trivial
  | n :: ns => by
      rw [bound_cons, layeredAll_append]
      exact ⟨layeredAll_bound_node names n, layeredAll_bound names ns⟩

end

/-! ## Rendering sees the outermost sockets -/

mutual

/-- A node without sockets has no outermost ones. -/
theorem outermost_eq_nil : ∀ {n : Node}, n.hasSocket = false → n.outermost = []
  | .element _ _ _, h => outermostAll_eq_nil h
  | .component _ _ _, h => outermostAll_eq_nil h
  | .text _, _ => rfl
  | .comment _, _ => rfl

theorem outermostAll_eq_nil : ∀ {ns : List Node}, hasSocketAny ns = false → outermostAll ns = []
  | [], _ => rfl
  | n :: ns, h => by
      rw [hasSocketAny, Bool.or_eq_false_iff] at h
      rw [outermostAll, outermost_eq_nil h.1, outermostAll_eq_nil h.2, List.append_nil]

end

variable {components : Components} {P Q : ProxySet}

mutual

/-- A layered node is rendered alike by proxies that agree on its outermost sockets. -/
theorem render_congr : ∀ {n : Node}, n.Layered → ProxySet.AgreeOn n.outermost P Q →
    n.render components P = n.render components Q
  | .text _, _, _ => rfl
  | .comment _, _, _ => rfl
  | .component _ _ _, _, _ => rfl
  | .element tag properties children, layered, agree => by
      rw [Node.render, Node.render, renderAll_congr layered agree]
  | .socket name target inner .proxied, _, agree => by
      rw [Node.render, Node.render, agree name (List.mem_singleton_self name)]
  | .socket name target inner (.fallback nodes), layered, agree => by
      -- This content holds no socket, so the sets agree on all that stand in it.
      have hnodes : renderAll components P nodes = renderAll components Q nodes := by
        apply renderAll_congr layered.2
        simp [ProxySet.AgreeOn, outermostAll_eq_nil layered.1]
      rw [Node.render, Node.render, agree name (List.mem_singleton_self name), hnodes]
  | .socket name target inner (.nested nodes), _, agree => by
      rw [Node.render, Node.render, agree name (List.mem_singleton_self name)]

/-- Two sets that agree on the outermost sockets render alike. -/
theorem renderAll_congr : ∀ {ns : List Node}, LayeredAll ns →
    ProxySet.AgreeOn (outermostAll ns) P Q → renderAll components P ns = renderAll components Q ns
  | [], _, _ => rfl
  | n :: ns, layered, agree => by
      simp only [outermostAll, ProxySet.AgreeOn, List.mem_append, or_imp, forall_and] at agree
      rw [renderAll, renderAll, render_congr layered.1 agree.1, renderAll_congr layered.2 agree.2]

end

end Node

end Template

namespace View

open Template (Node Target Content)

/-- The templates of a compiled tree are layered. -/
theorem layeredAll_of_compiledFrom {v : View} {page : List Markup.Node} (h : CompiledFrom v page) :
    Node.LayeredAll v.nodes := by
  cases h with
  | page h =>
      rw [nodes_ofPage h]
      exact Node.layeredAll_bound ..
  | blank label names => trivial

/-- A view renders its nodes with its children as components. -/
theorem renderWith_eq (controllers : View → Lookup) (v : View) (P : ProxySet) :
    renderWith controllers v P =
      Node.renderAll (renderChild controllers v.children) P v.nodes := by
  obtain ⟨_, _, _, _, _, _, _⟩ := v
  rw [renderWith]

/-- Which proxies the rendering of a view sees. -/
structure ProxyScope (controllers : View → Lookup) (v : View) : Prop where
  /-- The view itself sees those of its outermost sockets. -/
  outer : ∀ P Q : ProxySet, P.AgreeOn (Node.outermostAll v.nodes) Q →
    renderWith controllers v P = renderWith controllers v Q
  /-- The content of a socket in which there are others is rendered with the children of its own
  proxy, whatever else the set holds in which that proxy is found. -/
  inner : ∀ (name : Text) (target : Target) (rest : List Node) (content : Content Node),
    Node.Within (.socket name target rest content) v.nodes →
      Node.hasSocketAny content.nodes = true → ∀ (P : ProxySet) (proxy : Proxy),
        P.get? name = some proxy →
          (Node.socket name target rest content).render (renderChild controllers v.children) P =
            if target.isComponent then
              renderChild controllers v.children target.tag (proxy.children.getD [])
            else
              Template.renderElement target.tag target.properties proxy.props
                (Node.renderAll (renderChild controllers v.children)
                  (.ofChildren (proxy.children.getD [])) content.nodes)
  /-- Of these children it sees those that feed its own outermost sockets. -/
  scope : ∀ (name : Text) (target : Target) (rest : List Node) (content : Content Node),
    Node.Within (.socket name target rest content) v.nodes → ∀ P Q : ProxySet,
      P.AgreeOn (Node.outermostAll content.nodes) Q →
        Node.renderAll (renderChild controllers v.children) P content.nodes =
          Node.renderAll (renderChild controllers v.children) Q content.nodes

/-- A view with layered nodes sees the proxies of its outermost sockets only. -/
theorem proxyScope_of_layered (controllers : View → Lookup) {v : View}
    (h : Node.LayeredAll v.nodes) : ProxyScope controllers v := by
  refine ⟨fun P Q agree => ?_, ?_, ?_⟩
  · rw [renderWith_eq, renderWith_eq, Node.renderAll_congr h agree]
  · intro name target rest content hwithin hsockets P proxy hproxy
    have hnested := (h.of_within hwithin).eq_nested hsockets
    rw [hnested, Node.render, hproxy]
    rfl
  · intro name target rest content hwithin P Q agree
    exact Node.renderAll_congr (h.of_within hwithin).children agree

/-- No view of a compiled tree sees the proxy of an inner socket beside those of its outer ones. -/
theorem compile_proxyScope {label source : Text} {v d : View} (h : compile label source = .ok v)
    (hd : d ∈ v.descendants) (controllers : View → Lookup) : ProxyScope controllers d := by
  obtain ⟨page, hpage⟩ := exists_compiledFrom h hd
  exact proxyScope_of_layered controllers (layeredAll_of_compiledFrom hpage)

/-- Three sockets in each other, beside a child view that fills one. -/
def nestedSource : Text :=
  text "<ul af-sock='list'><li af-sock='item'>a<b af-sock='mark'>b</b></li></ul>" ++
    text "<p af-el='menu' af-sock='m'><i af-sock='item'>c</i></p>"

theorem compile_proxyScope_nestedSource : ∃ v, compile (text "list") nestedSource = .ok v ∧
    Node.outermostAll v.nodes = [text "list", text "m"] ∧
      ∀ d ∈ v.descendants, ∀ controllers, ProxyScope controllers d := by
  have houter : (compile (text "list") nestedSource).toOption.any
      (fun v => decide (Node.outermostAll v.nodes = [text "list", text "m"])) = true := by
    decide +kernel
  obtain ⟨v, hv, houter⟩ := exists_of_any houter
  exact ⟨v, hv, houter, fun d hd controllers => compile_proxyScope hv hd controllers⟩

end View

end Viewloom
