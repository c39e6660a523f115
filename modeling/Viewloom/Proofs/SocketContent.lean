import Viewloom.Proofs.Vacating

/-!
# Content that proxies replace

What stands between the tags of a socket is what the children of its proxy render to, or else its
authored content; only a style keeps its stylesheet. So pages that differ in the content of one socket
render alike where its proxies bring children.
-/

namespace Viewloom

open Markup (Element)

namespace Template

variable {names names' : List Names} {socket : Text} {components components' : Components}

/-! ## Rendering without the content of a socket -/

/-- A proxy of a socket, if there is one, brings children. -/
def BringsChildren (P : ProxySet) (socket : Text) : Prop :=
  ∀ proxy, P.get? socket = some proxy → proxy.children ≠ none

mutual

/-- Wherever rendering comes to a socket of a name, its proxy brings children. -/
def Node.Fed (socket : Text) (P : ProxySet) : Node → Prop
  | .element _ _ children => FedAll socket P children
  | .socket name _ _ .proxied => name = socket → BringsChildren P socket
  | .socket name _ _ (.fallback nodes) =>
    if name = socket then BringsChildren P socket else FedAll socket P nodes
  | .socket name _ _ (.nested nodes) =>
    if name = socket then BringsChildren P socket
    else
      ∀ proxy, P.get? name = some proxy → FedAll socket (.ofChildren (proxy.children.getD [])) nodes
  | _ => True

def Node.FedAll (socket : Text) (P : ProxySet) : List Node → Prop
  | [] => True
  | n :: ns => n.Fed socket P ∧ FedAll socket P ns

end

/-- The content of no socket of a name is nested. -/
def NotNested (socket : Text) (nodes : List Node) : Prop :=
  ∀ target inner content, ¬ Node.Within (.socket socket target inner (.nested content)) nodes

theorem NotNested.mono {ns ns' : List Node} (h : NotNested socket ns) (hsub : ns' ⊆ ns) :
    NotNested socket ns' :=
  fun target inner content hwithin => h target inner content (hwithin.mono hsub)

theorem NotNested.children {n : Node} (h : NotNested socket [n]) : NotNested socket n.children :=
  fun target inner content hwithin =>
    h target inner content (.under (List.mem_singleton_self n) hwithin)

mutual

/-- Whether a socket is fed does not depend on its content. -/
theorem fed_vacate_iff : ∀ {P : ProxySet} {n : Node}, (n.vacate socket).Fed socket P ↔ n.Fed socket P
  | _, .element _ _ children => fedAll_vacateAll_iff
  | _, .component _ _ _ => Iff.rfl
  | _, .text _ => Iff.rfl
  | _, .comment _ => Iff.rfl
  | _, .socket _ _ _ .proxied => Iff.rfl
  | P, .socket name target inner (.fallback nodes) => by
      by_cases hname : name = socket
      · simp [Node.vacate, Node.Fed, hname]
      · simp [Node.vacate, Node.Fed, hname, fedAll_vacateAll_iff]
  | P, .socket name target inner (.nested nodes) => by
      by_cases hname : name = socket
      · simp [Node.vacate, Node.Fed, hname]
      · simp [Node.vacate, Node.Fed, hname, fedAll_vacateAll_iff]

theorem fedAll_vacateAll_iff : ∀ {P : ProxySet} {ns : List Node},
    Node.FedAll socket P (Node.vacateAll socket ns) ↔ Node.FedAll socket P ns
  | _, [] => Iff.rfl
  | _, _ :: _ => and_congr fed_vacate_iff fedAll_vacateAll_iff

end

mutual

/-- Where a socket is fed, a node is rendered like the vacated one. -/
theorem render_vacate : ∀ {P : ProxySet} {n : Node}, NotNested socket [n] → n.Fed socket P →
    (n.vacate socket).render components P = n.render components P
  | P, .element tag properties children, hflat, hfed => by
      have hchildren : Node.renderAll components P (Node.vacateAll socket children) =
          Node.renderAll components P children := renderAll_vacateAll hflat.children hfed
      rw [Node.vacate, Node.render, Node.render, hchildren]
  | _, .component _ _ _, _, _ => rfl
  | _, .text _, _, _ => rfl
  | _, .comment _, _, _ => rfl
  | _, .socket _ _ _ .proxied, _, _ => rfl
  | P, .socket name target inner (.fallback nodes), hflat, hfed => by
      rw [Node.vacate, render_socket, render_socket]
      cases hproxy : P.get? name with
      | none => rfl
      | some proxy =>
          have hfill : Content.fill components P proxy
                (if name = socket then .proxied else .fallback (Node.vacateAll socket nodes)) =
              Content.fill components P proxy (.fallback nodes) := by
            rw [Node.Fed] at hfed
            split
            · next hname =>
              rw [if_pos hname] at hfed
              obtain ⟨children, hchildren⟩ :=
                Option.ne_none_iff_exists'.1 (hfed proxy (hname ▸ hproxy))
              simp only [Content.fill, hchildren, Option.getD_some]
            · next hname =>
              rw [if_neg hname] at hfed
              have hnodes : Node.renderAll components P (Node.vacateAll socket nodes) =
                  Node.renderAll components P nodes := renderAll_vacateAll hflat.children hfed
              simp only [Content.fill, hnodes]
          simp only [hfill]
  | P, .socket name target inner (.nested nodes), hflat, hfed => by
      have hname : ¬ name = socket := fun hname =>
        hflat target inner nodes (.here (hname ▸ List.mem_singleton_self _))
      rw [Node.Fed, if_neg hname] at hfed
      rw [Node.vacate, render_socket, render_socket, if_neg hname]
      cases hproxy : P.get? name with
      | none => rfl
      | some proxy =>
          have hnodes : Node.renderAll components (.ofChildren (proxy.children.getD []))
              (Node.vacateAll socket nodes) =
              Node.renderAll components (.ofChildren (proxy.children.getD [])) nodes :=
            renderAll_vacateAll hflat.children (hfed proxy hproxy)
          simp only [Content.fill, hnodes]

/-- Rendering does not see the content of a socket whose proxies bring children. -/
theorem renderAll_vacateAll : ∀ {P : ProxySet} {ns : List Node}, NotNested socket ns →
    Node.FedAll socket P ns →
      Node.renderAll components P (Node.vacateAll socket ns) = Node.renderAll components P ns
  | _, [], _, _ => rfl
  | P, n :: ns, hflat, hfed => by
      rw [Node.vacateAll, Node.renderAll, Node.renderAll, render_vacate (hflat.mono (by simp)) hfed.1,
        renderAll_vacateAll (hflat.mono (by simp)) hfed.2]

end

/-! ## Pages with other child views -/

/-- A node is made alike for names that give the same class to its tag. -/
theorem make_congr {written : Text}
    (h : classOf? names (baseTag written) = classOf? names' (baseTag written))
    (properties : List Property) (children : List Node) :
    Node.make names written properties children = Node.make names' written properties children := by
  have htag : componentTag? names written = componentTag? names' written := by
    unfold componentTag?
    unfold baseTag at h
    cases hsplit : splitSocketTag written with
    | none =>
        rw [hsplit] at h
        simp only [h]
    | some pair =>
        rw [hsplit] at h
        simp only [h]
  rw [Node.make, htag, Node.make]

mutual

/-- A markup is bound alike to names that give the same classes to its tags. -/
theorem bound_congr_node : ∀ {m : Markup.Node},
    m.All (fun tag attributes => classOf? names (baseTag (writtenTag tag attributes)) =
      classOf? names' (baseTag (writtenTag tag attributes))) → bound names [m] = bound names' [m]
  | .element tag attributes children, hm => by
      rw [bound_element, bound_element, make_congr hm.1, bound_congr hm.2]
  | .text _, _ => by rw [bound_text, bound_text]
  | .comment _, _ => by rw [bound_comment, bound_comment]

/-- The template depends on the child views that tags stand for, and on no others. -/
theorem bound_congr : ∀ {ms : List Markup.Node},
    Markup.Node.AllOf (fun tag attributes => classOf? names (baseTag (writtenTag tag attributes)) =
      classOf? names' (baseTag (writtenTag tag attributes))) ms → bound names ms = bound names' ms
  | [], _ => by rw [bound_nil, bound_nil]
  | m :: ms, hms => by
      rw [bound_cons, bound_congr_node hms.1, bound_congr hms.2, ← bound_cons]

end

/-- The components render the child view that a tag stands for alike. -/
def RendersAlike (names : List Names) (components components' : Components) (written : Text) : Prop :=
  ∀ className, classOf? names (baseTag written) = some className →
    components (controllerRef className) = components' (controllerRef className)

/-- A node is rendered alike if what its tag stands for and its children are. -/
theorem render_make_congr (hrefs : ∀ n ∈ names, ¬ openMark <:+: controllerRef n.className)
    {written : Text} (h : RendersAlike names components components' written) {children : List Node}
    (hchildren : ∀ P, Node.renderAll components P children = Node.renderAll components' P children)
    (P : ProxySet) (properties : List Property) :
    (Node.make names written properties children).render components P =
      (Node.make names written properties children).render components' P := by
  unfold RendersAlike baseTag at h
  rw [make_eq hrefs]
  cases hsplit : splitSocketTag written with
  | none =>
      rw [hsplit] at h
      cases hclass : classOf? names written with
      | none => simp [Node.render, hchildren]
      | some className => simp [Node.render, resolve, hclass, h className hclass]
  | some pair =>
      obtain ⟨base, socket⟩ := pair
      rw [hsplit] at h
      have hfill (P : ProxySet) (proxy : Proxy) :
          (contentOf children).fill components P proxy =
            (contentOf children).fill components' P proxy := by
        have hnodes := nodes_contentOf children
        cases hcontent : contentOf children with
        | proxied => rfl
        | fallback inner | nested inner =>
            have hinner : inner = children := by rwa [hcontent] at hnodes
            simp only [Content.fill, hinner, hchildren]
      dsimp only
      rw [render_socket, render_socket]
      cases hclass : classOf? names base with
      | none => simp [hfill]
      | some className => simp [resolve, hclass, h className hclass]

mutual

/-- A bound markup is rendered alike if what its tags stand for is. -/
theorem render_bound_congr (hrefs : ∀ n ∈ names, ¬ openMark <:+: controllerRef n.className) :
    ∀ (P : ProxySet) {m : Markup.Node}, m.All (fun tag attributes =>
        RendersAlike names components components' (writtenTag tag attributes)) →
      Node.renderAll components P (bound names [m]) = Node.renderAll components' P (bound names [m])
  | P, .element tag attributes children, hm => by
      rw [bound_element, renderAll_singleton, renderAll_singleton]
      refine render_make_congr hrefs hm.1 (fun P => ?_) P _
      split
      · rfl
      · exact renderAll_bound_congr hrefs P hm.2
  | P, .text value, _ => by
      rw [bound_text]
      split <;> rfl
  | P, .comment value, _ => by rw [bound_comment]; rfl

theorem renderAll_bound_congr (hrefs : ∀ n ∈ names, ¬ openMark <:+: controllerRef n.className) :
    ∀ (P : ProxySet) {ms : List Markup.Node},
      Markup.Node.AllOf (fun tag attributes =>
          RendersAlike names components components' (writtenTag tag attributes)) ms →
        Node.renderAll components P (bound names ms) = Node.renderAll components' P (bound names ms)
  | _, [], _ => by
      rw [bound_nil]
      rfl
  | P, m :: ms, hms => by
      rw [bound_cons, renderAll_append, renderAll_append, render_bound_congr hrefs P hms.1,
        renderAll_bound_congr hrefs P hms.2]

end

/-! ## What stands between the tags -/

/-- Injected markup of the second of two lists of properties goes before that of the first. -/
theorem innerHtml?_append (ps qs : List Property) :
    innerHtml? (ps ++ qs) = (innerHtml? qs).or (innerHtml? ps) := by
  induction ps with
  | nil => simp [innerHtml?]
  | cons p ps ih =>
      rw [List.cons_append, innerHtml?, ih, innerHtml?]
      cases innerHtml? qs with
      | some html => rfl
      | none => simp

/-- No attribute becomes injected markup. -/
theorem value_ofAttribute_ne (tag : Text) (a : Attribute) (html : Text) :
    (Property.ofAttribute tag a).value ≠ .innerHtml html := by
  unfold Property.ofAttribute
  dsimp only
  split
  · simp
  · dsimp only
    split <;> simp

/-- No attribute becomes the content of its element. -/
theorem innerHtml?_attributes (tag : Text) (attributes : List Attribute) (props : SortedMap Text) :
    innerHtml? (ownProperties (attributes.map (Property.ofAttribute tag)) props) = none := by
  induction attributes with
  | nil => rfl
  | cons a as ih =>
      rw [List.map_cons, ownProperties, List.filter_cons, ← ownProperties]
      split
      · rw [innerHtml?, ih]
        cases hvalue : (Property.ofAttribute tag a).value with
        | innerHtml html => exact absurd hvalue (value_ofAttribute_ne tag a html)
        | static | flag | style => rfl
      · exact ih

/-- The property that holds a stylesheet. -/
def rawProperty : Text := text "dangerouslySetInnerHTML"

/-- Only a style has raw content, and only if no property takes its place. -/
theorem innerHtml?_propertiesOf (tag : Text) (attributes : List Attribute)
    (children : List Markup.Node) (props : SortedMap Text) :
    innerHtml? (ownProperties (propertiesOf tag attributes children) props) =
      if tag = text "style" ∧ props.contains rawProperty = false then some (directText children)
      else none := by
  have hown (ps qs : List Property) :
      ownProperties (ps ++ qs) props = ownProperties ps props ++ ownProperties qs props :=
    List.filter_append ..
  rw [propertiesOf, hown, innerHtml?_append, innerHtml?_attributes, Option.or_none, contentProperties]
  split
  · next hstyle =>
    have hraw : text "dangerouslySetInnerHTML" = rawProperty := rfl
    cases hprops : props.contains rawProperty with
    | true => simp [ownProperties, hraw, hprops, innerHtml?]
    | false => simp [ownProperties, hraw, hprops, hstyle, innerHtml?]
  · next hstyle =>
    have hnot : ¬ (tag = text "style" ∧ props.contains rawProperty = false) := fun h => hstyle h.1
    rw [if_neg hnot]
    split
    · dsimp only [Option.getD_some]
      split
      · rfl
      · rw [ownProperties, List.filter_cons, List.filter_nil]
        split <;> rfl
    · rfl

/-- Content without further sockets gives way to the children of a proxy, and to nothing else. -/
theorem fill_contentOf {nodes : List Node} (h : Node.hasSocketAny nodes = false) (P : ProxySet)
    (proxy : Proxy) :
    (contentOf nodes).fill components P proxy =
      match proxy.children with
      | some children => ProxyNode.renderAll children
      | none => Node.renderAll components P nodes := by
  cases nodes with
  | nil =>
      have hnone : contentOf ([] : List Node) = .proxied := rfl
      rw [hnone, Content.fill]
      cases proxy.children <;> rfl
  | cons n ns =>
      have hfallback : contentOf (n :: ns) = .fallback (n :: ns) := by simp [contentOf, h]
      rw [hfallback]
      cases hchildren : proxy.children <;> simp only [Content.fill, hchildren]

/-- What stands between the tags of a socket. -/
def betweenTags (components : Components) (P : ProxySet) (e : Element) (target : Target)
    (content : Content Node) (proxy : Proxy) : Text :=
  if target.tag = text "style" ∧ proxy.props.contains rawProperty = false then directText e.children
  else
    match proxy.children with
    | some children => ProxyNode.renderAll children
    | none => Node.renderAll components P content.nodes

/-- How a socket that stands for an element is rendered. -/
structure Fills (components : Components) (e : Element) (name : Text) (target : Target)
    (inner : List Node) (content : Content Node) : Prop where
  /-- Nothing of the element is written without a proxy. -/
  absent : ∀ P : ProxySet, P.get? name = none →
    (Node.socket name target inner content).render components P = []
  filled : Node.hasSocketAny content.nodes = false → target.isComponent = false →
    Markup.isVoid target.tag = false → ∀ (P : ProxySet) (proxy : Proxy),
      P.get? name = some proxy →
        (Node.socket name target inner content).render components P =
          renderOpenTag target.tag target.properties proxy.props ++
            betweenTags components P e target content proxy ++ Markup.closeTag target.tag
  /-- The children of all proxies replace what is authored exactly if it is no stylesheet. -/
  replaced_iff : Node.hasSocketAny content.nodes = false → target.isComponent = false →
    Markup.isVoid target.tag = false →
      ((∀ (P : ProxySet) (proxy : Proxy) (children : List ProxyNode), P.get? name = some proxy →
        proxy.children = some children →
          (Node.socket name target inner content).render components P =
            renderOpenTag target.tag target.properties proxy.props ++
              ProxyNode.renderAll children ++ Markup.closeTag target.tag) ↔
        target.tag ≠ text "style")

/-- A socket without further sockets in it is rendered with its proxy's attributes, and with the
children of the proxy if it brings some. -/
theorem render_socketOf (components : Components) {e : Element} {base name : Text} {target : Target}
    {content : Content Node} (h : SocketOf names e base name target content) (inner : List Node)
    (hsockets : Node.hasSocketAny content.nodes = false) (hreference : target.isComponent = false)
    (hvoid : Markup.isVoid target.tag = false) {P : ProxySet} {proxy : Proxy}
    (hproxy : P.get? name = some proxy) :
    (Node.socket name target inner content).render components P =
      renderOpenTag target.tag target.properties proxy.props ++
        betweenTags components P e target content proxy ++ Markup.closeTag target.tag := by
  have hclass : classOf? names base = none := by
    rw [h.target] at hreference
    simpa using hreference
  have htag : target.tag = base := by rw [h.target, resolve_of_isNone hclass]
  have hbase : baseTag (written e) = base := by simp [baseTag, h.split]
  have hraw : innerHtml? (ownProperties target.properties proxy.props) =
      if target.tag = text "style" ∧ proxy.props.contains rawProperty = false then
        some (directText e.children)
      else none := by
    rw [htag, h.target, ← hbase]
    exact innerHtml?_propertiesOf ..
  have hfill : content.fill components P proxy =
      match proxy.children with
      | some children => ProxyNode.renderAll children
      | none => Node.renderAll components P content.nodes := by
    rw [h.content, nodes_contentOf] at hsockets ⊢
    exact fill_contentOf hsockets P proxy
  rw [render_socket, hproxy]
  simp only [renderElement, hreference, hvoid, hraw, hfill, betweenTags, Bool.false_eq_true, if_false]
  split
  · rw [Option.getD_some]
  · rw [Option.getD_none]

/-- A socket that stands for an element is rendered as the element is filled. -/
theorem fills_socketOf {e : Element} {base name : Text} {target : Target} {content : Content Node}
    (h : SocketOf names e base name target content) (inner : List Node) :
    Fills components e name target inner content := by
  refine ⟨fun P hnone => by rw [render_socket, hnone],
    fun hsockets hreference hvoid P proxy hproxy =>
      render_socketOf components h inner hsockets hreference hvoid hproxy,
    fun hsockets hreference hvoid => ?_⟩
  constructor
  · intro hreplaced hstyle
    -- Two proxies that bring different children would have to show one stylesheet.
    have hboth : ∀ children : List ProxyNode,
        directText e.children = ProxyNode.renderAll children := by
      intro children
      have hproxy : ((SortedMap.empty : ProxySet).insert name ⟨.empty, some children⟩).get? name =
          some ⟨.empty, some children⟩ := by simp
      have hrender := render_socketOf components h inner hsockets hreference hvoid hproxy
      rw [hreplaced _ _ _ hproxy rfl, betweenTags, if_pos ⟨hstyle, rfl⟩] at hrender
      exact (List.append_cancel_left (List.append_cancel_right hrender)).symm
    have hnone := hboth []
    rw [hboth [.text (text "x")]] at hnone
    exact absurd hnone (by decide)
  · intro hstyle P proxy children hproxy hchildren
    rw [render_socketOf components h inner hsockets hreference hvoid hproxy, betweenTags,
      if_neg fun h => hstyle h.1, hchildren]

end Template

namespace View

open Markup (remainder extractions)
open Template (Node Target Content bound baseTag writtenTag classOf? controllerRef)
open Template (KeepsContent NotNested SocketOf Fills)

/-- A child view that an element outside of a socket stands for is not in the content of the socket. -/
def ReachesOut (socket : Text) (page : List Markup.Node) (tag : Text)
    (attributes : List Attribute) : Prop :=
  ∀ e ∈ extractions page,
    Extraction.placeholderTag e.names.elementTag = baseTag (writtenTag tag attributes) →
      e ∈ extractions (Markup.Node.vacateAll socket page)

/-- The content of a socket is all in its element, and nothing else is. -/
structure Replaceable (socket : Text) (v : View) (page : List Markup.Node) : Prop where
  innermost : ∀ target inner content, Node.Within (.socket socket target inner content) v.nodes →
    Node.hasSocketAny content.nodes = false
  keeps : KeepsContent socket v.nodes
  outside : Markup.Node.AllOf (ReachesOut socket page)
    (Markup.Node.vacateAll socket (remainder page))

variable {socket : Text} {v v' : View} {page page' : List Markup.Node} {controllers : View → Lookup}

/-- A nested socket has sockets in its content. -/
theorem notNested_of_replaceable (hmade : MadeOf v page) (h : Replaceable socket v page) :
    NotNested socket v.nodes := by
  intro target inner nodes hwithin
  have hnone := h.innermost target inner _ hwithin
  rw [hmade.nodes] at hwithin
  obtain ⟨e, base, -, hsocket⟩ := Template.exists_socketOf hmade.refs hwithin
  have hcontent := hsocket.content
  unfold Template.contentOf at hcontent
  split at hcontent
  · cases hcontent
  · split at hcontent
    · next hsome =>
      cases hcontent
      rw [Content.nodes, hsome] at hnone
      cases hnone
    · cases hcontent

/-- A child view that is taken out of two pages is the same in the views of both. -/
theorem classOf?_of_shared (controllers : View → Lookup) (hmade : MadeOf v page)
    (hmade' : MadeOf v' page') {tag className : Text}
    (hshared : ∀ e ∈ extractions page, Extraction.placeholderTag e.names.elementTag = tag →
      e ∈ extractions page')
    (hclass : classOf? (v.children.map View.names) tag = some className) :
    classOf? (v'.children.map View.names) tag = some className ∧
      renderChild controllers v.children (controllerRef className) =
        renderChild controllers v'.children (controllerRef className) := by
  obtain ⟨n, hn, rfl, rfl⟩ := Template.mem_of_classOf? hclass
  rw [hmade.names] at hn
  obtain ⟨e, he, rfl⟩ := List.mem_map.1 hn
  have he' := hshared e he rfl
  constructor
  · rw [hmade'.names]
    refine Template.classOf?_placeholderTag (List.mem_map_of_mem he') ?_
    rw [List.map_map]
    exact hmade'.tags
  · funext supplied
    obtain ⟨w, hw, hrender⟩ := renderChild_of_mem controllers hmade.children hmade.classes he supplied
    obtain ⟨w', hw', hrender'⟩ :=
      renderChild_of_mem controllers hmade'.children hmade'.classes he' supplied
    rw [hw, Except.ok.injEq] at hw'
    rw [hrender, hrender', hw']

/-- The template of a view, vacated. -/
theorem vacateAll_nodes (hmade : MadeOf v page) (h : Replaceable socket v page) :
    remainder (Markup.Node.vacateAll socket page) =
        Markup.Node.vacateAll socket (remainder page) ∧
      Node.vacateAll socket v.nodes = bound (v.children.map View.names)
        (remainder (Markup.Node.vacateAll socket page)) ∧
      ∀ e ∈ extractions (Markup.Node.vacateAll socket page), e ∈ extractions page := by
  obtain ⟨ms, hms, hrest⟩ := hmade.taken
  obtain ⟨hremainder, hsub⟩ := Markup.remainder_vacateAll socket hms hrest
  have hkeeps := h.keeps
  rw [hmade.nodes] at hkeeps
  refine ⟨hremainder, ?_, fun e he => hsub.subset he⟩
  rw [hremainder, hmade.nodes,
    Template.bound_vacateAll hmade.refs (Markup.allOf_remainder_child page) hkeeps]

/-- A child view that an element outside of a socket stands for is taken out of every page that differs
in the content of the socket alone. -/
theorem ReachesOut.shared {tag : Text} {attributes : List Attribute}
    (h : ReachesOut socket page tag attributes)
    (hpages : Markup.Node.vacateAll socket page = Markup.Node.vacateAll socket page')
    (hmem : ∀ e ∈ extractions (Markup.Node.vacateAll socket page'), e ∈ extractions page') :
    ∀ e ∈ extractions page,
      Extraction.placeholderTag e.names.elementTag = baseTag (writtenTag tag attributes) →
        e ∈ extractions page' :=
  fun e he htag => hmem e (hpages ▸ h e he htag)

/-- Pages that differ in the content of a socket alone render alike where its proxies bring children. -/
theorem renderWith_eq_of_vacateAll (hmade : MadeOf v page) (hmade' : MadeOf v' page')
    (h : Replaceable socket v page) (h' : Replaceable socket v' page')
    (hpages : Markup.Node.vacateAll socket page = Markup.Node.vacateAll socket page') {P : ProxySet}
    (hfed : Node.FedAll socket P v.nodes) :
    renderWith controllers v P = renderWith controllers v' P := by
  obtain ⟨hremainder, hnodes, hmem⟩ := vacateAll_nodes hmade h
  obtain ⟨hremainder', hnodes', hmem'⟩ := vacateAll_nodes hmade' h'
  have houtside := h.outside
  have houtside' := h'.outside
  rw [← hremainder, hpages] at houtside
  rw [← hremainder'] at houtside'
  rw [hpages] at hnodes
  have halike := Markup.Node.allOf_imp (q := fun tag attributes =>
      Template.RendersAlike (v.children.map View.names) (renderChild controllers v.children)
        (renderChild controllers v'.children) (writtenTag tag attributes))
    (fun tag attributes hreach className hclass =>
      (classOf?_of_shared controllers hmade hmade' (hreach.shared hpages hmem') hclass).2) houtside
  have hclass := Markup.Node.allOf_imp (q := fun tag attributes =>
      classOf? (v.children.map View.names) (baseTag (writtenTag tag attributes)) =
        classOf? (v'.children.map View.names) (baseTag (writtenTag tag attributes)))
    (fun tag attributes hreach => Option.ext fun className =>
      ⟨fun hclass =>
        (classOf?_of_shared controllers hmade hmade' (hreach.1.shared hpages hmem') hclass).1,
      fun hclass =>
        (classOf?_of_shared controllers hmade' hmade (hreach.2.shared hpages.symm hmem) hclass).1⟩)
    (Markup.Node.allOf_and houtside houtside')
  have hbound := Template.bound_congr hclass
  rw [renderWith_eq, renderWith_eq,
    ← Template.renderAll_vacateAll (notNested_of_replaceable hmade h) hfed, hnodes,
    Template.renderAll_bound_congr hmade.refs P halike, hbound, ← hnodes',
    Template.renderAll_vacateAll (notNested_of_replaceable hmade' h')]
  rwa [← Template.fedAll_vacateAll_iff, hnodes', ← hbound, ← hnodes, Template.fedAll_vacateAll_iff]

/-- How the sockets of a view are rendered. -/
structure RendersSockets (controllers : View → Lookup) (v : View) (page : List Markup.Node) :
    Prop where
  /-- Every socket stands for an element that the page keeps, and takes what its proxy brings. -/
  sockets : ∀ name target inner content,
    Node.Within (.socket name target inner content) v.nodes →
      ∃ (e : Markup.Element) (base : Text), e.Within (remainder page) ∧
        SocketOf (v.children.map View.names) e base name target content ∧
          Fills (renderChild controllers v.children) e name target inner content
  /-- A page that differs in the content of one socket renders alike wherever its proxies bring
  children. -/
  alike : ∀ (socket : Text) (v' : View) (page' : List Markup.Node), CompiledFrom v' page' →
    Replaceable socket v page → Replaceable socket v' page' →
      Markup.Node.vacateAll socket page = Markup.Node.vacateAll socket page' →
        ∀ P : ProxySet, Node.FedAll socket P v.nodes →
          renderWith controllers v P = renderWith controllers v' P

/-- The sockets of a compiled view are rendered as their elements are filled. -/
theorem rendersSockets_of_compiledFrom (controllers : View → Lookup) (h : CompiledFrom v page) :
    RendersSockets controllers v page := by
  have hmade := madeOf_of_compiledFrom h
  constructor
  · intro name target inner content hwithin
    rw [hmade.nodes] at hwithin
    obtain ⟨e, base, he, hsocket⟩ := Template.exists_socketOf hmade.refs hwithin
    exact ⟨e, base, he, hsocket, Template.fills_socketOf hsocket inner⟩
  · intro socket v' page' h' hreplaceable hreplaceable' hpages P hfed
    exact renderWith_eq_of_vacateAll hmade (madeOf_of_compiledFrom h') hreplaceable hreplaceable'
      hpages hfed

/-- In every view of a compiled source, the children of a proxy take the place of what is authored in
a socket, unless that is a stylesheet. -/
theorem compile_rendersSockets {label source : Text} {v : View} (h : compile label source = .ok v)
    (controllers : View → Lookup) :
    List.Forall₂ (RendersSockets controllers) v.descendants (Markup.pages (sourcePage source)) :=
  (forall₂_compiledFrom h).imp fun _ _ hpage => rendersSockets_of_compiledFrom controllers hpage

/-- A socket with a text in it, and one with a child view, beside another child view. -/
def plainSource : Text := text "<div><p af-sock='x'>a</p><b af-el='nav'>c</b></div>"

def richSource : Text :=
  text "<div><p af-sock='x'><i af-el='menu'>d</i></p><b af-el='nav'>c</b></div>"

/-- A proxy with children for a single socket. -/
def feeding (socket : Text) (children : List ProxyNode) : ProxySet :=
  SortedMap.empty.insert socket ⟨.empty, some children⟩

/-- Whether a node, if it is a socket of a name, gives way to what a proxy brings: no socket stands in
its content, and its target is neither a style nor a text area. -/
def yields (socket : Text) : Node → Bool
  | .socket name target _ content =>
    name != socket || (!Node.hasSocketAny content.nodes && !Template.holdsText target.tag)
  | _ => true

/-- The content of a socket can be replaced if every socket of its name yields, and no child view
that is used outside stands in it. -/
theorem replaceable_of_yields (hnodes : (Node.listedAll v.nodes).all (yields socket) = true)
    (houtside : Markup.Node.AllOf (ReachesOut socket page)
      (Markup.Node.vacateAll socket (remainder page))) : Replaceable socket v page := by
  have hall : ∀ target inner content, Node.Within (.socket socket target inner content) v.nodes →
      Node.hasSocketAny content.nodes = false ∧ Template.holdsText target.tag = false := by
    intro target inner content hwithin
    simpa [yields] using List.all_eq_true.1 hnodes _ (Template.mem_listedAll hwithin)
  exact ⟨fun target inner content h => (hall target inner content h).1,
    fun target inner content h => (hall target inner content h).2, houtside⟩

deriving instance DecidableEq for Extraction

instance (socket : Text) (page : List Markup.Node) (tag : Text) (attributes : List Attribute) :
    Decidable (ReachesOut socket page tag attributes) :=
  inferInstanceAs (Decidable (∀ e ∈ extractions page, _ → e ∈ _))

theorem compile_rendersSockets_plainSource : ∃ v w,
    compile (text "page") plainSource = .ok v ∧ compile (text "page") richSource = .ok w ∧
      ∀ controllers,
        List.Forall₂ (RendersSockets controllers) v.descendants
            (Markup.pages (sourcePage plainSource)) ∧
          ∀ children, renderWith controllers v (feeding (text "x") children) =
            renderWith controllers w (feeding (text "x") children) := by
  have hnodes : (compile (text "page") plainSource).toOption.any (fun v => decide (v.nodes =
      [.element (text "div") [] [.socket (text "x") ⟨text "p", [], false⟩ []
        (.fallback [.text (text "a")]), .component (text "NavView.Controller") [] []]])) = true := by
    decide +kernel
  have hyields' : (compile (text "page") richSource).toOption.any (fun w => decide
      ((Node.listedAll w.nodes).all (yields (text "x")) = true)) = true := by decide +kernel
  obtain ⟨v, hv, hnodes⟩ := exists_of_any hnodes
  obtain ⟨w, hw, hyields'⟩ := exists_of_any hyields'
  have hyields : (Node.listedAll v.nodes).all (yields (text "x")) = true := by
    rw [hnodes]
    decide
  refine ⟨v, w, hv, hw, fun controllers => ⟨compile_rendersSockets hv controllers, ?_⟩⟩
  intro children
  have hfed : Node.FedAll (text "x") (feeding (text "x") children) v.nodes := by
    rw [hnodes]
    simp [Node.FedAll, Node.Fed, Template.BringsChildren, feeding]
  have hrenders := compile_rendersSockets hv controllers
  have hpages := forall₂_compiledFrom hw
  obtain ⟨_, _, _, _, _, _, _⟩ := v
  obtain ⟨_, _, _, _, _, _, _⟩ := w
  rw [descendants, Markup.pages, List.forall₂_cons] at hrenders hpages
  exact hrenders.1.alike (text "x") _ _ hpages.1 (replaceable_of_yields hyields (by decide +kernel))
    (replaceable_of_yields hyields' (by decide +kernel)) (by decide +kernel) _ hfed

end View

end Viewloom
