import Viewloom.Proofs.Origins

/-!
# Pages without the content of a socket

A page is vacated of a socket when the content of that socket is dropped, with the child views in it.
Vacating commutes with all that is done to a page on its way to a template.
-/

namespace Viewloom

namespace Markup

open Template (writtenTag)

/-- Whether the tag of an element is written with the name of a socket. -/
def isSocketOf (socket tag : Text) (attributes : List Attribute) : Bool :=
  (splitSocketTag (writtenTag tag attributes)).map Prod.snd == some socket

mutual

/-- Drops the content of a socket. What belongs to child views stays. -/
def Node.vacate (socket : Text) : Node → Node
  | .element tag attributes children =>
    if Attribute.has childMarker attributes then .element tag attributes children
    else if isSocketOf socket tag attributes then .element tag attributes []
    else .element tag attributes (vacateAll socket children)
  | n => n

def Node.vacateAll (socket : Text) : List Node → List Node
  | [] => []
  | n :: ns => n.vacate socket :: vacateAll socket ns

end

variable {socket : Text}

theorem Node.vacateAll_append (ns ms : List Node) :
    Node.vacateAll socket (ns ++ ms) = Node.vacateAll socket ns ++ Node.vacateAll socket ms := by
  induction ns with
  | nil => rfl
  | cons n ns ih => simp [Node.vacateAll, ih]

theorem Node.vacate_childless (socket tag : Text) (attributes : List Attribute) :
    (Node.element tag attributes []).vacate socket = .element tag attributes [] := by
  simp [Node.vacate, Node.vacateAll]

/-- Vacating leaves the texts of a list of nodes as they are. -/
theorem directText_vacateAll (ns : List Node) :
    Template.directText (Node.vacateAll socket ns) = Template.directText ns := by
  induction ns with
  | nil => rfl
  | cons n ns ih =>
      cases n with
      | element =>
          simp only [Node.vacateAll, Node.vacate]
          split
          · simp [Template.directText, ih]
          · split <;> simp [Template.directText, ih]
      | text | comment => simp [Node.vacateAll, Node.vacate, Template.directText, ih]

/-! ## On the way to the template -/

/-- Scoping changes no written tag. -/
theorem writtenTag_scope (tag : Text) (attributes : List Attribute) :
    writtenTag tag (scopeAttributes attributes) = writtenTag tag attributes := by
  rw [writtenTag, writtenTag, get?_scopeAttributes class_ne_socketMarker]

mutual

/-- A node can be vacated before it is scoped or after. -/
theorem Node.scope_vacate (css : Bool) : ∀ n : Node,
    (n.vacate socket).scope css = (n.scope css).vacate socket
  | .element tag attributes children => by
      have hchild : Attribute.has childMarker (scopeAttributes attributes) =
          Attribute.has childMarker attributes := by
        rw [Attribute.has, get?_scopeAttributes class_ne_childMarker, Attribute.has]
      have hsocket : isSocketOf socket tag (scopeAttributes attributes) =
          isSocketOf socket tag attributes := by
        rw [isSocketOf, writtenTag_scope, isSocketOf]
      simp only [Node.vacate, Node.scope, hchild, hsocket]
      split
      · rw [Node.scope]
      · split
        · simp [Node.scope, Node.scopeAll]
        · rw [Node.scope, Node.scopeAll_vacateAll _ children]
  | .text _ => rfl
  | .comment _ => rfl

theorem Node.scopeAll_vacateAll (css : Bool) : ∀ ns : List Node,
    Node.scopeAll css (Node.vacateAll socket ns) = Node.vacateAll socket (Node.scopeAll css ns)
  | [] => rfl
  | n :: ns => by
      simp only [Node.vacateAll, Node.scopeAll, Node.scope_vacate css n,
        Node.scopeAll_vacateAll css ns]

end

mutual

/-- Vacating takes away some extractions and changes no others. -/
theorem ofNode_vacate : ∀ {n m : Node} {es : List Extraction}, Extraction.ofNode n = .ok (m, es) →
    ∃ es', Extraction.ofNode (n.vacate socket) = .ok (m.vacate socket, es') ∧ es'.Sublist es
  | .element tag attributes children, m, es, h => by
      rcases Extraction.ofNode_element h with ⟨label, names, hlabel, -, rfl, -⟩ | ⟨hnone, ms, hms, rfl⟩
      · refine ⟨es, ?_, .refl es⟩
        rw [Node.vacate, if_pos (by simp [Attribute.has, hlabel]), h, Extraction.placeholder,
          Node.vacate_childless]
      · have hmarker : ¬ Attribute.has childMarker attributes = true := by
          simp [Attribute.has, hnone]
        rw [Node.vacate, Node.vacate, if_neg hmarker, if_neg hmarker]
        split
        · exact ⟨[], by simp [Extraction.ofNode, Extraction.ofNodes, hnone], List.nil_sublist es⟩
        · obtain ⟨es', hes', hsub⟩ := ofNodes_vacateAll hms
          exact ⟨es', by simp [Extraction.ofNode, hnone, hes'], hsub⟩
  | .text value, m, es, h => by
      obtain ⟨rfl, rfl⟩ := Extraction.ofNode_text h
      exact ⟨[], rfl, List.nil_sublist _⟩
  | .comment value, m, es, h => by
      obtain ⟨rfl, rfl⟩ := Extraction.ofNode_comment h
      exact ⟨[], rfl, List.nil_sublist _⟩

/-- What is taken out of a vacated page is taken out of the page as well. -/
theorem ofNodes_vacateAll : ∀ {ns ms : List Node} {es : List Extraction},
    Extraction.ofNodes ns = .ok (ms, es) →
      ∃ es', Extraction.ofNodes (Node.vacateAll socket ns) = .ok (Node.vacateAll socket ms, es') ∧
        es'.Sublist es
  | [], ms, es, h => by
      obtain ⟨rfl, rfl⟩ := Extraction.ofNodes_nil h
      exact ⟨[], rfl, List.nil_sublist _⟩
  | n :: ns, ms, es, h => by
      obtain ⟨m, ms', es₁, es₂, hn, hns, rfl, rfl⟩ := Extraction.ofNodes_cons h
      obtain ⟨es₁', h₁, hsub₁⟩ := ofNode_vacate hn
      obtain ⟨es₂', h₂, hsub₂⟩ := ofNodes_vacateAll hns
      exact ⟨es₁' ++ es₂', by simp [Node.vacateAll, Extraction.ofNodes, h₁, h₂],
        hsub₁.append hsub₂⟩

end

mutual

/-- A node can be vacated before it is cleaned up or after. -/
theorem cleanUp_vacate : ∀ n : Node,
    cleanUp [n.vacate socket] = Node.vacateAll socket (cleanUp [n])
  | .element tag attributes children => by
      have hchildren := cleanUp_vacateAll children
      have hempty := Node.vacate_childless socket tag (Attribute.erase emptyMarker attributes)
      rw [Node.vacate]
      split
      · next hchild =>
        rw [cleanUp_element]
        split
        · rfl
        · split
          · simp [Node.vacateAll, hempty]
          · simp [Node.vacateAll, Node.vacate, hchild]
      · next hchild =>
        split
        · next hsocket =>
          rw [cleanUp_element, cleanUp_element, cleanUp_nil]
          split
          · rfl
          · split
            · simp [Node.vacateAll, hempty]
            · simp [Node.vacateAll, Node.vacate, hchild, hsocket]
        · next hsocket =>
          rw [cleanUp_element, cleanUp_element, hchildren]
          split
          · rfl
          · split
            · simp [Node.vacateAll, hempty]
            · simp [Node.vacateAll, Node.vacate, hchild, hsocket]
  | .text _ => rfl
  | .comment _ => rfl

theorem cleanUp_vacateAll : ∀ ns : List Node,
    cleanUp (Node.vacateAll socket ns) = Node.vacateAll socket (cleanUp ns)
  | [] => rfl
  | n :: ns => by
      rw [Node.vacateAll, cleanUp_cons, cleanUp_cons n ns, cleanUp_vacate n, cleanUp_vacateAll ns,
        Node.vacateAll_append]

end

/-- A vacated page keeps what its page keeps, vacated. -/
theorem remainder_vacateAll (socket : Text) {page ms : List Node}
    (h : Extraction.ofNodes (scope page) = .ok (ms, extractions page))
    (hrest : remainder page = cleanUp ms) :
    remainder (Node.vacateAll socket page) = Node.vacateAll socket (remainder page) ∧
      (extractions (Node.vacateAll socket page)).Sublist (extractions page) := by
  obtain ⟨es', hes', hsub⟩ : ∃ es', Extraction.ofNodes (Node.vacateAll socket (scope page)) =
      .ok (Node.vacateAll socket ms, es') ∧ es'.Sublist (extractions page) := ofNodes_vacateAll h
  have hdecompose : decompose (scope (Node.vacateAll socket page)) =
      .ok (cleanUp (Node.vacateAll socket ms), es') := by
    rw [decompose, scope, Node.scopeAll_vacateAll, ← scope, hes']
  constructor
  · rw [remainder, hdecompose, hrest, cleanUp_vacateAll]
  · rw [extractions, hdecompose]
    exact hsub

mutual

theorem Node.all_of_forall {p : Text → List Attribute → Prop} (h : ∀ tag attributes, p tag attributes) :
    ∀ n : Node, n.All p
  | .element _ _ children => ⟨h _ _, Node.allOf_of_forall h children⟩
  | .text _ => trivial
  | .comment _ => trivial

theorem Node.allOf_of_forall {p : Text → List Attribute → Prop}
    (h : ∀ tag attributes, p tag attributes) : ∀ ns : List Node, Node.AllOf p ns
  | [] => trivial
  | n :: ns => ⟨Node.all_of_forall h n, Node.allOf_of_forall h ns⟩

end

/-- No element that a page keeps stands for a child view of its own. -/
theorem allOf_remainder_child (page : List Node) :
    Node.AllOf (fun _ attributes => Attribute.get? childMarker attributes = none)
      (remainder page) := by
  rcases remainder_cases page with ⟨hnil, -⟩ | ⟨ms, hms, hrest⟩
  · rw [hnil]
    trivial
  have hextracted : Node.AllOf
      (fun _ attributes => Attribute.get? childMarker attributes = none) ms := by
    refine allOf_of_ofNodes (fun _ _ _ hnone => hnone) (fun _ attributes _ _ _ _ _ => ?_)
      (Node.allOf_of_forall (p := fun _ _ => True) (fun _ _ => trivial) _) hms
    have hne : socketMarker ≠ childMarker := by decide
    cases Attribute.get? socketMarker attributes <;> simp [Attribute.get?, hne]
  rw [hrest]
  refine allOf_cleanUp (fun _ _ h _ _ _ => h) (fun _ attributes h _ _ => ?_) hextracted
  rwa [Attribute.get?_erase_of_ne (by decide)]

end Markup

namespace Template

variable {names names' : List Names} {socket : Text}

mutual

/-- Drops the content of a socket of a template. -/
def Node.vacate (socket : Text) : Node → Node
  | .element tag properties children => .element tag properties (vacateAll socket children)
  | .component tag properties children => .component tag properties (vacateAll socket children)
  | .socket name target inner (.fallback nodes) =>
    .socket name target inner
      (if name = socket then .proxied else .fallback (vacateAll socket nodes))
  | .socket name target inner (.nested nodes) =>
    .socket name target inner (if name = socket then .proxied else .nested (vacateAll socket nodes))
  | n => n

def Node.vacateAll (socket : Text) : List Node → List Node
  | [] => []
  | n :: ns => n.vacate socket :: vacateAll socket ns

end

theorem vacateAll_append (ns ms : List Node) :
    Node.vacateAll socket (ns ++ ms) = Node.vacateAll socket ns ++ Node.vacateAll socket ms := by
  induction ns with
  | nil => rfl
  | cons n ns ih => simp [Node.vacateAll, ih]

mutual

/-- A vacated node has a socket exactly if the node has one. -/
theorem hasSocket_vacate : ∀ n : Node, (n.vacate socket).hasSocket = n.hasSocket
  | .element _ _ children => hasSocketAny_vacateAll children
  | .component _ _ children => hasSocketAny_vacateAll children
  | .text _ => rfl
  | .comment _ => rfl
  | .socket _ _ _ .proxied => rfl
  | .socket _ _ _ (.fallback _) => rfl
  | .socket _ _ _ (.nested _) => rfl

theorem hasSocketAny_vacateAll : ∀ ns : List Node,
    Node.hasSocketAny (Node.vacateAll socket ns) = Node.hasSocketAny ns
  | [] => rfl
  | n :: ns => by
      rw [Node.vacateAll, Node.hasSocketAny, hasSocket_vacate n, hasSocketAny_vacateAll ns,
        Node.hasSocketAny]

end

/-- A socket keeps the kind of its content when others are vacated in it. -/
theorem vacate_socket (name : Text) (target : Target) (inner nodes : List Node) :
    (Node.socket name target inner (contentOf nodes)).vacate socket =
      .socket name target inner
        (if name = socket then .proxied else contentOf (Node.vacateAll socket nodes)) := by
  have hempty : (Node.vacateAll socket nodes).isEmpty = nodes.isEmpty := by cases nodes <;> rfl
  unfold contentOf
  rw [hempty, hasSocketAny_vacateAll]
  split
  · simp [Node.vacate]
  · split <;> rw [Node.vacate]

/-- A node that is no socket of a name is vacated in its content. -/
theorem make_vacate (hrefs : ∀ n ∈ names, ¬ openMark <:+: controllerRef n.className)
    {written : Text} (h : (splitSocketTag written).map Prod.snd ≠ some socket)
    (properties : List Property) (children : List Node) :
    (Node.make names written properties children).vacate socket =
      Node.make names written properties (Node.vacateAll socket children) := by
  rw [make_eq hrefs, make_eq hrefs]
  cases hsplit : splitSocketTag written with
  | none =>
      dsimp only
      split <;> rfl
  | some pair =>
      have hname : ¬ pair.2 = socket := by simpa [hsplit] using h
      exact (vacate_socket ..).trans (by rw [if_neg hname])

/-- The socket of a name itself is vacated of all its content. -/
theorem make_vacate_self (hrefs : ∀ n ∈ names, ¬ openMark <:+: controllerRef n.className)
    {written base : Text} (h : splitSocketTag written = some (base, socket))
    (properties : List Property) (children : List Node) :
    (Node.make names written properties children).vacate socket =
      Node.make names written properties [] := by
  rw [make_eq hrefs, make_eq hrefs, h]
  exact (vacate_socket ..).trans (by rw [if_pos rfl]; rfl)

/-- A tag holds no text as a property if what it stands for holds none. -/
theorem holdsText_of_resolve {base : Text} (h : holdsText (resolve names base) = false) :
    holdsText base = false := by
  cases hclass : classOf? names base with
  | none => rwa [resolve_of_isNone hclass] at h
  | some className =>
      obtain ⟨n, -, -, rfl⟩ := mem_of_classOf? hclass
      have hstart : text "af-" = ['a', 'f', '-'] := by decide
      have hstyle : text "style" = ['s', 't', 'y', 'l', 'e'] := by decide
      have harea : text "textarea" = ['t', 'e', 'x', 't', 'a', 'r', 'e', 'a'] := by decide
      simp [holdsText, Extraction.placeholderTag, hstart, hstyle, harea]

/-- No socket of a name has the tag of a style or of a text area. -/
def KeepsContent (socket : Text) (nodes : List Node) : Prop :=
  ∀ target inner content, Node.Within (.socket socket target inner content) nodes →
    holdsText target.tag = false

theorem KeepsContent.mono {ns ns' : List Node} (h : KeepsContent socket ns) (hsub : ns' ⊆ ns) :
    KeepsContent socket ns' :=
  fun target inner content hwithin => h target inner content (hwithin.mono hsub)

theorem KeepsContent.children {n : Node} {ns : List Node} (h : KeepsContent socket ns) (hn : n ∈ ns) :
    KeepsContent socket n.children :=
  fun target inner content hwithin => h target inner content (.under hn hwithin)

mutual

/-- A markup can be vacated before it is bound or after. -/
theorem bound_vacate (hrefs : ∀ n ∈ names, ¬ openMark <:+: controllerRef n.className) :
    ∀ {m : Markup.Node}, m.All (fun _ attributes => Attribute.get? childMarker attributes = none) →
      KeepsContent socket (bound names [m]) →
        bound names [m.vacate socket] = Node.vacateAll socket (bound names [m])
  | .element tag attributes children, hm, hkeeps => by
      have hchild : ¬ Attribute.has childMarker attributes = true := by simp [Attribute.has, hm.1]
      rw [Markup.Node.vacate, if_neg hchild]
      split
      · next hsocket =>
        obtain ⟨base, hsplit⟩ : ∃ base, splitSocketTag (writtenTag tag attributes) =
            some (base, socket) := by simpa [Markup.isSocketOf] using hsocket
        have hbase : baseTag (writtenTag tag attributes) = base := by simp [baseTag, hsplit]
        have hholds : holdsText base = false := by
          rw [bound_element, make_eq hrefs, hsplit] at hkeeps
          exact holdsText_of_resolve (hkeeps _ _ _ (.here (List.mem_singleton_self _)))
        have hproperties : propertiesOf base (Attribute.erase socketMarker attributes) [] =
            propertiesOf base (Attribute.erase socketMarker attributes) children := by
          have hnone (ns : List Markup.Node) : contentProperties base ns = none := by
            rw [← Option.not_isSome_iff_eq_none, isSome_contentProperties, hholds]
            simp
          rw [propertiesOf, propertiesOf, hnone, hnone]
        rw [bound_element, bound_element, hbase, hproperties]
        simp only [hholds, Node.vacateAll, make_vacate_self hrefs hsplit, bound_nil]
        rfl
      · next hsocket =>
        have hname : (splitSocketTag (writtenTag tag attributes)).map Prod.snd ≠ some socket := by
          simpa [Markup.isSocketOf] using hsocket
        have hchildren : ¬ holdsText (baseTag (writtenTag tag attributes)) = true →
            bound names (Markup.Node.vacateAll socket children) =
              Node.vacateAll socket (bound names children) := by
          intro hholds
          refine bound_vacateAll hrefs hm.2 ?_
          rw [bound_element] at hkeeps
          have hinner := hkeeps.children (List.mem_singleton_self _)
          rwa [children_make, if_neg hholds] at hinner
        rw [bound_element, bound_element, propertiesOf_congr (Markup.directText_vacateAll children)]
        rw [Node.vacateAll, Node.vacateAll, make_vacate hrefs hname]
        split
        · rfl
        · next hholds => rw [hchildren hholds]
  | .text value, _, _ => by
      have hself : (Markup.Node.text value).vacate socket = .text value := rfl
      rw [hself, bound_text]
      split <;> rfl
  | .comment value, _, _ => by
      have hself : (Markup.Node.comment value).vacate socket = .comment value := rfl
      rw [hself, bound_comment]
      rfl

/-- The template of a vacated page is the vacated template. -/
theorem bound_vacateAll (hrefs : ∀ n ∈ names, ¬ openMark <:+: controllerRef n.className) :
    ∀ {ms : List Markup.Node},
      Markup.Node.AllOf (fun _ attributes => Attribute.get? childMarker attributes = none) ms →
      KeepsContent socket (bound names ms) →
        bound names (Markup.Node.vacateAll socket ms) = Node.vacateAll socket (bound names ms)
  | [], _, _ => by
      rw [Markup.Node.vacateAll, bound_nil]
      rfl
  | m :: ms, hms, hkeeps => by
      rw [bound_cons] at hkeeps
      rw [Markup.Node.vacateAll, bound_cons, bound_cons names m, vacateAll_append,
        bound_vacate hrefs hms.1 (hkeeps.mono (List.subset_append_left ..)),
        bound_vacateAll hrefs hms.2 (hkeeps.mono (List.subset_append_right ..))]

end

end Template

end Viewloom
