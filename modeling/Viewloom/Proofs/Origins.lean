import Viewloom.Proofs.OpeningTags
import Viewloom.Proofs.SocketScope

/-!
# Where the nodes of a template come from

Every element, reference and socket of a template stands for an element that its view keeps of its
page.
-/

namespace Viewloom

open Markup (Element)

/-- An element stands among nodes, or somewhere below them. -/
inductive Markup.Element.Within (e : Element) : List Markup.Node → Prop where
  | here {ns : List Markup.Node} (h : e.toNode ∈ ns) : Within e ns
  | under {outer : Element} {ns : List Markup.Node} (hm : outer.toNode ∈ ns)
      (h : Within e outer.children) : Within e ns

namespace Template

/-- The tag that an element of a page is written with. -/
def written (e : Element) : Text := writtenTag e.tag e.attributes

/-- What stands in the template for the content of an element. -/
def contentNodes (names : List Names) (e : Element) : List Node :=
  if holdsText (baseTag (written e)) then [] else bound names e.children

/-- The properties of the node of an element. -/
def ownedProperties (e : Element) : List Property :=
  propertiesOf (baseTag (written e)) (Attribute.erase socketMarker e.attributes) e.children

/-- The node of an element. -/
def Node.ofElement (names : List Names) (e : Element) : Node :=
  Node.make names (written e) (ownedProperties e) (contentNodes names e)

variable {names : List Names} {n : Node} {ms : List Markup.Node}

theorem children_bindTag (isComponent : Bool) (tag : Text) (properties : List Property)
    (children : List Node) : (bindTag isComponent tag properties children).1.children = children := by
  unfold bindTag
  split
  · exact nodes_contentOf children
  · cases isComponent <;> rfl

/-- What an element is bound to holds what is bound of its content. -/
theorem children_make (names : List Names) (written : Text) (properties : List Property)
    (children : List Node) : (Node.make names written properties children).children = children := by
  unfold Node.make
  split <;> exact children_bindTag ..

/-- Whether a node has a tag. -/
def Node.isTagged : Node → Bool
  | .text _ => false
  | .comment _ => false
  | _ => true

/-- A bound node is made of an element of the page, or of a text or a comment. -/
theorem exists_element_of_mem (h : n ∈ bound names ms) :
    (∃ e : Element, e.toNode ∈ ms ∧ n = Node.ofElement names e) ∨
      n.isTagged = false ∧ n.children = [] := by
  induction ms with
  | nil => simp at h
  | cons m ms ih =>
      rw [bound_cons, List.mem_append] at h
      rcases h with h | h
      · cases m with
        | element tag attributes children =>
            rw [bound_element, List.mem_singleton] at h
            exact .inl ⟨⟨tag, attributes, children⟩, List.mem_cons_self, h⟩
        | text value =>
            rw [bound_text] at h
            split at h
            · cases h
            · exact .inr (List.mem_singleton.1 h ▸ ⟨rfl, rfl⟩)
        | comment value =>
            rw [bound_comment] at h
            exact .inr (List.mem_singleton.1 h ▸ ⟨rfl, rfl⟩)
      · exact (ih h).imp_left fun ⟨e, he, hn⟩ => ⟨e, List.mem_cons_of_mem _ he, hn⟩

/-- Every node with a tag is the node of an element at some depth. -/
theorem exists_element_of_within (h : n.Within (bound names ms)) (htagged : n.isTagged = true) :
    ∃ e : Element, e.Within ms ∧ n = Node.ofElement names e := by
  generalize hns : bound names ms = ns at h
  induction h generalizing ms with
  | here hn =>
      rcases exists_element_of_mem (hns ▸ hn) with ⟨e, he, hn⟩ | ⟨huntagged, -⟩
      · exact ⟨e, .here he, hn⟩
      · simp [htagged] at huntagged
  | under hm hn ih =>
      rcases exists_element_of_mem (hns ▸ hm) with ⟨outer, houter, rfl⟩ | ⟨-, hnone⟩
      · rw [Node.ofElement, children_make, contentNodes] at hn ih
        split at hn
        · cases hn with
          | here hn => cases hn
          | under hm => cases hm
        · next hholds =>
          rw [if_neg hholds] at ih
          obtain ⟨e, he, hn⟩ := ih rfl
          exact ⟨e, .under houter he, hn⟩
      · rw [hnone] at hn
        cases hn with
        | here hn => cases hn
        | under hm => cases hm

/-! ## All nodes of a template -/

mutual

/-- A node and the nodes below it. -/
def Node.listed : Node → List Node
  | .element tag properties children => .element tag properties children :: listedAll children
  | .component tag properties children => .component tag properties children :: listedAll children
  | .socket name target inner .proxied => [.socket name target inner .proxied]
  | .socket name target inner (.fallback nodes) =>
    .socket name target inner (.fallback nodes) :: listedAll nodes
  | .socket name target inner (.nested nodes) =>
    .socket name target inner (.nested nodes) :: listedAll nodes
  | n => [n]

def Node.listedAll : List Node → List Node
  | [] => []
  | n :: ns => n.listed ++ listedAll ns

end

theorem listed_eq (n : Node) : n.listed = n :: Node.listedAll n.children := by
  cases n with
  | element | component | text | comment => rfl
  | socket name target inner content => cases content <;> rfl

theorem listed_subset {n : Node} {ns : List Node} (h : n ∈ ns) : n.listed ⊆ Node.listedAll ns := by
  induction ns with
  | nil => cases h
  | cons m ns ih =>
      rw [Node.listedAll]
      rcases List.mem_cons.1 h with rfl | h
      · exact List.subset_append_left ..
      · exact List.Subset.trans (ih h) (List.subset_append_right ..)

/-- A node within others is listed among them. -/
theorem mem_listedAll {n : Node} {ns : List Node} (h : n.Within ns) : n ∈ Node.listedAll ns := by
  induction h with
  | here hn =>
      refine listed_subset hn ?_
      rw [listed_eq]
      exact List.mem_cons_self
  | under hm _ ih =>
      refine listed_subset hm ?_
      rw [listed_eq]
      exact List.mem_cons_of_mem _ ih

/-! ## Nodes by their kinds -/

variable {e : Element}

/-- What an element is made into depends on the tag it is written with. -/
theorem ofElement_eq (hrefs : ∀ n ∈ names, ¬ openMark <:+: controllerRef n.className) (e : Element) :
    Node.ofElement names e =
      match splitSocketTag (written e) with
      | some (base, socket) =>
        .socket socket ⟨resolve names base, ownedProperties e, (classOf? names base).isSome⟩ []
          (contentOf (contentNodes names e))
      | none =>
        if (classOf? names (written e)).isSome then
          .component (resolve names (written e)) (ownedProperties e) (contentNodes names e)
        else .element (resolve names (written e)) (ownedProperties e) (contentNodes names e) :=
  make_eq hrefs ..

theorem resolve_of_isNone {tag : Text} (h : classOf? names tag = none) : resolve names tag = tag := by
  simp [resolve, h]

/-- How a socket stands for an element. -/
structure SocketOf (names : List Names) (e : Element) (base name : Text) (target : Target)
    (content : Content Node) : Prop where
  split : splitSocketTag (written e) = some (base, name)
  target : target = ⟨resolve names base, ownedProperties e, (classOf? names base).isSome⟩
  content : content = contentOf (contentNodes names e)

/-- A socket of a template stands for an element whose tag is written with its name. -/
theorem exists_socketOf (hrefs : ∀ n ∈ names, ¬ openMark <:+: controllerRef n.className)
    {name : Text} {target : Target} {inner : List Node} {content : Content Node}
    (h : Node.Within (.socket name target inner content) (bound names ms)) :
    ∃ (e : Element) (base : Text), e.Within ms ∧ SocketOf names e base name target content := by
  obtain ⟨e, he, hsocket⟩ := exists_element_of_within h rfl
  rw [ofElement_eq hrefs] at hsocket
  split at hsocket
  · next base socket hsplit =>
    simp only [Node.socket.injEq] at hsocket
    obtain ⟨rfl, rfl, -, rfl⟩ := hsocket
    exact ⟨e, base, he, hsplit, rfl, rfl⟩
  · split at hsocket <;> cases hsocket

/-- An element of a template stands for one of the same tag. -/
theorem exists_elementOf (hrefs : ∀ n ∈ names, ¬ openMark <:+: controllerRef n.className)
    {tag : Text} {properties : List Property} {children : List Node}
    (h : Node.Within (.element tag properties children) (bound names ms)) :
    ∃ e : Element, e.Within ms ∧ splitSocketTag (written e) = none ∧ tag = written e ∧
      properties = ownedProperties e := by
  obtain ⟨e, he, helement⟩ := exists_element_of_within h rfl
  rw [ofElement_eq hrefs] at helement
  split at helement
  · cases helement
  · next hsplit =>
    split at helement
    · cases helement
    · next hclass =>
      simp only [Option.not_isSome_iff_eq_none] at hclass
      simp only [Node.element.injEq, resolve_of_isNone hclass] at helement
      exact ⟨e, he, hsplit, helement.1, helement.2.1⟩

end Template

namespace View

open Template (bound classOf? controllerRef)
open Markup (remainder extractions)

/-- What a view is made of: what its page keeps, and what is taken out of the page. -/
structure MadeOf (v : View) (page : List Markup.Node) : Prop where
  taken : ∃ ms, Extraction.ofNodes (Markup.scope page) = .ok (ms, extractions page) ∧
    remainder page = Markup.cleanUp ms
  tags : ((extractions page).map fun e => e.names.elementTag).Nodup
  classes : ((extractions page).map fun e => e.names.className).Nodup
  children : List.Forall₂ (fun e w => ofPage e.label e.names [e.element.toNode] = .ok w)
    (extractions page) v.children
  nodes : v.nodes = bound (v.children.map View.names) (remainder page)

variable {v : View} {page : List Markup.Node}

/-- A view is made of the page it has been compiled from. -/
theorem madeOf_of_compiledFrom (h : CompiledFrom v page) : MadeOf v page := by
  cases h with
  | page h =>
      obtain ⟨hdecompose, hdistinct, hchildren, hassemble⟩ := ofPage_eq_ok h
      obtain ⟨htags, hclasses⟩ := Extraction.nodup_of_firstDuplicate hdistinct
      exact ⟨Markup.decompose_eq_ok hdecompose, htags, hclasses, hchildren, nodes_ofPage h⟩
  | blank label names => exact ⟨⟨[], rfl, rfl⟩, .nil, .nil, .nil, rfl⟩

/-- The children of a view have the names of the extractions, in their order. -/
theorem MadeOf.names (h : MadeOf v page) :
    v.children.map View.names = (extractions page).map Extraction.names :=
  map_names_of_forall₂ h.children

theorem MadeOf.refs (h : MadeOf v page) :
    ∀ n ∈ v.children.map View.names, ¬ openMark <:+: controllerRef n.className := by
  obtain ⟨ms, hms, -⟩ := h.taken
  rw [h.names]
  intro n hn
  obtain ⟨e, he, rfl⟩ := List.mem_map.1 hn
  exact not_openMark_infix_controllerRef (Extraction.ofLabel_of_mem_ofNodes hms e he)

end View

end Viewloom
