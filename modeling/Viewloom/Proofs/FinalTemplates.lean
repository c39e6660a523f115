import Viewloom.Proofs.SocketScope

/-!
# Bound templates are final

Binding goes through a template twice, and each time into what it has just made. What comes out holds
no tag that could be bound, so binding it again changes nothing. Every socket stands for the node whose
tag carried its name, and the kind of its content tells what stands in it.
-/

namespace Viewloom.Template

/-- Whether a node is a socket. -/
def Node.isSocket : Node → Bool
  | .socket _ _ _ _ => true
  | _ => false

/-- The kind of a content tells what stands in it: sockets at some depth, nodes without any, or
nothing. -/
structure Content.Fits (content : Content Node) : Prop where
  nested_iff : content = .nested content.nodes ↔
    ∃ m : Node, m.Within content.nodes ∧ m.isSocket = true
  fallback_iff : content = .fallback content.nodes ↔
    content.nodes ≠ [] ∧ ¬ ∃ m : Node, m.Within content.nodes ∧ m.isSocket = true
  proxied_iff : content = .proxied ↔ content.nodes = []

namespace Node

/-- A node that no binding is left for, since no tag of it holds a socket mark. -/
def IsFinal : Node → Prop
  | element tag _ _ => ¬ socketMark <:+: tag
  | component tag _ _ => ¬ socketMark <:+: tag
  | socket _ target inner content => ¬ socketMark <:+: target.tag ∧ inner = [] ∧ content.Fits
  | _ => True

/-- The element or reference whose tag carries the name of a socket. -/
def tagged (name : Text) (target : Target) (children : List Node) : Node :=
  if target.isComponent then component (socketTag target.tag name) target.properties children
  else element (socketTag target.tag name) target.properties children

mutual

/-- A node whose sockets are put back into tags. -/
def unbind : Node → Node
  | element tag properties children => element tag properties (unbindAll children)
  | component tag properties children => component tag properties (unbindAll children)
  | socket name target _ .proxied => tagged name target []
  | socket name target _ (.fallback nodes) => tagged name target (unbindAll nodes)
  | socket name target _ (.nested nodes) => tagged name target (unbindAll nodes)
  | n => n

def unbindAll : List Node → List Node
  | [] => []
  | n :: ns => n.unbind :: unbindAll ns

end

mutual

/-- The names of the sockets of a node in post-order. -/
def postorder : Node → List Text
  | element _ _ children => postorderAll children
  | component _ _ children => postorderAll children
  | socket name _ _ .proxied => [name]
  | socket name _ _ (.fallback nodes) => postorderAll nodes ++ [name]
  | socket name _ _ (.nested nodes) => postorderAll nodes ++ [name]
  | _ => []

def postorderAll : List Node → List Text
  | [] => []
  | n :: ns => n.postorder ++ postorderAll ns

end

/-! ## Sockets at some depth -/

theorem hasSocketAny_of_mem {n : Node} {ns : List Node} (hn : n ∈ ns) (h : n.hasSocket = true) :
    hasSocketAny ns = true := by
  induction ns with
  | nil => simp at hn
  | cons m ns ih =>
      rw [hasSocketAny, Bool.or_eq_true]
      rcases List.mem_cons.1 hn with rfl | hn
      · exact .inl h
      · exact .inr (ih hn)

theorem hasSocket_of_children {n : Node} (h : hasSocketAny n.children = true) : n.hasSocket = true := by
  cases n with
  | element | component => exact h
  | text | comment => exact h
  | socket => rfl

mutual

/-- A node with a socket holds one, or is one. -/
theorem exists_socket_of_hasSocket : ∀ {n : Node}, n.hasSocket = true →
    ∃ m : Node, m.Within [n] ∧ m.isSocket = true
  | socket _ _ _ _, _ => ⟨_, .here (List.mem_singleton_self _), rfl⟩
  | element _ _ _, h => by
      obtain ⟨m, hm, hsocket⟩ := exists_socket_of_hasSocketAny h
      exact ⟨m, .under (List.mem_singleton_self _) hm, hsocket⟩
  | component _ _ _, h => by
      obtain ⟨m, hm, hsocket⟩ := exists_socket_of_hasSocketAny h
      exact ⟨m, .under (List.mem_singleton_self _) hm, hsocket⟩

theorem exists_socket_of_hasSocketAny : ∀ {ns : List Node}, hasSocketAny ns = true →
    ∃ m : Node, m.Within ns ∧ m.isSocket = true
  | n :: ns, h => by
      rw [hasSocketAny, Bool.or_eq_true] at h
      rcases h with h | h
      · obtain ⟨m, hm, hsocket⟩ := exists_socket_of_hasSocket h
        exact ⟨m, hm.mono (by simp), hsocket⟩
      · obtain ⟨m, hm, hsocket⟩ := exists_socket_of_hasSocketAny h
        exact ⟨m, hm.mono (by simp), hsocket⟩

end

/-- The search for a socket goes through all depths. -/
theorem hasSocketAny_iff {ns : List Node} :
    hasSocketAny ns = true ↔ ∃ m : Node, m.Within ns ∧ m.isSocket = true := by
  refine ⟨exists_socket_of_hasSocketAny, ?_⟩
  rintro ⟨m, hm, hsocket⟩
  induction hm with
  | here hm =>
      cases m with
      | socket => exact hasSocketAny_of_mem hm rfl
      | _ => cases hsocket
  | under hm _ ih => exact hasSocketAny_of_mem hm (hasSocket_of_children ih)

/-! ## Content -/

/-- A socket has no content, a content without sockets, or one with sockets. -/
theorem contentOf_cases (children : List Node) :
    (children = [] ∧ contentOf children = .proxied) ∨
      (children ≠ [] ∧ hasSocketAny children = false ∧ contentOf children = .fallback children) ∨
        (children ≠ [] ∧ hasSocketAny children = true ∧ contentOf children = .nested children) := by
  cases children with
  | nil => exact .inl ⟨rfl, rfl⟩
  | cons n ns =>
      right
      cases h : hasSocketAny (n :: ns) with
      | false => exact .inl ⟨by simp, rfl, by simp [contentOf, h]⟩
      | true => exact .inr ⟨by simp, rfl, by simp [contentOf, h]⟩

/-- The kind of a content is the one that fits its nodes. -/
theorem fits_contentOf (children : List Node) : (contentOf children).Fits := by
  rcases contentOf_cases children with ⟨rfl, h⟩ | ⟨hne, hnone, h⟩ | ⟨hne, hsome, h⟩
  all_goals
    rw [h]
    constructor <;> simp_all [Content.nodes, ← hasSocketAny_iff, hasSocketAny]

/-! ## Children -/

mutual

/-- A node without sockets or elements that stand for child views. -/
def Placed (names : List Names) : Node → Prop
  | element tag _ children => componentTag? names tag = none ∧ PlacedAll names children
  | component _ _ children => PlacedAll names children
  | socket _ _ _ _ => False
  | _ => True

def PlacedAll (names : List Names) : List Node → Prop
  | [] => True
  | n :: ns => n.Placed names ∧ PlacedAll names ns

end

mutual

/-- A template without sockets has its references in their places when its child views are bound. -/
theorem placed_bindChildren (names : List Names) : ∀ {n : Node}, n.hasSocket = false →
    (n.bindChildren names).Placed names
  | element tag properties children, h => by
      have hchildren := placedAll_bindChildrenAll names h
      rw [bindChildren]
      cases htag : componentTag? names tag with
      | some reference => exact hchildren
      | none => exact ⟨htag, hchildren⟩
  | component _ _ _, h => placedAll_bindChildrenAll names h
  | text _, _ => trivial
  | comment _, _ => trivial

theorem placedAll_bindChildrenAll (names : List Names) : ∀ {ns : List Node},
    hasSocketAny ns = false → PlacedAll names (bindChildrenAll names ns)
  | [], _ => trivial
  | n :: ns, h => by
      rw [hasSocketAny, Bool.or_eq_false_iff] at h
      exact ⟨placed_bindChildren names h.1, placedAll_bindChildrenAll names h.2⟩

end

/-! ## Sockets -/

mutual

/-- A node that is bound at all depths: no tag of it is left to bind, and the content of its sockets is
as their children call for. -/
def Settled (names : List Names) : Node → Prop
  | element tag _ children =>
    splitSocketTag tag = none ∧ componentTag? names tag = none ∧ SettledAll names children
  | component tag _ children => splitSocketTag tag = none ∧ SettledAll names children
  | socket _ target inner .proxied => splitSocketTag target.tag = none ∧ inner = []
  | socket _ target inner (.fallback nodes) =>
    splitSocketTag target.tag = none ∧ inner = [] ∧ contentOf nodes = .fallback nodes ∧
      SettledAll names nodes
  | socket _ target inner (.nested nodes) =>
    splitSocketTag target.tag = none ∧ inner = [] ∧ contentOf nodes = .nested nodes ∧
      SettledAll names nodes
  | _ => True

def SettledAll (names : List Names) : List Node → Prop
  | [] => True
  | n :: ns => n.Settled names ∧ SettledAll names ns

end

variable {names : List Names}

/-- A settled node has nothing left to be bound. -/
theorem Settled.isFinal {n : Node} (h : n.Settled names) : n.IsFinal := by
  match n, h with
  | element _ _ _, h => exact splitSocketTag_eq_none_iff.1 h.1
  | component _ _ _, h => exact splitSocketTag_eq_none_iff.1 h.1
  | text _, _ => trivial
  | comment _, _ => trivial
  | socket _ _ _ .proxied, h => exact ⟨splitSocketTag_eq_none_iff.1 h.1, h.2, fits_contentOf []⟩
  | socket _ _ _ (.fallback nodes), h =>
    exact ⟨splitSocketTag_eq_none_iff.1 h.1, h.2.1, h.2.2.1 ▸ fits_contentOf nodes⟩
  | socket _ _ _ (.nested nodes), h =>
    exact ⟨splitSocketTag_eq_none_iff.1 h.1, h.2.1, h.2.2.1 ▸ fits_contentOf nodes⟩

/-- What a settled node holds is settled. -/
theorem Settled.children {n : Node} (h : n.Settled names) : SettledAll names n.children := by
  match n, h with
  | element _ _ _, h => exact h.2.2
  | component _ _ _, h => exact h.2
  | text _, _ => trivial
  | comment _, _ => trivial
  | socket _ _ _ .proxied, _ => trivial
  | socket _ _ _ (.fallback _), h => exact h.2.2.2
  | socket _ _ _ (.nested _), h => exact h.2.2.2

theorem SettledAll.of_mem {n : Node} {ns : List Node} (h : SettledAll names ns) (hn : n ∈ ns) :
    n.Settled names := by
  induction ns with
  | nil => simp at hn
  | cons m ns ih =>
      rcases List.mem_cons.1 hn with rfl | hn
      · exact h.1
      · exact ih h.2 hn

/-- Every node of a settled template is settled. -/
theorem SettledAll.of_within {n : Node} {ns : List Node} (h : SettledAll names ns)
    (hn : n.Within ns) : n.Settled names := by
  induction hn with
  | here hn => exact h.of_mem hn
  | under hm _ ih => exact ih (h.of_mem hm).children

/-- What binding the sockets of a placed node gives: a settled node with these sockets, which goes back
to the node. -/
structure Binds (names : List Names) (n : Node) (bound : Node × List Text) : Prop where
  settled : bound.1.Settled names
  unbind : bound.1.unbind = n
  sockets : bound.2 = bound.1.postorder

structure BindsAll (names : List Names) (ns : List Node) (bound : List Node × List Text) : Prop where
  settled : SettledAll names bound.1
  unbind : unbindAll bound.1 = ns
  sockets : bound.2 = postorderAll bound.1

/-- The tag of a socket's target has no mark any more. -/
theorem splitSocketTag_base {tag base name : Text} (h : splitSocketTag tag = some (base, name)) :
    splitSocketTag base = none := by
  rw [splitSocketTag, Text.splitOnce_eq_some_iff socketMark_ne_nil] at h
  exact splitSocketTag_eq_none_iff.2 fun hin => h.2 (hin.trans (List.prefix_append ..).isInfix)

/-- A socket takes the place of the node whose tag carries its name, around the bound children. -/
theorem binds_socket {children : List Node} {bound : List Node × List Text} {tag base name : Text}
    (h : BindsAll names children bound) (hsplit : splitSocketTag tag = some (base, name))
    (isComponent : Bool) (properties : List Property) :
    Binds names (tagged name ⟨base, properties, isComponent⟩ children)
      (socket name ⟨base, properties, isComponent⟩ [] (contentOf bound.1), bound.2 ++ [name]) := by
  have hbase := splitSocketTag_base hsplit
  rcases contentOf_cases bound.1 with ⟨hnil, hcontent⟩ | ⟨-, -, hcontent⟩ | ⟨-, -, hcontent⟩
  · rw [hcontent]
    refine ⟨⟨hbase, rfl⟩, ?_, ?_⟩
    · rw [unbind, ← h.unbind, hnil, unbindAll]
    · rw [h.sockets, hnil]
      rfl
  · rw [hcontent]
    exact ⟨⟨hbase, rfl, hcontent, h.settled⟩, by rw [unbind, h.unbind], by rw [h.sockets]; rfl⟩
  · rw [hcontent]
    exact ⟨⟨hbase, rfl, hcontent, h.settled⟩, by rw [unbind, h.unbind], by rw [h.sockets]; rfl⟩

theorem tagged_of_split {tag base name : Text} (h : splitSocketTag tag = some (base, name))
    (isComponent : Bool) (properties : List Property) (children : List Node) :
    tagged name ⟨base, properties, isComponent⟩ children =
      if isComponent then component tag properties children
      else element tag properties children := by
  have htag : socketTag base name = tag := (Text.append_of_splitOnce h).symm
  rw [tagged, htag]

mutual

/-- Binding the sockets of a node settles it, and can be undone. -/
theorem binds_bindSockets : ∀ {n : Node}, n.Placed names → Binds names n n.bindSockets
  | element tag properties children, h => by
      have hchildren := bindsAll_bindSocketsAll h.2
      rw [bindSockets]
      unfold bindTag
      cases hsplit : splitSocketTag tag with
      | none =>
          exact ⟨⟨hsplit, h.1, hchildren.settled⟩, by simp [unbind, hchildren.unbind],
            by simp [postorder, hchildren.sockets]⟩
      | some pair =>
          have htagged := tagged_of_split hsplit false properties children
          simp only [Bool.false_eq_true, if_false] at htagged
          exact htagged ▸ binds_socket hchildren hsplit false properties
  | component tag properties children, h => by
      have hchildren := bindsAll_bindSocketsAll h
      rw [bindSockets]
      unfold bindTag
      cases hsplit : splitSocketTag tag with
      | none =>
          exact ⟨⟨hsplit, hchildren.settled⟩, by simp [unbind, hchildren.unbind],
            by simp [postorder, hchildren.sockets]⟩
      | some pair =>
          have htagged := tagged_of_split hsplit true properties children
          simp only [if_true] at htagged
          exact htagged ▸ binds_socket hchildren hsplit true properties
  | text _, _ => ⟨trivial, rfl, rfl⟩
  | comment _, _ => ⟨trivial, rfl, rfl⟩

theorem bindsAll_bindSocketsAll : ∀ {ns : List Node}, PlacedAll names ns →
    BindsAll names ns (bindSocketsAll ns)
  | [], _ => ⟨trivial, rfl, rfl⟩
  | n :: ns, h => by
      have hn := binds_bindSockets h.1
      have hns := bindsAll_bindSocketsAll h.2
      have hall : bindSocketsAll (n :: ns) = (n.bindSockets.1 :: (bindSocketsAll ns).1,
          n.bindSockets.2 ++ (bindSocketsAll ns).2) := by rw [bindSocketsAll]
      rw [hall]
      exact ⟨⟨hn.settled, hns.settled⟩, by rw [unbindAll, hn.unbind, hns.unbind],
        by rw [postorderAll, hn.sockets, hns.sockets]⟩

end

/-! ## Binding again -/

mutual

/-- In a settled node no placeholder is left. -/
theorem Settled.bindChildren_eq : ∀ {n : Node}, n.Settled names → n.bindChildren names = n
  | element _ _ _, h => by
      simp only [bindChildren, h.2.1, SettledAll.bindChildrenAll_eq h.2.2]
  | component _ _ _, h => by rw [bindChildren, SettledAll.bindChildrenAll_eq h.2]
  | text _, _ => rfl
  | comment _, _ => rfl
  | socket _ _ _ .proxied, _ => rfl
  | socket _ _ _ (.fallback _), h => by rw [bindChildren, SettledAll.bindChildrenAll_eq h.2.2.2]
  | socket _ _ _ (.nested _), h => by rw [bindChildren, SettledAll.bindChildrenAll_eq h.2.2.2]

theorem SettledAll.bindChildrenAll_eq : ∀ {ns : List Node}, SettledAll names ns →
    bindChildrenAll names ns = ns
  | [], _ => rfl
  | _ :: _, h => by
      rw [bindChildrenAll, Settled.bindChildren_eq h.1, SettledAll.bindChildrenAll_eq h.2]

end

mutual

/-- In a settled node no tag of a socket is left. -/
theorem Settled.bindSockets_eq : ∀ {n : Node}, n.Settled names → n.bindSockets = (n, [])
  | element _ _ _, h => by
      simp [bindSockets, SettledAll.bindSocketsAll_eq h.2.2, bindTag, h.1]
  | component _ _ _, h => by
      simp [bindSockets, SettledAll.bindSocketsAll_eq h.2, bindTag, h.1]
  | text _, _ => rfl
  | comment _, _ => rfl
  | socket _ _ _ .proxied, _ => rfl
  | socket _ _ _ (.fallback _), h => by rw [bindSockets, SettledAll.bindSocketsAll_eq h.2.2.2]
  | socket _ _ _ (.nested _), h => by rw [bindSockets, SettledAll.bindSocketsAll_eq h.2.2.2]

theorem SettledAll.bindSocketsAll_eq : ∀ {ns : List Node}, SettledAll names ns →
    bindSocketsAll ns = (ns, [])
  | [], _ => rfl
  | _ :: _, h => by
      rw [bindSocketsAll, Settled.bindSockets_eq h.1, SettledAll.bindSocketsAll_eq h.2]
      rfl

end

/-- Binding a settled template changes nothing. -/
theorem SettledAll.bind_eq {ns : List Node} (h : SettledAll names ns) : bind names ns = (ns, []) := by
  rw [bind, h.bindChildrenAll_eq, h.bindSocketsAll_eq]

end Node

/-- How a bound template and the bound sockets relate to a template. -/
structure BoundFrom (names : List Names) (nodes : List Node) (bound : List Node × List Text) : Prop where
  final : ∀ n : Node, n.Within bound.1 → n.IsFinal
  /-- Nothing but the tags with socket names has changed since the child views were bound; so the
  content of a socket is all that its node held. -/
  unbound : Node.unbindAll bound.1 = Node.bindChildrenAll names nodes
  sockets : bound.2 = Node.postorderAll bound.1
  again : bind names bound.1 = (bound.1, [])

/-- Binding a template without sockets makes it final: every node at any depth is, the sockets are
listed in post-order, and binding the outcome once more changes nothing and finds no socket. -/
theorem boundFrom_bind (names : List Names) {nodes : List Node} (h : Node.hasSocketAny nodes = false) :
    BoundFrom names nodes (bind names nodes) := by
  have hbinds := Node.bindsAll_bindSocketsAll (Node.placedAll_bindChildrenAll names h)
  exact ⟨fun n hn => (hbinds.settled.of_within hn).isFinal, hbinds.unbind, hbinds.sockets,
    hbinds.settled.bind_eq⟩

/-- A list with a socket in it, a child view that fills one, and a child view beside them. -/
def markedNodes : List Node :=
  [.element (text "ul-af-sock-list") [] [.element (text "li-af-sock-item") [] [.text (text "x")],
    .element (text "af-nav-af-sock-menu") [] []], .element (text "af-nav") [] []]

/-- A menu with an item for a child view has its sockets named from inside out. -/
theorem boundFrom_bind_markedNodes :
    Node.hasSocketAny markedNodes = false ∧
      (bind [Names.ofWords [text "nav"]] markedNodes).2 = [text "item", text "menu", text "list"] ∧
      BoundFrom [Names.ofWords [text "nav"]] markedNodes
        (bind [Names.ofWords [text "nav"]] markedNodes) :=
  ⟨by decide, by decide +kernel, boundFrom_bind _ (by decide)⟩

end Viewloom.Template
