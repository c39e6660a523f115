import Viewloom.Proofs.Standing

/-!
# Sockets of a template

The sockets of a template are compared with the elements of its page that carry a socket marker. They
are the same ones exactly if no tag is cut at a mark that authors have written, no such element is
taken for a child view, and none stands in a stylesheet or a text area.
-/

namespace Viewloom

open Markup (Node)

namespace Template

/-- The name and the target of a socket. -/
def Node.socket? : Node → Option (Text × Text)
  | .socket name target _ _ => some (name, target.tag)
  | _ => none

/-- A node is a socket exactly if its written tag holds a mark. -/
theorem socket?_make {names : List Names}
    (hrefs : ∀ n ∈ names, ¬ openMark <:+: controllerRef n.className) (written : Text)
    (properties : List Property) (children : List Template.Node) :
    (Node.make names written properties children).socket? =
      (splitSocketTag written).map fun (base, socket) => (socket, resolve names base) := by
  rw [make_eq hrefs]
  cases splitSocketTag written with
  | none =>
      simp only
      split <;> rfl
  | some pair => rfl

end Template

namespace Markup

/-- What the socket of an element stands for: the element or the child view that it becomes. -/
def targetTag (tag : Text) (attributes : List Attribute) : Text :=
  match (Attribute.get? childMarker attributes).map Names.ofLabel with
  | some (.ok names) => Template.controllerRef names.className
  | _ => tag

/-- The socket that an element declares. -/
def declared (tag : Text) (attributes : List Attribute) : Option (Text × Text) :=
  (Attribute.get? socketMarker attributes).map fun socket => (socket, targetTag tag attributes)

/-- The socket of an element is read back, and it is not taken for a child view. -/
structure SocketRead (names : List Names) (tag : Text) (attributes : List Attribute) : Prop where
  mark : MarkedOnce tag attributes
  own : Attribute.get? childMarker attributes = none →
    Attribute.has socketMarker attributes = true → Template.classOf? names tag = none

/-- The sockets that the elements of a page declare, in pre-order. -/
def declaredSockets (page : List Node) : List (Spot (Text × Text)) :=
  Outline.spotsAll (Node.outlineAll declared (standing page))

end Markup

namespace Template

/-- Sockets are labelled alike exactly where they are read back. -/
theorem agrees_sockets {names : List Names} (hlabels : ∀ n ∈ names, ∃ l, Names.ofLabel l = .ok n)
    (hnodup : (names.map Names.elementTag).Nodup) :
    Agrees names Node.socket? Markup.declared (Markup.SocketRead names) := by
  intro tag attributes hchild properties children
  have hrefs := refs_of_labels hlabels
  have hmark := Markup.markedOnce_iff tag attributes
  rw [socket?_make hrefs, Markup.declared]
  cases hsocket : Attribute.get? socketMarker attributes with
  | none =>
      have hunsocketed : ¬ Attribute.has socketMarker attributes = true := by
        simp [Attribute.has, hsocket]
      rw [hsocket, Option.map_none] at hmark
      rw [Option.map_none, Option.map_eq_none_iff, ← hmark]
      exact ⟨fun h => ⟨h, fun _ hs => absurd hs hunsocketed⟩, fun h => h.mark⟩
  | some socket =>
      have hwritten : writtenTag (Markup.ownTag tag attributes) attributes =
          socketTag (Markup.ownTag tag attributes) socket := by simp [writtenTag, hsocket]
      have htarget : resolve names (Markup.ownTag tag attributes) = Markup.targetTag tag attributes ↔
          (Attribute.get? childMarker attributes = none → classOf? names tag = none) := by
        cases hvalue : Attribute.get? childMarker attributes with
        | none => simp [Markup.ownTag, Markup.targetTag, hvalue, resolve_eq_self_iff hlabels]
        | some value =>
            obtain ⟨n, hn, hnames⟩ := hchild value hvalue
            simp [Markup.ownTag, Markup.targetTag, hvalue, hnames, resolve_placeholderTag hn hnodup]
      rw [hwritten, hsocket] at hmark
      rw [hwritten]
      cases hsplit : splitSocketTag (socketTag (Markup.ownTag tag attributes) socket) with
      | none => exact absurd hsplit (splitSocketTag_socketTag_ne_none _ _)
      | some pair =>
          obtain ⟨base, socket'⟩ := pair
          rw [hsplit] at hmark
          simp only [Option.map_some, Option.some.injEq, Prod.mk.injEq] at hmark ⊢
          constructor
          · rintro ⟨rfl, hresolve⟩
            have hbase := eq_of_splitSocketTag hsplit
            subst hbase
            exact ⟨hmark.2 ⟨rfl, rfl⟩, fun hnone _ => htarget.1 hresolve hnone⟩
          · rintro ⟨hm, hown⟩
            obtain ⟨rfl, rfl⟩ := hmark.1 hm
            refine ⟨rfl, htarget.2 fun hnone => hown hnone ?_⟩
            simp [Attribute.has, hsocket]

end Template

/-! ## Sockets of a view -/

namespace Markup

mutual

/-- The sockets that are read off the tags of an extracted node are those declared in it. -/
theorem sockets_ofNode : ∀ {n m : Node} {es : List Extraction}, Extraction.ofNode n = .ok (m, es) →
    (Node.tagSocketsAll [m]).2 = (Outline.values (n.outline declared)).map Prod.fst
  | .element tag attributes children, m, es, h => by
      rcases Extraction.ofNode_element h with ⟨_, n, hvalue, _, rfl, _⟩ | ⟨hnone, ms, hms, rfl⟩
      · have hmarked : Attribute.has childMarker attributes = true := by
          simp [Attribute.has, hvalue]
        rw [Extraction.placeholder, sockets_element, Node.outline, if_pos hmarked,
          Outline.values_cons, declared]
        cases Attribute.get? socketMarker attributes <;>
          simp [Attribute.get?, Node.tagSocketsAll]
      · have hmarked : ¬ Attribute.has childMarker attributes = true := by
          simp [Attribute.has, hnone]
        rw [sockets_element, sockets_ofNodes hms, Node.outline, if_neg hmarked,
          Outline.values_cons, declared]
        cases Attribute.get? socketMarker attributes <;> simp
  | .text value, m, es, h => by
      obtain ⟨rfl, rfl⟩ := Extraction.ofNode_text h
      rfl
  | .comment value, m, es, h => by
      obtain ⟨rfl, rfl⟩ := Extraction.ofNode_comment h
      rfl

theorem sockets_ofNodes : ∀ {ns ms : List Node} {es : List Extraction},
    Extraction.ofNodes ns = .ok (ms, es) →
      (Node.tagSocketsAll ms).2 = (Outline.values (Node.outlineAll declared ns)).map Prod.fst
  | [], ms, es, h => by
      obtain ⟨rfl, rfl⟩ := Extraction.ofNodes_nil h
      rfl
  | n :: ns, ms, es, h => by
      obtain ⟨m, ms', es₁, es₂, hn, hns, rfl, rfl⟩ := Extraction.ofNodes_cons h
      rw [← List.singleton_append, tagSocketsAll_append, sockets_ofNode hn, sockets_ofNodes hns,
        Node.outlineAll, Outline.values_append, List.map_append]

end

end Markup

namespace View

/-- The sockets of a view's template, in pre-order. -/
def socketSpots (v : View) : List (Spot (Text × Text)) :=
  Outline.spotsAll (Template.Node.outlineAll Template.Node.socket? v.nodes)

/-- How the sockets of a view relate to the elements of its page that declare them. -/
structure SocketsFound (v : View) (page : List Node) : Prop where
  declared : v.sockets = (Markup.declaredSockets page).map fun s => s.value.1
  nodup : v.sockets.Nodup
  found_iff : v.socketSpots = Markup.declaredSockets page ↔
    Node.ReadsAll (Markup.SocketRead (v.children.map View.names)) Markup.declared
      (Markup.standing page)

/-- The view of a page finds the sockets of the page. -/
theorem socketsFound_ofPage {label : Text} {names : Names} {page : List Node} {v : View}
    (h : ofPage label names page = .ok v) : SocketsFound v page := by
  obtain ⟨hdecompose, hdistinct, hchildren, hassemble⟩ := ofPage_eq_ok h
  obtain ⟨hlabels, htags, hnames⟩ := children_ofPage h
  obtain ⟨hnodup, hv⟩ := assemble_eq_ok hassemble
  obtain ⟨es', hstanding, hsub⟩ := Markup.ofNodes_standing hdecompose
  refine ⟨?_, by rw [hv]; exact hnodup, ?_⟩
  · have hsockets : v.sockets = (Markup.Node.tagSocketsAll (Markup.remainder page)).2 := by
      rw [hv]
      rfl
    rw [hsockets, Markup.sockets_ofNodes hstanding, Outline.values, List.map_map]
    rfl
  · rw [socketSpots, nodes_ofPage h]
    refine Template.spotsAll_bound_iff (Template.agrees_sockets hlabels htags) hstanding ?_
    intro e he
    rw [hnames]
    exact List.mem_map_of_mem (hsub.subset he)

/-- A compiled view finds the sockets of its page. -/
theorem socketsFound_of_compiledFrom {v : View} {page : List Node} (h : CompiledFrom v page) :
    SocketsFound v page := by
  cases h with
  | page h => exact socketsFound_ofPage h
  | blank label names =>
      have hstanding : Markup.standing [] = [] := rfl
      exact ⟨rfl, List.nodup_nil, by simp [socketSpots, Markup.declaredSockets, hstanding, View.blank,
        Template.Node.outlineAll, Markup.Node.outlineAll, Markup.Node.ReadsAll]⟩

/-- In every view of a compiled tree the sockets are the declared ones, in order and at their
places, exactly if the tags of the page are read back as they were written. -/
theorem compile_sockets {label source : Text} {v : View} (h : compile label source = .ok v) :
    List.Forall₂ SocketsFound v.descendants (Markup.pages (sourcePage source)) :=
  (forall₂_compiledFrom h).imp fun _ _ hd => socketsFound_of_compiledFrom hd

/-- An element with a socket, beside a child view that fills one. -/
theorem compile_sockets_menu : ∃ v,
    compile (text "page") (text "<main af-sock='body'>a</main><p af-el='menu' af-sock='m'>b</p>") =
        .ok v ∧
      List.Forall₂ SocketsFound v.descendants (Markup.pages (sourcePage
        (text "<main af-sock='body'>a</main><p af-el='menu' af-sock='m'>b</p>"))) := by
  have hok : (compile (text "page")
      (text "<main af-sock='body'>a</main><p af-el='menu' af-sock='m'>b</p>")).isOk = true := by
    decide +kernel
  obtain ⟨v, hv⟩ := exists_of_isOk hok
  exact ⟨v, hv, compile_sockets hv⟩

end View

end Viewloom
