import Viewloom.Proofs.Binding
import Viewloom.Proofs.Outline
import Viewloom.Proofs.Pages

/-!
# Pages with their child views in place

The standing page of a view is what clean-up leaves of it while its child views are still in place.
The template has the outline of the standing page, as far as the tags are read as they were written.
-/

namespace Viewloom

namespace Extraction

/-- Lists of nodes are extracted one behind the other. -/
theorem ofNodes_append {ns ns' ms ms' : List Markup.Node} {es es' : List Extraction}
    (h : ofNodes ns = .ok (ms, es)) (h' : ofNodes ns' = .ok (ms', es')) :
    ofNodes (ns ++ ns') = .ok (ms ++ ms', es ++ es') := by
  induction ns generalizing ms es with
  | nil =>
      obtain ⟨rfl, rfl⟩ := ofNodes_nil h
      simp [h']
  | cons n ns ih =>
      obtain ⟨m, ms₁, es₁, es₂, hn, hns, rfl, rfl⟩ := ofNodes_cons h
      simp only [List.cons_append, ofNodes, hn, ih hns, List.append_assoc]

theorem ofNodes_singleton {n m : Markup.Node} {es : List Extraction} (h : ofNode n = .ok (m, es)) :
    ofNodes [n] = .ok ([m], es) := by
  simp [ofNodes, h]

end Extraction

namespace Markup

mutual

/-- Cleans up a node whose child views stay in place as they are. -/
def Node.stand : Node → List Node
  | .element tag attributes children =>
    if Attribute.has childMarker attributes then [.element tag attributes children]
    else if Attribute.has ignoreMarker attributes = true ∨ tag = Viewloom.text "script" then []
    else if Attribute.has emptyMarker attributes then
      [.element tag (Attribute.erase emptyMarker attributes) []]
    else [.element tag attributes (standAll children)]
  | n => [n]

def Node.standAll : List Node → List Node
  | [] => []
  | n :: ns => n.stand ++ standAll ns

end

/-- What clean-up leaves of the page of a view while its child views are in place. -/
def standing (page : List Node) : List Node := Node.standAll (scope page)

mutual

/-- A standing node is extracted to what clean-up leaves of the extracted node. -/
theorem ofNodes_stand : ∀ {n m : Node} {es : List Extraction}, Extraction.ofNode n = .ok (m, es) →
    ∃ es', Extraction.ofNodes n.stand = .ok (cleanUp [m], es') ∧ es'.Sublist es
  | .element tag attributes children, m, es, h => by
      rcases Extraction.ofNode_element h with ⟨label, names, hlabel, _, rfl, _⟩ | ⟨hnone, ms, hms, rfl⟩
      · refine ⟨es, ?_, .refl es⟩
        rw [cleanUp_placeholder, Node.stand, if_pos (by simp [Attribute.has, hlabel])]
        exact Extraction.ofNodes_singleton h
      · have hmarker : ¬ Attribute.has childMarker attributes = true := by
          simp [Attribute.has, hnone]
        rw [cleanUp_element, Node.stand, if_neg hmarker]
        split
        · exact ⟨[], rfl, List.nil_sublist es⟩
        · split
          · have hnone' : Attribute.get? childMarker (Attribute.erase emptyMarker attributes) =
                none := by rw [Attribute.get?_erase_of_ne (by decide), hnone]
            refine ⟨[], Extraction.ofNodes_singleton ?_, List.nil_sublist es⟩
            simp [Extraction.ofNode, Extraction.ofNodes, hnone']
          · obtain ⟨es', hes', hsub⟩ := ofNodes_standAll hms
            refine ⟨es', Extraction.ofNodes_singleton ?_, hsub⟩
            simp [Extraction.ofNode, hnone, hes']
  | .text value, m, es, h => by
      obtain ⟨rfl, rfl⟩ := Extraction.ofNode_text h
      exact ⟨[], rfl, List.nil_sublist _⟩
  | .comment value, m, es, h => by
      obtain ⟨rfl, rfl⟩ := Extraction.ofNode_comment h
      exact ⟨[], rfl, List.nil_sublist _⟩

/-- Extraction and clean-up may change places, though clean-up drops some children. -/
theorem ofNodes_standAll : ∀ {ns ms : List Node} {es : List Extraction},
    Extraction.ofNodes ns = .ok (ms, es) →
      ∃ es', Extraction.ofNodes (Node.standAll ns) = .ok (cleanUp ms, es') ∧ es'.Sublist es
  | [], ms, es, h => by
      obtain ⟨rfl, rfl⟩ := Extraction.ofNodes_nil h
      exact ⟨[], rfl, List.nil_sublist _⟩
  | n :: ns, ms, es, h => by
      obtain ⟨m, ms', es₁, es₂, hn, hns, rfl, rfl⟩ := Extraction.ofNodes_cons h
      obtain ⟨es₁', h₁, hsub₁⟩ := ofNodes_stand hn
      obtain ⟨es₂', h₂, hsub₂⟩ := ofNodes_standAll hns
      refine ⟨es₁' ++ es₂', ?_, hsub₁.append hsub₂⟩
      rw [cleanUp_cons, Node.standAll]
      exact Extraction.ofNodes_append h₁ h₂

end

/-- The standing page is what a page keeps, with the surviving child views in place. -/
theorem ofNodes_standing {page rest : List Node} {es : List Extraction}
    (h : decompose (scope page) = .ok (rest, es)) :
    ∃ es', Extraction.ofNodes (standing page) = .ok (rest, es') ∧ es'.Sublist es := by
  obtain ⟨ms, hms, rfl⟩ := decompose_eq_ok h
  exact ofNodes_standAll hms

/-! ## Outlines of pages and templates -/

variable {α : Type}

mutual

/-- The outline of a page, whose child views have no content of their own in it. -/
def Node.outline (label : Text → List Attribute → Option α) : Node → List (Outline α)
  | .element tag attributes children =>
    [.node (label tag attributes)
      (if Attribute.has childMarker attributes then [] else outlineAll label children)]
  | _ => []

def Node.outlineAll (label : Text → List Attribute → Option α) : List Node → List (Outline α)
  | [] => []
  | n :: ns => n.outline label ++ outlineAll label ns

end

end Markup

namespace Template

variable {α : Type}

mutual

/-- The outline of a template. What fills a socket stands below it. -/
def Node.outline (label : Node → Option α) : Node → List (Outline α)
  | .element tag properties children =>
    [.node (label (.element tag properties children)) (outlineAll label children)]
  | .component tag properties children =>
    [.node (label (.component tag properties children)) (outlineAll label children)]
  | .socket name target inner .proxied => [.node (label (.socket name target inner .proxied)) []]
  | .socket name target inner (.fallback nodes) =>
    [.node (label (.socket name target inner (.fallback nodes))) (outlineAll label nodes)]
  | .socket name target inner (.nested nodes) =>
    [.node (label (.socket name target inner (.nested nodes))) (outlineAll label nodes)]
  | _ => []

def Node.outlineAll (label : Node → Option α) : List Node → List (Outline α)
  | [] => []
  | n :: ns => n.outline label ++ outlineAll label ns

end

theorem outlineAll_append (label : Node → Option α) (ns ms : List Node) :
    Node.outlineAll label (ns ++ ms) = Node.outlineAll label ns ++ Node.outlineAll label ms := by
  induction ns with
  | nil => rfl
  | cons n ns ih => simp [Node.outlineAll, ih]

/-- The outline of a socket is its label above the outlines of what fills it. -/
theorem outline_socket (label : Node → Option α) (name : Text) (target : Target)
    (children : List Node) :
    (Node.socket name target [] (contentOf children)).outline label =
      [.node (label (.socket name target [] (contentOf children)))
        (Node.outlineAll label children)] := by
  cases children with
  | nil => rfl
  | cons n ns =>
      cases hsocket : Node.hasSocketAny (n :: ns) with
      | false =>
          have hcontent : contentOf (n :: ns) = .fallback (n :: ns) := by simp [contentOf, hsocket]
          rw [hcontent, Node.outline]
      | true =>
          have hcontent : contentOf (n :: ns) = .nested (n :: ns) := by simp [contentOf, hsocket]
          rw [hcontent, Node.outline]

/-- The outline of a bound tag is its label above the outlines of its children. -/
theorem outline_bindTag (label : Node → Option α) (isComponent : Bool) (tag : Text)
    (properties : List Property) (children : List Node) :
    (bindTag isComponent tag properties children).1.outline label =
      [.node (label (bindTag isComponent tag properties children).1)
        (Node.outlineAll label children)] := by
  unfold bindTag
  split
  · exact outline_socket ..
  · cases isComponent <;> simp [Node.outline]

/-- The outline of a made node is its label above the outlines of its children. -/
theorem outline_make (label : Node → Option α) (names : List Names) (written : Text)
    (properties : List Property) (children : List Node) :
    (Node.make names written properties children).outline label =
      [.node (label (Node.make names written properties children))
        (Node.outlineAll label children)] := by
  unfold Node.make
  split <;> exact outline_bindTag ..

end Template

/-! ## Agreement of outlines -/

namespace Markup

/-- The tag that an element has in the page of its view, where a child view has its placeholder. -/
def ownTag (tag : Text) (attributes : List Attribute) : Text :=
  match (Attribute.get? childMarker attributes).map Names.ofLabel with
  | some (.ok names) => Extraction.placeholderTag names.elementTag
  | _ => tag

theorem ownTag_of_none {attributes : List Attribute}
    (h : Attribute.get? childMarker attributes = none) (tag : Text) : ownTag tag attributes = tag := by
  simp [ownTag, h]

theorem ownTag_of_label {attributes : List Attribute} {label : Text} {names : Names}
    (h : Attribute.get? childMarker attributes = some label) (hnames : Names.ofLabel label = .ok names)
    (tag : Text) : ownTag tag attributes = Extraction.placeholderTag names.elementTag := by
  simp [ownTag, h, hnames]

/-- The written tag of an element is cut, or not cut, where it was written. -/
def MarkedOnce (tag : Text) (attributes : List Attribute) : Prop :=
  ¬ socketMark <:+: ownTag tag attributes ++
    (if Attribute.has socketMarker attributes then openMark else [])

/-- A tag is marked once exactly if its socket is split off again as it was written. -/
theorem markedOnce_iff (tag : Text) (attributes : List Attribute) :
    MarkedOnce tag attributes ↔
      splitSocketTag (Template.writtenTag (ownTag tag attributes) attributes) =
        (Attribute.get? socketMarker attributes).map fun socket =>
          (ownTag tag attributes, socket) := by
  unfold MarkedOnce Template.writtenTag
  cases hsocket : Attribute.get? socketMarker attributes with
  | none => simp [Attribute.has, hsocket, splitSocketTag_eq_none_iff]
  | some socket => simp [Attribute.has, hsocket, splitSocketTag_socketTag_iff]

variable {α : Type}

mutual

/-- All elements are read well, and no label stands in content that becomes a property. -/
def Node.Reads (good : Text → List Attribute → Prop) (label : Text → List Attribute → Option α) :
    Node → Prop
  | .element tag attributes children =>
    good tag attributes ∧
      (Attribute.get? childMarker attributes = none →
        if Template.holdsText (Template.baseTag (Template.writtenTag tag attributes)) then
          Outline.spotsAll (outlineAll label children) = []
        else ReadsAll good label children)
  | _ => True

def Node.ReadsAll (good : Text → List Attribute → Prop)
    (label : Text → List Attribute → Option α) : List Node → Prop
  | [] => True
  | n :: ns => n.Reads good label ∧ ReadsAll good label ns

end

end Markup

namespace Template

variable {α : Type} {names : List Names} {label : Node → Option α}
  {label' : Text → List Attribute → Option α} {good : Text → List Attribute → Prop}

/-- A labelling of templates that agrees with one of pages exactly at well read elements. -/
def Agrees (names : List Names) (label : Node → Option α)
    (label' : Text → List Attribute → Option α) (good : Text → List Attribute → Prop) : Prop :=
  ∀ tag attributes,
    (∀ value, Attribute.get? childMarker attributes = some value →
      ∃ n ∈ names, Names.ofLabel value = .ok n) →
    ∀ properties children,
      label (Node.make names (writtenTag (Markup.ownTag tag attributes) attributes) properties
        children) = label' tag attributes ↔ good tag attributes

/-- A placeholder is written with the mark of its socket whether the other attributes are there or
not. -/
theorem writtenTag_placeholder (n : Names) (attributes : List Attribute) :
    writtenTag (Extraction.placeholderTag n.elementTag)
        ((Attribute.get? socketMarker attributes).map (Attribute.mk socketMarker)).toList =
      writtenTag (Extraction.placeholderTag n.elementTag) attributes := by
  unfold writtenTag
  cases Attribute.get? socketMarker attributes <;> simp [Attribute.get?]

mutual

/-- A bound node lists the labels of the standing page exactly if its elements are read well. -/
theorem spots_bound_iff (hagrees : Agrees names label label' good) :
    ∀ {n m : Markup.Node} {es : List Extraction}, Extraction.ofNode n = .ok (m, es) →
      (∀ e ∈ es, e.names ∈ names) → ∀ (ts ts' : List (Outline α)),
      (Outline.spotsAll (Node.outlineAll label (bound names [m]) ++ ts) =
          Outline.spotsAll (n.outline label' ++ ts') ↔
        n.Reads good label' ∧ Outline.spotsAll ts = Outline.spotsAll ts')
  | .element tag attributes children, m, es, h, hes, ts, ts' => by
      rcases Extraction.ofNode_element h with
        ⟨value, n, hvalue, hn, rfl, rfl⟩ | ⟨hnone, ms, hms, rfl⟩
      · have hlabel := hagrees tag attributes fun value' hvalue' =>
          ⟨n, hes _ (List.mem_singleton_self _), by rwa [← Option.some.inj (hvalue.symm.trans hvalue')]⟩
        rw [Markup.ownTag_of_label hvalue hn, ← writtenTag_placeholder] at hlabel
        have hmarked : Attribute.has childMarker attributes = true := by
          simp [Attribute.has, hvalue]
        rw [Extraction.placeholder, bound_element, bound_nil, ite_self, Node.outlineAll,
          outline_make, Node.outlineAll, Markup.Node.outline, if_pos hmarked, Markup.Node.Reads]
        simp only [List.singleton_append, List.append_nil, Outline.spotsAll_cons_eq_iff,
          Outline.spots_eq_iff, hlabel, hvalue, reduceCtorEq, false_implies, and_true]
      · have hlabel := hagrees tag attributes fun value hvalue => by simp [hnone] at hvalue
        rw [Markup.ownTag_of_none hnone] at hlabel
        have hmarked : ¬ Attribute.has childMarker attributes = true := by
          simp [Attribute.has, hnone]
        have hchildren := spotsAll_bound_iff hagrees hms hes
        rw [bound_element, Node.outlineAll, outline_make, Node.outlineAll, Markup.Node.outline,
          if_neg hmarked, Markup.Node.Reads]
        simp only [List.singleton_append, List.append_nil, Outline.spotsAll_cons_eq_iff,
          Outline.spots_eq_iff, hlabel, hnone, true_implies]
        split
        · simp only [Node.outlineAll, Outline.spotsAll, eq_comm]
        · rw [hchildren]
  | .text value, m, es, h, _, ts, ts' => by
      obtain ⟨rfl, rfl⟩ := Extraction.ofNode_text h
      rw [bound_text]
      split <;> simp [Node.outlineAll, Node.outline, Markup.Node.outline, Markup.Node.Reads]
  | .comment value, m, es, h, _, ts, ts' => by
      obtain ⟨rfl, rfl⟩ := Extraction.ofNode_comment h
      rw [bound_comment]
      simp [Node.outlineAll, Node.outline, Markup.Node.outline, Markup.Node.Reads]

/-- The template and the standing page list the same labels at the same places exactly if the
elements are read well. -/
theorem spotsAll_bound_iff (hagrees : Agrees names label label' good) :
    ∀ {ns ms : List Markup.Node} {es : List Extraction}, Extraction.ofNodes ns = .ok (ms, es) →
      (∀ e ∈ es, e.names ∈ names) →
      (Outline.spotsAll (Node.outlineAll label (bound names ms)) =
          Outline.spotsAll (Markup.Node.outlineAll label' ns) ↔
        Markup.Node.ReadsAll good label' ns)
  | [], ms, es, h, _ => by
      obtain ⟨rfl, rfl⟩ := Extraction.ofNodes_nil h
      rw [bound_nil]
      simp [Node.outlineAll, Markup.Node.outlineAll, Markup.Node.ReadsAll]
  | n :: ns, ms, es, h, hes => by
      obtain ⟨m, ms', es₁, es₂, hn, hns, rfl, rfl⟩ := Extraction.ofNodes_cons h
      rw [bound_cons, outlineAll_append, Markup.Node.outlineAll,
        spots_bound_iff hagrees hn (fun e he => hes e (List.mem_append_left _ he)),
        spotsAll_bound_iff hagrees hns (fun e he => hes e (List.mem_append_right _ he)),
        Markup.Node.ReadsAll]

end

end Template

namespace View

/-- Different classes have different references. -/
theorem controllerRef_injective {c c' : Text}
    (h : Template.controllerRef c = Template.controllerRef c') : c = c' :=
  List.append_cancel_right h

/-- The nodes of a view are the bound template of what its page keeps. -/
theorem nodes_ofPage {label : Text} {names : Names} {page : List Markup.Node} {v : View}
    (h : ofPage label names page = .ok v) :
    v.nodes = Template.bound (v.children.map View.names) (Markup.remainder page) := by
  obtain ⟨-, -, -, hassemble⟩ := ofPage_eq_ok h
  rw [(assemble_eq_ok hassemble).2]
  rfl

/-- The children of a view are named by labels, have tags of their own, and come from what is taken
out of its page. -/
theorem children_ofPage {label : Text} {names : Names} {page : List Markup.Node} {v : View}
    (h : ofPage label names page = .ok v) :
    (∀ n ∈ v.children.map View.names, ∃ l, Names.ofLabel l = .ok n) ∧
      ((v.children.map View.names).map Names.elementTag).Nodup ∧
      v.children.map View.names = (Markup.extractions page).map Extraction.names := by
  obtain ⟨hdecompose, hdistinct, hchildren, -⟩ := ofPage_eq_ok h
  obtain ⟨ms, hms, -⟩ := Markup.decompose_eq_ok hdecompose
  obtain ⟨htags, -⟩ := Extraction.nodup_of_firstDuplicate hdistinct
  rw [map_names_of_forall₂ hchildren]
  refine ⟨fun n hn => ?_, ?_, rfl⟩
  · obtain ⟨e, he, rfl⟩ := List.mem_map.1 hn
    exact ⟨e.label, Extraction.ofLabel_of_mem_ofNodes hms e he⟩
  · rw [List.map_map]
    exact htags

end View

end Viewloom
