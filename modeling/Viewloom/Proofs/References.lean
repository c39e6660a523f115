import Viewloom.Proofs.Standing

/-!
# References to child views

The references of a template are compared with the child views that clean-up leaves in its page. They
are the same ones exactly if the tags of child views are read back, no authored element is taken for
one, and none stands in a stylesheet or a text area.
-/

namespace Viewloom

open Markup (Node)

namespace Template

/-- The child view that a node refers to, and the socket that it fills. -/
def Node.reference? : Node → Option (Text × Option Text)
  | .component tag _ _ => some (tag, none)
  | .socket name target _ _ => if target.isComponent then some (target.tag, some name) else none
  | _ => none

/-- The tag of a node, or the one of the target of a socket. -/
def Node.tag? : Node → Option Text
  | .element tag _ _ => some tag
  | .component tag _ _ => some tag
  | .socket _ target _ _ => some target.tag
  | _ => none

variable {names : List Names}

/-- A node refers to a child view exactly if its tag is the one of a placeholder. -/
theorem reference?_make (hrefs : ∀ n ∈ names, ¬ openMark <:+: controllerRef n.className)
    (written : Text) (properties : List Property) (children : List Template.Node) :
    (Node.make names written properties children).reference? =
      (classOf? names (baseTag written)).map fun className =>
        (controllerRef className, (splitSocketTag written).map Prod.snd) := by
  rw [make_eq hrefs]
  unfold baseTag resolve
  cases splitSocketTag written with
  | none => cases classOf? names written <;> simp [Node.reference?]
  | some pair => cases hclass : classOf? names pair.1 <;> simp [Node.reference?, hclass]

/-- The tag of a bound element is resolved from the one it is written with. -/
theorem tag?_make (hrefs : ∀ n ∈ names, ¬ openMark <:+: controllerRef n.className)
    (written : Text) (properties : List Property) (children : List Template.Node) :
    (Node.make names written properties children).tag? = some (resolve names (baseTag written)) := by
  rw [make_eq hrefs]
  unfold baseTag
  cases splitSocketTag written with
  | none => cases classOf? names written <;> simp [Node.tag?]
  | some pair => rfl

/-- A resolved tag is no placeholder's. -/
theorem resolve_ne_placeholderTag (hlabels : ∀ n ∈ names, ∃ l, Names.ofLabel l = .ok n) (tag : Text)
    {n : Names} (hn : n ∈ names) : resolve names tag ≠ Extraction.placeholderTag n.elementTag := by
  unfold resolve
  cases hclass : classOf? names tag with
  | none =>
      rintro rfl
      have hmem := List.find?_eq_none.1 (Option.map_eq_none_iff.1 hclass) n (List.mem_reverse.2 hn)
      simp at hmem
  | some className =>
      obtain ⟨m, hm, rfl, -⟩ := mem_of_classOf? hclass
      obtain ⟨l, hl⟩ := hlabels m hm
      exact controllerRef_ne_placeholderTag hl _

mutual

/-- No placeholder of a child view is left in a bound template. -/
theorem tags_bound (hlabels : ∀ n ∈ names, ∃ l, Names.ofLabel l = .ok n) : ∀ {m : Markup.Node},
    ∀ tag ∈ Outline.values (Node.outlineAll Node.tag? (bound names [m])), ∀ n ∈ names,
      tag ≠ Extraction.placeholderTag n.elementTag
  | .element tag attributes children, t, ht, n, hn => by
      rw [bound_element, Node.outlineAll, outline_make, Node.outlineAll, List.append_nil,
        Outline.values_cons, tag?_make (refs_of_labels hlabels)] at ht
      simp only [Option.toList_some, Outline.values_nil, List.append_nil, List.mem_append,
        List.mem_singleton] at ht
      rcases ht with rfl | ht
      · exact resolve_ne_placeholderTag hlabels _ hn
      · split at ht
        · simp [Node.outlineAll] at ht
        · exact tagsAll_bound hlabels t ht n hn
  | .text value, t, ht, n, hn => by
      rw [bound_text] at ht
      split at ht <;> simp [Node.outlineAll, Node.outline] at ht
  | .comment value, t, ht, n, hn => by
      rw [bound_comment] at ht
      simp [Node.outlineAll, Node.outline] at ht

/-- No tag of a placeholder is left in a bound template. -/
theorem tagsAll_bound (hlabels : ∀ n ∈ names, ∃ l, Names.ofLabel l = .ok n) :
    ∀ {ms : List Markup.Node}, ∀ tag ∈ Outline.values (Node.outlineAll Node.tag? (bound names ms)),
      ∀ n ∈ names, tag ≠ Extraction.placeholderTag n.elementTag
  | [], t, ht, n, hn => by
      rw [bound_nil] at ht
      simp [Node.outlineAll] at ht
  | m :: ms, t, ht, n, hn => by
      rw [bound_cons, outlineAll_append, Outline.values_append, List.mem_append] at ht
      rcases ht with ht | ht
      · exact tags_bound hlabels t ht n hn
      · exact tagsAll_bound hlabels t ht n hn

end

end Template

namespace Markup

/-- The child view that an element becomes, and the socket that it fills. -/
def placed (_tag : Text) (attributes : List Attribute) : Option (Text × Option Text) :=
  match (Attribute.get? childMarker attributes).map Names.ofLabel with
  | some (.ok names) =>
    some (Template.controllerRef names.className, Attribute.get? socketMarker attributes)
  | _ => none

/-- The tag of a child view is read back, and no other element is taken for a child view. -/
structure ReferenceRead (names : List Names) (tag : Text) (attributes : List Attribute) : Prop where
  child : Attribute.has childMarker attributes = true → MarkedOnce tag attributes
  own : Attribute.get? childMarker attributes = none →
    Template.classOf? names (Template.baseTag (Template.writtenTag tag attributes)) = none

/-- The child views that clean-up leaves in a page, in pre-order. -/
def placedChildren (page : List Node) : List (Spot (Text × Option Text)) :=
  Outline.spotsAll (Node.outlineAll placed (standing page))

end Markup

namespace Template

/-- References are labelled alike exactly where they are read back. -/
theorem agrees_references {names : List Names} (hlabels : ∀ n ∈ names, ∃ l, Names.ofLabel l = .ok n)
    (hnodup : (names.map Names.elementTag).Nodup) :
    Agrees names Node.reference? Markup.placed (Markup.ReferenceRead names) := by
  intro tag attributes hchild properties children
  have hmark := Markup.markedOnce_iff tag attributes
  rw [reference?_make (refs_of_labels hlabels)]
  cases hvalue : Attribute.get? childMarker attributes with
  | none =>
      have hunmarked : ¬ Attribute.has childMarker attributes = true := by
        simp [Attribute.has, hvalue]
      simp only [Markup.placed, hvalue, Option.map_none, Option.map_eq_none_iff,
        Markup.ownTag_of_none hvalue]
      exact ⟨fun h => ⟨fun hm => absurd hm hunmarked, fun _ => h⟩, fun h => h.own hvalue⟩
  | some value =>
      obtain ⟨n, hn, hnames⟩ := hchild value hvalue
      have hread : Markup.ReferenceRead names tag attributes ↔ Markup.MarkedOnce tag attributes :=
        ⟨fun h => h.child (by simp [Attribute.has, hvalue]),
          fun h => ⟨fun _ => h, fun hnone => by simp [hvalue] at hnone⟩⟩
      rw [hread, hmark]
      simp only [Markup.placed, hvalue, Option.map_some, hnames, Markup.ownTag_of_label hvalue hnames]
      constructor
      · intro h
        obtain ⟨className, -, hpair⟩ := Option.map_eq_some_iff.1 h
        simp only [Prod.mk.injEq] at hpair
        have hsocket := hpair.2
        unfold writtenTag at hsocket ⊢
        cases hget : Attribute.get? socketMarker attributes with
        | none => simpa [hget] using hsocket
        | some socket =>
            simp only [hget, Option.map_eq_some_iff, Prod.exists, exists_eq_right] at hsocket
            obtain ⟨base, hsplit⟩ := hsocket
            rw [hsplit, eq_of_splitSocketTag hsplit]
            rfl
      · intro h
        have hbase : baseTag (writtenTag (Extraction.placeholderTag n.elementTag) attributes) =
            Extraction.placeholderTag n.elementTag := by
          rw [baseTag, h]
          unfold writtenTag
          cases Attribute.get? socketMarker attributes <;> rfl
        rw [hbase, h, classOf?_placeholderTag hn hnodup, Option.map_some]
        cases Attribute.get? socketMarker attributes <;> rfl

end Template

/-! ## References of a view -/

namespace Markup

mutual

/-- The placeholders of a page are those of its extractions, in their order. -/
theorem placed_ofNode : ∀ {n m : Node} {es : List Extraction}, Extraction.ofNode n = .ok (m, es) →
    (Outline.values (n.outline placed)).map Prod.fst =
      es.map fun e => Template.controllerRef e.names.className
  | .element tag attributes children, m, es, h => by
      rcases Extraction.ofNode_element h with
        ⟨value, n, hvalue, hnames, rfl, rfl⟩ | ⟨hnone, ms, hms, rfl⟩
      · have hmarked : Attribute.has childMarker attributes = true := by
          simp [Attribute.has, hvalue]
        rw [Node.outline, if_pos hmarked, Outline.values_cons]
        simp [placed, hvalue, hnames]
      · have hmarked : ¬ Attribute.has childMarker attributes = true := by
          simp [Attribute.has, hnone]
        rw [Node.outline, if_neg hmarked, Outline.values_cons, ← placed_ofNodes hms]
        simp [placed, hnone]
  | .text value, m, es, h => by
      obtain ⟨rfl, rfl⟩ := Extraction.ofNode_text h
      simp [Node.outline]
  | .comment value, m, es, h => by
      obtain ⟨rfl, rfl⟩ := Extraction.ofNode_comment h
      simp [Node.outline]

/-- The child views of a page are those that are taken out of it. -/
theorem placed_ofNodes : ∀ {ns ms : List Node} {es : List Extraction},
    Extraction.ofNodes ns = .ok (ms, es) →
      (Outline.values (Node.outlineAll placed ns)).map Prod.fst =
        es.map fun e => Template.controllerRef e.names.className
  | [], ms, es, h => by
      obtain ⟨rfl, rfl⟩ := Extraction.ofNodes_nil h
      simp [Node.outlineAll]
  | n :: ns, ms, es, h => by
      obtain ⟨m, ms', es₁, es₂, hn, hns, rfl, rfl⟩ := Extraction.ofNodes_cons h
      rw [Node.outlineAll, Outline.values_append, List.map_append, placed_ofNode hn,
        placed_ofNodes hns, List.map_append]

end

end Markup

namespace View

/-- The references of a view's template, in pre-order. -/
def referenceSpots (v : View) : List (Spot (Text × Option Text)) :=
  Outline.spotsAll (Template.Node.outlineAll Template.Node.reference? v.nodes)

/-- The tags in a view's template, those of the targets of sockets included. -/
def templateTags (v : View) : List Text :=
  Outline.values (Template.Node.outlineAll Template.Node.tag? v.nodes)

/-- The expressions that render the children of a view. -/
def childRefs (v : View) : List Text :=
  v.children.map fun c => Template.controllerRef c.className

/-- How the references of a view relate to the child views that its page has kept. -/
structure ReferencesFound (v : View) (page : List Node) : Prop where
  surviving : ((Markup.placedChildren page).map fun s => s.value.1).Sublist v.childRefs
  nodup : v.childRefs.Nodup
  found_iff : v.referenceSpots = Markup.placedChildren page ↔
    Node.ReadsAll (Markup.ReferenceRead (v.children.map View.names)) Markup.placed
      (Markup.standing page)
  resolved : ∀ tag ∈ v.templateTags, ∀ c ∈ v.children,
    tag ≠ Extraction.placeholderTag c.names.elementTag

/-- In a view of a page, each child is referred to where it has been taken out. -/
theorem referencesFound_ofPage {label : Text} {names : Names} {page : List Node} {v : View}
    (h : ofPage label names page = .ok v) : ReferencesFound v page := by
  obtain ⟨hdecompose, hdistinct, -, -⟩ := ofPage_eq_ok h
  obtain ⟨-, hclasses⟩ := Extraction.nodup_of_firstDuplicate hdistinct
  obtain ⟨hlabels, htags, hnames⟩ := children_ofPage h
  obtain ⟨es', hstanding, hsub⟩ := Markup.ofNodes_standing hdecompose
  have hrefs : v.childRefs =
      (Markup.extractions page).map fun e => Template.controllerRef e.names.className := by
    have hmap := congrArg (List.map fun n : Names => Template.controllerRef n.className) hnames
    rw [List.map_map, List.map_map] at hmap
    exact hmap
  refine ⟨?_, ?_, ?_, ?_⟩
  · have hplaced := Markup.placed_ofNodes hstanding
    rw [Outline.values, List.map_map] at hplaced
    rw [hrefs]
    exact hplaced ▸ hsub.map _
  · rw [hrefs]
    have hmap := hclasses.map fun _ _ => controllerRef_injective
    rwa [List.map_map] at hmap
  · rw [referenceSpots, nodes_ofPage h]
    refine Template.spotsAll_bound_iff (Template.agrees_references hlabels htags) hstanding ?_
    intro e he
    rw [hnames]
    exact List.mem_map_of_mem (hsub.subset he)
  · intro tag htag c hc
    rw [templateTags, nodes_ofPage h] at htag
    exact Template.tagsAll_bound hlabels tag htag c.names (List.mem_map_of_mem hc)

theorem referencesFound_of_compiledFrom {v : View} {page : List Node} (h : CompiledFrom v page) :
    ReferencesFound v page := by
  cases h with
  | page h => exact referencesFound_ofPage h
  | blank label names =>
      have hstanding : Markup.standing [] = [] := rfl
      refine ⟨List.Sublist.refl [], List.nodup_nil, ?_, by simp [View.blank]⟩
      simp [referenceSpots, Markup.placedChildren, hstanding, View.blank,
        Template.Node.outlineAll, Markup.Node.outlineAll, Markup.Node.ReadsAll]

/-- In every view of a compiled tree each child view that clean-up leaves is referred to once, at its
place, exactly if the tags of the page are read back as they were written. -/
theorem compile_references {label source : Text} {v : View} (h : compile label source = .ok v) :
    List.Forall₂ ReferencesFound v.descendants (Markup.pages (sourcePage source)) :=
  (forall₂_compiledFrom h).imp fun _ _ hd => referencesFound_of_compiledFrom hd

/-- A child view in an element, and one that is ignored. -/
theorem compile_references_menu : ∃ v,
    compile (text "page")
        (text "<main><p af-el='menu'>b</p></main><div af-ignore><p af-el='note'>c</p></div>") =
        .ok v ∧
      List.Forall₂ ReferencesFound v.descendants (Markup.pages (sourcePage
        (text "<main><p af-el='menu'>b</p></main><div af-ignore><p af-el='note'>c</p></div>"))) := by
  have hok : (compile (text "page")
      (text "<main><p af-el='menu'>b</p></main><div af-ignore><p af-el='note'>c</p></div>")).isOk =
        true := by
    decide +kernel
  obtain ⟨v, hv⟩ := exists_of_isOk hok
  exact ⟨v, hv, compile_references hv⟩

end View

end Viewloom
