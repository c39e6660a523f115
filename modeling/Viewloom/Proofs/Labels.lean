import Viewloom.Proofs.Html.Blank
import Viewloom.Proofs.Pages

/-!
# Every marker becomes a view

The views of a compiled source are the markers of its page: in the same order, and below the same
markers. What surrounds a marker does not matter, since nothing is cleaned up before the children of
a page are taken out.
-/

namespace Viewloom

open Markup (Node)

namespace Attribute

/-- The values of all attributes of a name. -/
def valuesOf (name : Text) (attributes : List Attribute) : List Text :=
  (attributes.filter fun a => a.name == name).map Attribute.value

@[simp]
theorem valuesOf_nil (name : Text) : valuesOf name [] = [] := rfl

theorem valuesOf_cons (name : Text) (a : Attribute) (attributes : List Attribute) :
    valuesOf name (a :: attributes) =
      if a.name = name then a.value :: valuesOf name attributes else valuesOf name attributes := by
  by_cases h : a.name = name <;> simp [valuesOf, h]

theorem valuesOf_of_get?_eq_none {name : Text} {attributes : List Attribute}
    (h : get? name attributes = none) : valuesOf name attributes = [] := by
  simpa [valuesOf] using get?_eq_none_iff.1 h

/-- The values of an attribute are the one that is found and those of the others. -/
theorem valuesOf_of_get? {name value : Text} {attributes : List Attribute}
    (h : get? name attributes = some value) :
    valuesOf name attributes = value :: valuesOf name (erase name attributes) := by
  induction attributes with
  | nil => simp [get?] at h
  | cons a as ih =>
      by_cases ha : a.name = name
      · simp only [get?, if_pos ha, Option.some.injEq] at h
        simp [valuesOf_cons, erase, ha, h]
      · simp only [get?, if_neg ha] at h
        simp [valuesOf_cons, erase, ha, ih h]

/-- Dropping an attribute leaves the values of the others. -/
theorem valuesOf_erase_of_ne {name other : Text} (h : name ≠ other) (attributes : List Attribute) :
    valuesOf name (erase other attributes) = valuesOf name attributes := by
  induction attributes with
  | nil => rfl
  | cons a as ih =>
      by_cases ha : a.name = other
      · simp [valuesOf_cons, erase, ha, h.symm]
      · simp [valuesOf_cons, erase, ha, ih]

theorem valuesOf_set_of_ne {name other : Text} (h : name ≠ other) (value : Text)
    (attributes : List Attribute) :
    valuesOf name (set other value attributes) = valuesOf name attributes := by
  induction attributes with
  | nil => simp [set, valuesOf_cons, h.symm]
  | cons a as ih =>
      by_cases ha : a.name = other
      · simp [valuesOf_cons, set, ha, h.symm]
      · simp [valuesOf_cons, set, ha, ih]

end Attribute

/-- Labels with what stands below them. -/
inductive LabelTree where
  | node (label : Text) (inner : List LabelTree)

namespace LabelTree

/-- Labels one around the other, around what stands in the innermost one. -/
def nest (labels : List Text) (inner : List LabelTree) : List LabelTree :=
  labels.foldr (fun label inner => [node label inner]) inner

mutual

/-- The labels of a tree in pre-order. -/
def labels : LabelTree → List Text
  | node label inner => label :: labelsAll inner

/-- The labels of a forest, every one in front of those below it. -/
def labelsAll : List LabelTree → List Text
  | [] => []
  | tree :: trees => tree.labels ++ labelsAll trees

end

theorem labelsAll_append (trees others : List LabelTree) :
    labelsAll (trees ++ others) = labelsAll trees ++ labelsAll others := by
  induction trees with
  | nil => rfl
  | cons tree trees ih => simp [labelsAll, ih]

/-- Nested labels stand in front of what is in them. -/
theorem labelsAll_nest (labels : List Text) (inner : List LabelTree) :
    labelsAll (nest labels inner) = labels ++ labelsAll inner := by
  induction labels with
  | nil => rfl
  | cons label labels ih => simpa [nest, labelsAll, LabelTree.labels] using ih

end LabelTree

namespace Markup

open LabelTree (nest labelsAll)

/-- The labels that mark an element. -/
def markerValues (attributes : List Attribute) : List Text :=
  Attribute.valuesOf childMarker attributes

/-- Every child marker has a value. -/
theorem length_markerValues (attributes : List Attribute) :
    (markerValues attributes).length = markersOf attributes := by
  simp [markerValues, Attribute.valuesOf, markersOf, List.countP_eq_length_filter]

mutual

/-- The labels of a node in document order. -/
def Node.markerLabels : Node → List Text
  | .element _ attributes children => markerValues attributes ++ markerLabelsAll children
  | _ => []

/-- The values of the child markers among nodes, in the order of the page. -/
def Node.markerLabelsAll : List Node → List Text
  | [] => []
  | n :: ns => n.markerLabels ++ markerLabelsAll ns

end

mutual

/-- The labels of a node, each below the label of the nearest marked element around it. -/
def Node.labelForest : Node → List LabelTree
  | .element _ attributes children => nest (markerValues attributes) (labelForestAll children)
  | _ => []

def Node.labelForestAll : List Node → List LabelTree
  | [] => []
  | n :: ns => n.labelForest ++ labelForestAll ns

end

mutual

/-- The labels of the forest of a node are the values of its markers. -/
theorem Node.labelsAll_labelForest : ∀ n : Node, labelsAll n.labelForest = n.markerLabels
  | .element _ attributes children => by
      simp [Node.labelForest, Node.markerLabels, LabelTree.labelsAll_nest,
        Node.labelsAll_labelForestAll children]
  | .text _ => rfl
  | .comment _ => rfl

/-- The labels of a page are listed in document order. -/
theorem Node.labelsAll_labelForestAll :
    ∀ ns : List Node, labelsAll (Node.labelForestAll ns) = Node.markerLabelsAll ns
  | [] => rfl
  | n :: ns => by
      simp [Node.labelForestAll, Node.markerLabelsAll, LabelTree.labelsAll_append,
        Node.labelsAll_labelForest n, Node.labelsAll_labelForestAll ns]

end

mutual

/-- A node has as many labels as markers. -/
theorem Node.length_markerLabels : ∀ n : Node, n.markerLabels.length = n.markers
  | .element _ attributes children => by
      simp [Node.markerLabels, Node.markers, length_markerValues,
        Node.length_markerLabelsAll children]
  | .text _ => rfl
  | .comment _ => rfl

theorem Node.length_markerLabelsAll :
    ∀ ns : List Node, (Node.markerLabelsAll ns).length = Node.markersAll ns
  | [] => rfl
  | n :: ns => by
      simp [Node.markerLabelsAll, Node.markersAll, Node.length_markerLabels n,
        Node.length_markerLabelsAll ns]

end

theorem markerValues_scopeAttributes (attributes : List Attribute) :
    markerValues (scopeAttributes attributes) = markerValues attributes := by
  unfold scopeAttributes
  split
  · exact Attribute.valuesOf_set_of_ne class_ne_childMarker.symm ..
  · rfl

mutual

/-- Scoping keeps the labels of a page. -/
theorem Node.labelForest_scope (css : Bool) : ∀ n : Node, (n.scope css).labelForest = n.labelForest
  | .element tag attributes children => by
      simp [Node.scope, Node.labelForest, markerValues_scopeAttributes,
        Node.labelForestAll_scopeAll _ children]
  | .text _ => rfl
  | .comment _ => rfl

/-- Scoping moves no marker. -/
theorem Node.labelForestAll_scopeAll (css : Bool) :
    ∀ ns : List Node, Node.labelForestAll (Node.scopeAll css ns) = Node.labelForestAll ns
  | [] => rfl
  | n :: ns => by
      simp [Node.scopeAll, Node.labelForestAll, Node.labelForest_scope css n,
        Node.labelForestAll_scopeAll css ns]

end

end Markup

namespace Extraction

/-- The label of an extraction, with the labels that are left in its element. -/
def labelTree (e : Extraction) : LabelTree :=
  .node e.label (Node.labelForestAll [e.element.toNode])

mutual

/-- The forest of a node is that of the extractions, each with what is marked in it. -/
theorem labelForest_ofNode : ∀ {n m : Node} {es : List Extraction},
    ofNode n = .ok (m, es) → n.labelForest = es.map labelTree
  | .element tag attributes children, m, es, h => by
      rcases ofNode_element h with ⟨label, names, hlabel, -, -, rfl⟩ | ⟨hnone, ms, hms, -⟩
      · have hvalues : Markup.markerValues attributes = label :: Markup.markerValues
            (Attribute.erase socketMarker (Attribute.erase childMarker attributes)) := by
          unfold Markup.markerValues
          rw [Attribute.valuesOf_of_get? hlabel,
            Attribute.valuesOf_erase_of_ne (by decide : childMarker ≠ socketMarker)]
        simp [Node.labelForest, hvalues, labelTree, Markup.Element.toNode, Node.labelForestAll,
          LabelTree.nest]
      · have hvalues : Markup.markerValues attributes = [] :=
          Attribute.valuesOf_of_get?_eq_none hnone
        simpa [Node.labelForest, hvalues, LabelTree.nest] using labelForest_ofNodes hms
  | .text _, m, es, h => by
      obtain ⟨rfl, rfl⟩ := ofNode_text h
      simp [Node.labelForest]
  | .comment _, m, es, h => by
      obtain ⟨rfl, rfl⟩ := ofNode_comment h
      simp [Node.labelForest]

/-- Extraction takes one label from the top of each tree of a page. -/
theorem labelForest_ofNodes : ∀ {ns ms : List Node} {es : List Extraction},
    ofNodes ns = .ok (ms, es) → Node.labelForestAll ns = es.map labelTree
  | [], _, _, h => by
      obtain ⟨rfl, rfl⟩ := ofNodes_nil h
      simp [Node.labelForestAll]
  | n :: ns, _, _, h => by
      obtain ⟨m, ms, es₁, es₂, hm, hms, -, rfl⟩ := ofNodes_cons h
      simp [Node.labelForestAll, labelForest_ofNode hm, labelForest_ofNodes hms]

end

end Extraction

namespace View

mutual

/-- The labels of a tree of views. -/
def labelTree : View → LabelTree
  | ⟨label, _, _, _, _, _, children⟩ => .node label (labelTreeAll children)

def labelTreeAll : List View → List LabelTree
  | [] => []
  | v :: vs => labelTree v :: labelTreeAll vs

end

mutual

/-- The labels of the tree of a view are those of the views below it, in their order. -/
theorem labels_labelTree : ∀ v : View, (labelTree v).labels = (descendants v).map View.label
  | ⟨_, _, _, _, _, _, children⟩ => by
      simp [labelTree, LabelTree.labels, descendants, labelsAll_labelTreeAll children]

theorem labelsAll_labelTreeAll :
    ∀ vs : List View, LabelTree.labelsAll (labelTreeAll vs) = (descendantsAll vs).map View.label
  | [] => rfl
  | v :: vs => by
      simp [labelTreeAll, LabelTree.labelsAll, descendantsAll, labels_labelTree v,
        labelsAll_labelTreeAll vs]

end

/-- The labels of a view are its own and those of its page. -/
theorem labelTree_ofPage {label : Text} {names : Names} {page : List Node} {v : View}
    (h : ofPage label names page = .ok v) : v.labelTree = .node label (Node.labelForestAll page) := by
  induction page using Markup.page_induction generalizing label names v with
  | step page ih =>
      obtain ⟨hdecompose, -, hchildren, hassemble⟩ := ofPage_eq_ok h
      obtain ⟨ms, hms, -⟩ := Markup.decompose_eq_ok hdecompose
      have hpage : Node.labelForestAll page =
          (Markup.extractions page).map Extraction.labelTree := by
        rw [← Extraction.labelForest_ofNodes hms, Markup.scope, Node.labelForestAll_scopeAll]
      have hlabel : v.label = label := by rw [(assemble_eq_ok hassemble).2]
      have hall : labelTreeAll v.children =
          (Markup.extractions page).map Extraction.labelTree := by
        generalize v.children = vs at hchildren
        generalize Markup.extractions page = es at hchildren ih
        induction hchildren with
        | nil => rfl
        | cons hchild _ ihs =>
            simp only [List.mem_cons, forall_eq_or_imp] at ih
            rw [labelTreeAll, ih.1 hchild, ihs ih.2]
            rfl
      obtain ⟨vlabel, vnames, markup, sockets, nodes, template, children⟩ := v
      obtain rfl : vlabel = label := hlabel
      rw [labelTree, hpage]
      exact congrArg _ hall

end View

namespace Html.Tree

mutual

/-- A document without attributes has no labels. -/
theorem labelForest_toMarkup : ∀ {tree : Tree}, tree.Each (· = []) → tree.toMarkup.labelForest = []
  | element id name attributes children, h => by
      simp [toMarkup, Node.labelForest, h.1, Markup.markerValues, LabelTree.nest,
        labelForestAll_toMarkupAll h.2]
  | text _, _ => rfl
  | comment _, _ => rfl

theorem labelForestAll_toMarkupAll : ∀ {trees : List Tree}, EachOf (· = []) trees →
    Node.labelForestAll (toMarkupAll trees) = []
  | [], _ => rfl
  | tree :: trees, h => by
      simp [toMarkupAll, Node.labelForestAll, labelForest_toMarkup h.1,
        labelForestAll_toMarkupAll h.2]

end

end Html.Tree

/-- A blank source has no markers. -/
theorem Html.labelForestAll_parseBody {source : Text} (h : Text.isAllBlank source = true) :
    Node.labelForestAll (Html.parseBody source) = [] := by
  unfold Html.parseBody
  split
  · next content hcontent =>
    exact Html.Tree.labelForestAll_toMarkupAll
      (Html.Tree.eachOf_of_contentOfAll? (Html.bare_parseDocument h) hcontent)
  · rfl

namespace View

/-- The labels of a compiled view form the tree of the markers of its source. -/
theorem labelTree_compile {label source : Text} {v : View} (h : compile label source = .ok v) :
    v.labelTree = .node label (Node.labelForestAll (Html.parseBody source)) := by
  unfold compile at h
  split at h
  · simp at h
  · next names _ =>
    unfold ofSource at h
    split at h
    · next hblank =>
      simp only [Except.ok.injEq] at h
      rw [Html.labelForestAll_parseBody hblank, ← h]
      rfl
    · exact labelTree_ofPage h

/-- No marker is lost, doubled or moved: the views of a source stand for its markers, each below the
view of the nearest marked element around it, and they are listed in document order. -/
theorem descendants_labels {label source : Text} {v : View} (h : compile label source = .ok v) :
    v.labelTree = .node label (Node.labelForestAll (Html.parseBody source)) ∧
      v.descendants.map View.label = label :: Node.markerLabelsAll (Html.parseBody source) ∧
        v.count = 1 + Node.markersAll (Html.parseBody source) := by
  have htree := labelTree_compile h
  have hlabels : v.descendants.map View.label =
      label :: Node.markerLabelsAll (Html.parseBody source) := by
    rw [← labels_labelTree, htree, LabelTree.labels, Node.labelsAll_labelForestAll]
  refine ⟨htree, hlabels, ?_⟩
  rw [← length_descendants, ← List.length_map View.label, hlabels, List.length_cons,
    Node.length_markerLabelsAll, Nat.add_comm]

/-- Markers inside another one, inside an ignored and inside an emptied element. -/
def markedSource : Text :=
  text "<p af-el='a'><b af-el='b'>x</b></p><div af-ignore><i af-el='c'>y</i></div>" ++
    text "<u af-empty><q af-el='d'>z</q></u>"

/-- Markers in ignored, emptied and script elements count. -/
theorem descendants_labels_markedSource :
    ∃ v, compile (text "page") markedSource = .ok v ∧
      v.descendants.map View.label = [text "page", text "a", text "b", text "c", text "d"] ∧
        v.count = 5 := by
  have hok : (compile (text "page") markedSource).isOk = true := by decide +kernel
  obtain ⟨v, hv⟩ := exists_of_isOk hok
  obtain ⟨-, hlabels, hcount⟩ := descendants_labels hv
  have hmarkers : Node.markerLabelsAll (Html.parseBody markedSource) =
      [text "a", text "b", text "c", text "d"] := by decide +kernel
  rw [hmarkers] at hlabels
  rw [← Node.length_markerLabelsAll, hmarkers] at hcount
  exact ⟨v, hv, hlabels, hcount⟩

end View

end Viewloom
