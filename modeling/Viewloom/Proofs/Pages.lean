import Mathlib.Data.List.Forall2
import Viewloom.Proofs.Extraction
import Viewloom.View.Compile

/-!
# The pages of a view tree

Each view of a compiled tree has a page of its own: the root has the page that is compiled, a child
the element that was taken out of the page of its parent.
-/

namespace Viewloom

open Markup (Node)

theorem exists_of_isOk {ε α : Type} {x : Except ε α} (h : x.isOk = true) :
    ∃ a, x = .ok a := by
  cases x with
  | error e => cases h
  | ok a => exact ⟨a, rfl⟩

/-- What a computation that succeeds returns, and what is tested of it. -/
theorem exists_of_any {ε α : Type} {x : Except ε α} {p : α → Prop} [DecidablePred p]
    (h : x.toOption.any (fun a => decide (p a)) = true) : ∃ a, x = .ok a ∧ p a := by
  cases x with
  | error e => cases h
  | ok a => exact ⟨a, rfl, of_decide_eq_true h⟩

namespace Extraction

theorem firstDuplicate_nil (tags classes : List Text) : firstDuplicate tags classes [] = none := rfl

theorem firstDuplicate_cons (tags classes : List Text) (e : Extraction) (es : List Extraction) :
    firstDuplicate tags classes (e :: es) =
      if e.names.elementTag ∈ tags then some e.names.elementTag
      else if e.names.className ∈ classes then some e.names.className
      else firstDuplicate (e.names.elementTag :: tags) (e.names.className :: classes) es :=
  rfl

/-- No child is declared twice exactly if neither a tag nor a class is repeated. -/
theorem firstDuplicate_eq_none_iff {tags classes : List Text} {es : List Extraction} :
    firstDuplicate tags classes es = none ↔
      (firstRepeated tags (es.map fun e => e.names.elementTag) = none ∧
        firstRepeated classes (es.map fun e => e.names.className) = none) := by
  induction es generalizing tags classes with
  | nil => simp [firstDuplicate_nil, firstRepeated]
  | cons e es ih =>
      rw [firstDuplicate_cons]
      by_cases htag : e.names.elementTag ∈ tags
      · simp [firstRepeated, htag]
      by_cases hclass : e.names.className ∈ classes
      · simp [firstRepeated, htag, hclass]
      · simp [firstRepeated, htag, hclass, ih]

/-- The children of a page that compiles have different tags and different classes. -/
theorem nodup_of_firstDuplicate {es : List Extraction} (h : firstDuplicate [] [] es = none) :
    (es.map fun e => e.names.elementTag).Nodup ∧ (es.map fun e => e.names.className).Nodup := by
  obtain ⟨htags, hclasses⟩ := firstDuplicate_eq_none_iff.1 h
  exact ⟨(firstRepeated_eq_none_iff.1 htags).1, (firstRepeated_eq_none_iff.1 hclasses).1⟩

mutual

/-- An extraction has the names of its label. -/
theorem ofLabel_of_mem_ofNode : ∀ {n m : Node} {es : List Extraction}, ofNode n = .ok (m, es) →
    ∀ e ∈ es, Names.ofLabel e.label = .ok e.names
  | .element _ _ _, _, _, h, e, he => by
      rcases ofNode_element h with ⟨_, _, _, hnames, _, rfl⟩ | ⟨_, _, hms, _⟩
      · simp only [List.mem_singleton] at he
        subst he
        exact hnames
      · exact ofLabel_of_mem_ofNodes hms e he
  | .text _, _, _, h, e, he => by
      obtain ⟨rfl, rfl⟩ := ofNode_text h
      cases he
  | .comment _, _, _, h, e, he => by
      obtain ⟨rfl, rfl⟩ := ofNode_comment h
      cases he

/-- The names of an extraction are those of its label. -/
theorem ofLabel_of_mem_ofNodes : ∀ {ns ms : List Node} {es : List Extraction},
    ofNodes ns = .ok (ms, es) → ∀ e ∈ es, Names.ofLabel e.label = .ok e.names
  | [], _, _, h, e, he => by
      obtain ⟨rfl, rfl⟩ := ofNodes_nil h
      cases he
  | n :: ns, _, _, h, e, he => by
      obtain ⟨_, _, _, _, hn, hns, _, rfl⟩ := ofNodes_cons h
      rcases List.mem_append.1 he with he | he
      · exact ofLabel_of_mem_ofNode hn e he
      · exact ofLabel_of_mem_ofNodes hns e he

end

end Extraction

namespace Markup

/-- A page is decomposed by extraction and then cleaned up. -/
theorem decompose_eq_ok {nodes rest : List Node} {es : List Extraction}
    (h : decompose nodes = .ok (rest, es)) :
    ∃ ms, Extraction.ofNodes nodes = .ok (ms, es) ∧ rest = cleanUp ms := by
  unfold decompose at h
  split at h
  · next ms _ hms =>
    simp only [Except.ok.injEq, Prod.mk.injEq] at h
    exact ⟨ms, h.2 ▸ hms, h.1.symm⟩
  · simp at h

/-- What the page of a view keeps when its children are taken out and it is cleaned up. -/
def remainder (page : List Node) : List Node :=
  match decompose (scope page) with
  | .ok (rest, _) => rest
  | .error _ => []

/-- What is taken out of the page of a view. -/
def extractions (page : List Node) : List Extraction :=
  match decompose (scope page) with
  | .ok (_, es) => es
  | .error _ => []

theorem remainder_cases (page : List Node) :
    (remainder page = [] ∧ extractions page = []) ∨
      ∃ ms, Extraction.ofNodes (scope page) = .ok (ms, extractions page) ∧
        remainder page = cleanUp ms := by
  unfold remainder extractions
  split
  · next rest es hdecompose =>
    obtain ⟨ms, hms, hrest⟩ := decompose_eq_ok hdecompose
    exact .inr ⟨ms, hms, hrest⟩
  · exact .inl ⟨rfl, rfl⟩

/-- The extractions of a page hold fewer markers than the page. -/
theorem markersAll_extractions (page : List Node) :
    Extraction.markersAll (extractions page) + (extractions page).length ≤
      Node.markersAll page := by
  unfold extractions
  split
  · next rest es h =>
    have := Extraction.markers_decompose h
    simpa only [scope, Node.markersAll_scopeAll] using this
  · simp [Extraction.markersAll]

mutual

/-- The page of a view, and the pages of the views below it, in the order of the views. -/
def pages (page : List Node) : List (List Node) := page :: pagesOf (extractions page)
termination_by 2 * Node.markersAll page + 1
decreasing_by
  have := markersAll_extractions page
  omega

def pagesOf : List Extraction → List (List Node)
  | [] => []
  | e :: es => pages [e.element.toNode] ++ pagesOf es
termination_by es => 2 * (Extraction.markersAll es + es.length)
decreasing_by
  · simp only [Node.markersAll, Extraction.markersAll, Extraction.markers, List.length_cons]
    omega
  · simp only [Extraction.markersAll, List.length_cons]
    omega

end

/-- The pages of extractions are those of each of them. -/
theorem mem_pagesOf_iff {es : List Extraction} {q : List Node} :
    q ∈ pagesOf es ↔ ∃ e ∈ es, q ∈ pages [e.element.toNode] := by
  induction es with
  | nil => simp [pagesOf]
  | cons e es ih => simp [pagesOf, ih]

theorem mem_pages_self (page : List Node) : page ∈ pages page := by
  rw [pages]
  exact List.mem_cons_self ..

/-- The pages of an extraction are pages of the whole. -/
theorem mem_pages {page q : List Node} {e : Extraction} (he : e ∈ extractions page)
    (hq : q ∈ pages [e.element.toNode]) : q ∈ pages page := by
  rw [pages]
  exact List.mem_cons_of_mem _ (mem_pagesOf_iff.2 ⟨e, he, hq⟩)

/-- What holds of a page if it holds of all that is taken out of it holds of every page. -/
theorem page_induction {P : List Node → Prop}
    (step : ∀ page, (∀ e ∈ extractions page, P [e.element.toNode]) → P page)
    (page : List Node) : P page := by
  induction hn : Node.markersAll page using Nat.strongRecOn generalizing page with
  | ind n ih =>
      refine step page fun e he => ?_
      have hsum := markersAll_extractions page
      have hmem : e.markers + 1 ≤ Extraction.markersAll (extractions page) +
          (extractions page).length := by
        obtain ⟨l₁, l₂, hl⟩ := List.append_of_mem he
        rw [hl, Extraction.markersAll_append]
        simp only [Extraction.markersAll, List.length_append, List.length_cons]
        omega
      have hmarkers : Node.markersAll [e.element.toNode] = e.markers := by
        simp [Node.markersAll, Extraction.markers]
      exact ih _ (by omega) [e.element.toNode] rfl

end Markup

namespace View

/-- A view is assembled of nodes without repeated sockets, from what is left of its page. -/
theorem assemble_eq_ok {label : Text} {names : Names} {rest : List Node} {children : List View}
    {v : View} (h : assemble label names rest children = .ok v) :
    (Markup.tagSockets rest).2.Nodup ∧
      v = ⟨label, names, Markup.prettyPrint rest, (Markup.tagSockets rest).2,
        (Template.bind (children.map View.names)
          (Template.ofMarkup (Markup.tagSockets rest).1)).1,
        Template.print (Template.bind (children.map View.names)
          (Template.ofMarkup (Markup.tagSockets rest).1)).1, children⟩ := by
  simp only [assemble] at h
  split at h
  · simp at h
  · next hnone =>
    simp only [Except.ok.injEq] at h
    exact ⟨(firstRepeated_eq_none_iff.1 hnone).1, h.symm⟩

/-- Child views are compiled one by one, each from its own element. -/
theorem ofExtractions_eq_ok {es : List Extraction} {vs : List View}
    (h : ofExtractions es = .ok vs) :
    List.Forall₂ (fun e v => ofPage e.label e.names [e.element.toNode] = .ok v) es vs := by
  induction es generalizing vs with
  | nil =>
      simp only [ofExtractions, Except.ok.injEq] at h
      exact h ▸ .nil
  | cons e es ih =>
      rw [ofExtractions] at h
      split at h
      · simp at h
      · next child hchild =>
        split at h
        · simp at h
        · next children hchildren =>
          simp only [Except.ok.injEq] at h
          exact h ▸ .cons hchild (ih hchildren)

/-- What a page that compiles has become. -/
theorem ofPage_eq_ok {label : Text} {names : Names} {page : List Node} {v : View}
    (h : ofPage label names page = .ok v) :
    Markup.decompose (Markup.scope page) =
        .ok (Markup.remainder page, Markup.extractions page) ∧
      Extraction.firstDuplicate [] [] (Markup.extractions page) = none ∧
      List.Forall₂ (fun e v => ofPage e.label e.names [e.element.toNode] = .ok v)
        (Markup.extractions page) v.children ∧
      assemble label names (Markup.remainder page) v.children = .ok v := by
  rw [ofPage] at h
  split at h
  · simp at h
  · next rest es hdecompose =>
    have hrest : Markup.remainder page = rest := by simp [Markup.remainder, hdecompose]
    have hes : Markup.extractions page = es := by simp [Markup.extractions, hdecompose]
    rw [hrest, hes]
    split at h
    · simp at h
    · next hnone =>
      split at h
      · simp at h
      · next children hchildren =>
        have hv : v.children = children := by rw [(assemble_eq_ok h).2]
        exact ⟨hdecompose, hnone, hv ▸ ofExtractions_eq_ok hchildren, hv ▸ h⟩

/-- A view has the names under which its page is compiled. -/
theorem names_ofPage {label : Text} {names : Names} {page : List Node} {v : View}
    (h : ofPage label names page = .ok v) : v.names = names := by
  obtain ⟨-, -, -, hassemble⟩ := ofPage_eq_ok h
  rw [(assemble_eq_ok hassemble).2]

theorem map_names_of_forall₂ {es : List Extraction} {vs : List View}
    (h : List.Forall₂ (fun e v => ofPage e.label e.names [e.element.toNode] = .ok v) es vs) :
    vs.map View.names = es.map Extraction.names := by
  induction h with
  | nil => rfl
  | cons hchild _ ih => simp [ih, names_ofPage hchild]

/-- Every view of a tree is compiled from its page. -/
theorem forall₂_pages {label : Text} {names : Names} {page : List Node} {v : View}
    (h : ofPage label names page = .ok v) :
    List.Forall₂ (fun d q => ∃ label names, ofPage label names q = .ok d) v.descendants
      (Markup.pages page) := by
  induction page using Markup.page_induction generalizing label names v with
  | step page ih =>
      obtain ⟨-, -, hchildren, -⟩ := ofPage_eq_ok h
      have hall : ∀ {es : List Extraction} {vs : List View},
          (∀ e ∈ es, e ∈ Markup.extractions page) →
          List.Forall₂ (fun e v => ofPage e.label e.names [e.element.toNode] = .ok v) es vs →
          List.Forall₂ (fun d q => ∃ label names, ofPage label names q = .ok d)
            (descendantsAll vs) (Markup.pagesOf es) := by
        intro es vs hmem hes
        induction hes with
        | nil => simp [descendantsAll, Markup.pagesOf]
        | cons hchild _ ihes =>
            simp only [List.mem_cons, forall_eq_or_imp] at hmem
            rw [descendantsAll, Markup.pagesOf]
            exact List.rel_append (ih _ hmem.1 hchild) (ihes hmem.2)
      obtain ⟨vlabel, vnames, markup, sockets, nodes, template, children⟩ := v
      rw [descendants, Markup.pages]
      exact .cons ⟨label, names, h⟩ (hall (fun _ he => he) hchildren)

/-- The page of a source text. A blank source has an empty page. -/
def sourcePage (source : Text) : List Node :=
  if Text.isAllBlank source then [] else Html.parseBody source

/-- A view that a page has become. -/
inductive CompiledFrom : View → List Node → Prop where
  | page {label : Text} {names : Names} {page : List Node} {v : View}
      (h : ofPage label names page = .ok v) : CompiledFrom v page
  | blank (label : Text) (names : Names) : CompiledFrom (blank label names) []

theorem pages_nil : Markup.pages [] = [[]] := by
  have hnil : Markup.extractions [] = [] := rfl
  rw [Markup.pages, hnil, Markup.pagesOf]

/-- The views of a source text that compiles are compiled from the pages of its page. -/
theorem forall₂_compiledFrom {label source : Text} {v : View} (h : compile label source = .ok v) :
    List.Forall₂ CompiledFrom v.descendants (Markup.pages (sourcePage source)) := by
  unfold compile at h
  split at h
  · simp at h
  · next names _ =>
    unfold ofSource at h
    unfold sourcePage
    split at h
    · next hblank =>
      simp only [Except.ok.injEq] at h
      rw [if_pos hblank, pages_nil, ← h]
      exact .cons (.blank label names) .nil
    · next hblank =>
      rw [if_neg hblank]
      exact (forall₂_pages h).imp fun _ _ ⟨_, _, hd⟩ => .page hd

/-- Every view of a compiled tree is compiled from a page of its own. -/
theorem exists_compiledFrom {label source : Text} {v d : View} (h : compile label source = .ok v)
    (hd : d ∈ v.descendants) : ∃ page, CompiledFrom d page := by
  obtain ⟨i, hi, rfl⟩ := List.getElem_of_mem hd
  have hpages := forall₂_compiledFrom h
  have hi' : i < (Markup.pages (sourcePage source)).length := hpages.length_eq ▸ hi
  exact ⟨_, hpages.get hi hi'⟩

end View

end Viewloom
