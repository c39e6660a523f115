import Viewloom.Proofs.Spacing.Parts

/-!
# Texts of printed templates

Each text of a template is shown as it is rendered, in the width of its white space, unless a line break
or the trimming of a line takes the white space at one of its ends.
-/

namespace Viewloom.Template

open Spacing
open Viewloom.Template.Part (code shown)

/-! ## The texts among the parts -/

/-- The values that parts show, in their order. -/
def valuesOf (ps : List Part) : List Text := ps.filterMap Part.value?

@[simp] theorem valuesOf_nil : valuesOf [] = [] := rfl

@[simp] theorem valuesOf_code (c : Text) (ps : List Part) : valuesOf (code c :: ps) = valuesOf ps := rfl

@[simp] theorem valuesOf_shown (value kept : Text) (ps : List Part) :
    valuesOf (shown value kept :: ps) = value :: valuesOf ps := rfl

@[simp] theorem valuesOf_append (ps qs : List Part) :
    valuesOf (ps ++ qs) = valuesOf ps ++ valuesOf qs := List.filterMap_append

theorem valuesOf_between (first : Text) (inner : List Part) (last : Text) :
    valuesOf (Part.between first inner last) = valuesOf inner := by
  simp [Part.between]

mutual

/-- The values that the parts of a node show are its texts. -/
theorem valuesOf_parts : ∀ n : Node, valuesOf n.parts = n.texts
  | .text value => rfl
  | .comment value => rfl
  | .element tag properties [] => rfl
  | .component tag properties [] => rfl
  | .element tag properties (n :: ns) => by
      rw [Node.parts, valuesOf_between, valuesOf_partsAll (n :: ns), Node.texts]
  | .component tag properties (n :: ns) => by
      rw [Node.parts, valuesOf_between, valuesOf_partsAll (n :: ns), Node.texts]
  | .socket name target _ .proxied => rfl
  | .socket name target _ (.fallback nodes) => by
      rw [Node.parts, valuesOf_between, valuesOf_partsAll nodes, Node.texts]
  | .socket name target _ (.nested nodes) => by
      rw [Node.parts, valuesOf_between, valuesOf_partsAll nodes, Node.texts]

theorem valuesOf_partsAll : ∀ ns : List Node, valuesOf (Node.partsAll ns) = Node.textsAll ns
  | [] => rfl
  | n :: ns => by
      rw [Node.partsAll, valuesOf_append, valuesOf_parts n, valuesOf_partsAll ns, Node.textsAll]

end

theorem filter_isShown_between (first : Text) (inner : List Part) (last : Text) :
    (Part.between first inner last).filter Part.isShown = inner.filter Part.isShown := by
  simp [Part.between, Part.isShown, Part.value?]

theorem filter_isShown_enclosed (first : Text) (inner : List (List Part)) (last : Text) :
    (Part.enclosed first inner last).flatten.filter Part.isShown =
      inner.flatten.filter Part.isShown := by
  simp [Part.enclosed, Part.isShown, Part.value?]

theorem filter_isShown_line (depth : Nat) (ps : List Part) :
    [code (Markup.indentation depth) :: ps].flatten.filter Part.isShown =
      ps.filter Part.isShown := by
  simp [Part.isShown, Part.value?]

theorem filter_isShown_element (tag : Text) (properties : List Property) (children : List Node) :
    (Node.element tag properties children).parts.filter Part.isShown =
      (Node.partsAll children).filter Part.isShown := by
  cases children with
  | nil => rfl
  | cons n ns => exact filter_isShown_between _ _ _

theorem filter_isShown_component (tag : Text) (properties : List Property) (children : List Node) :
    (Node.component tag properties children).parts.filter Part.isShown =
      (Node.partsAll children).filter Part.isShown := by
  cases children with
  | nil => rfl
  | cons n ns => exact filter_isShown_between _ _ _

mutual

/-- However a node is laid out, its texts are the same. -/
theorem filter_isShown_lines (depth : Nat) : ∀ n : Node,
    (n.lines depth).flatten.filter Part.isShown = n.parts.filter Part.isShown
  | .element tag properties children => by
      rw [Node.lines]
      split
      · rw [filter_isShown_enclosed, filter_isShown_linesAll (depth + 1) children,
          filter_isShown_element]
      · exact filter_isShown_line depth _
  | .component tag properties children => by
      rw [Node.lines]
      split
      · rw [filter_isShown_enclosed, filter_isShown_linesAll (depth + 1) children,
          filter_isShown_component]
      · exact filter_isShown_line depth _
  | .socket name target inner (.fallback nodes) => by
      rw [Node.lines]
      split
      · rw [filter_isShown_enclosed, filter_isShown_linesAll (depth + 1) nodes, Node.parts,
          filter_isShown_between]
      · exact filter_isShown_line depth _
  | .socket name target inner (.nested nodes) => by
      rw [Node.lines]
      split
      · rw [filter_isShown_enclosed, filter_isShown_linesAll (depth + 1) nodes, Node.parts,
          filter_isShown_between]
      · exact filter_isShown_line depth _
  | .socket name target inner .proxied => filter_isShown_line depth _
  | .text value => filter_isShown_line depth _
  | .comment value => filter_isShown_line depth _

/-- The lines of nodes show what the nodes show on one line. -/
theorem filter_isShown_linesAll (depth : Nat) : ∀ ns : List Node,
    (Node.linesAll depth ns).flatten.filter Part.isShown =
      (Node.partsAll ns).filter Part.isShown
  | [] => rfl
  | n :: ns => by
      rw [Node.linesAll, List.flatten_append, List.filter_append, filter_isShown_lines depth n,
        filter_isShown_linesAll depth ns, Node.partsAll, List.filter_append]

end

/-- Trimming changes no value that a part shows. -/
theorem map_value?_trimFirst (trim : Text → Text) (ps : List Part) :
    (Part.trimFirst trim ps).map Part.value? = ps.map Part.value? := by
  induction ps with
  | nil => rfl
  | cons p ps ih =>
      cases p with
      | code c => rfl
      | shown value kept =>
          rw [Part.trimFirst]
          split <;> simp [Part.value?, ih]

theorem map_value?_trimmed (ps : List Part) : (Part.trimmed ps).map Part.value? = ps.map Part.value? := by
  rw [Part.trimmed, List.map_reverse, map_value?_trimFirst, List.map_reverse, map_value?_trimFirst,
    List.reverse_reverse]

/-- Parts of which the same are shown have the same values. -/
theorem valuesOf_eq_of_filter {ps qs : List Part}
    (h : ps.filter Part.isShown = qs.filter Part.isShown) : valuesOf ps = valuesOf qs := by
  have hshown : ∀ rs : List Part, valuesOf rs = valuesOf (rs.filter Part.isShown) := by
    intro rs
    induction rs with
    | nil => rfl
    | cons r rs ih =>
        cases r with
        | code c => exact ih
        | shown value kept => exact congrArg (value :: ·) ih
  rw [hshown ps, hshown qs, h]

theorem valuesOf_trimmed (ps : List Part) : valuesOf (Part.trimmed ps) = valuesOf ps := by
  have hvalues : ∀ qs : List Part, valuesOf qs = (qs.map Part.value?).filterMap id := fun qs => by
    rw [List.filterMap_map]
    rfl
  rw [hvalues, hvalues, map_value?_trimmed]

/-- Each text of a template is among the parts, in its order. -/
theorem valuesOf_printedLines (nodes : List Node) :
    valuesOf (printedLines nodes).flatten = Node.textsAll nodes := by
  unfold printedLines
  split
  · rfl
  · rw [valuesOf_eq_of_filter (filter_isShown_lines 0 _), valuesOf_parts, Node.textsAll,
      Node.textsAll, List.append_nil]
  · rw [valuesOf_eq_of_filter (filter_isShown_lines 0 _), valuesOf_parts, Node.textsAll,
      Node.textsAll, List.append_nil]
  · rw [valuesOf_eq_of_filter (filter_isShown_enclosed _ _ _), lineList]
    split
    · rw [valuesOf_eq_of_filter (filter_isShown_line 1 _), valuesOf_trimmed, valuesOf_partsAll]
    · rw [valuesOf_eq_of_filter (filter_isShown_linesAll 1 _), valuesOf_partsAll]

/-! ## What is trimmed -/

/-- Whether all of a text is left. -/
def Part.isWhole : Part → Bool
  | .code _ => true
  | .shown value kept => kept == value

theorem all_isWhole_between {inner : List Part} (h : inner.all Part.isWhole = true)
    (first last : Text) : (Part.between first inner last).all Part.isWhole = true := by
  simp [Part.between, Part.isWhole, h]

mutual

/-- All of a text is left in the parts of a node. -/
theorem all_isWhole_parts : ∀ n : Node, n.parts.all Part.isWhole = true
  | .text value => by simp [Node.parts, Part.isWhole]
  | .comment value => rfl
  | .element tag properties [] => rfl
  | .component tag properties [] => rfl
  | .element tag properties (n :: ns) => all_isWhole_between (all_isWhole_partsAll (n :: ns)) _ _
  | .component tag properties (n :: ns) => all_isWhole_between (all_isWhole_partsAll (n :: ns)) _ _
  | .socket name target _ .proxied => rfl
  | .socket name target _ (.fallback nodes) => all_isWhole_between (all_isWhole_partsAll nodes) _ _
  | .socket name target _ (.nested nodes) => all_isWhole_between (all_isWhole_partsAll nodes) _ _

theorem all_isWhole_partsAll : ∀ ns : List Node, (Node.partsAll ns).all Part.isWhole = true
  | [] => rfl
  | n :: ns => by
      rw [Node.partsAll, List.all_append, all_isWhole_parts n, all_isWhole_partsAll ns, Bool.and_self]

end

/-- A part behind trimming is one from before, or a trimmed text in front of the first code. -/
theorem mem_trimFirst {trim : Text → Text} {ps : List Part} {p : Part}
    (h : p ∈ Part.trimFirst trim ps) : p ∈ ps ∨ ∃ value kept, p = shown value (trim kept) ∧
      shown value kept ∈ ps ∧ some value ∈ (ps.map Part.value?).takeWhile Option.isSome := by
  induction ps with
  | nil => exact Or.inl h
  | cons q ps ih =>
      cases q with
      | code c => exact Or.inl h
      | shown value kept =>
          rw [Part.trimFirst, List.mem_cons] at h
          rcases h with rfl | h
          · exact Or.inr ⟨value, kept, rfl, by simp, by simp [Part.value?]⟩
          · split at h
            · rcases ih h with hp | ⟨v, k, rfl, hmem, hedge⟩
              · exact Or.inl (List.mem_cons_of_mem _ hp)
              · refine Or.inr ⟨v, k, rfl, List.mem_cons_of_mem _ hmem, ?_⟩
                rw [List.map_cons, List.takeWhile_cons_of_pos rfl]
                exact List.mem_cons_of_mem _ hedge
            · exact Or.inl (List.mem_cons_of_mem _ h)

/-- A node that is no text begins and ends with code. -/
theorem map_value?_parts (n : Node) : (∃ value, n = .text value) ∨
    (∃ x, n.parts.map Part.value? = none :: x) ∧ ∃ y, n.parts.map Part.value? = y ++ [none] := by
  have hbetween (first : Text) (inner : List Part) (last : Text) :
      (∃ x, (Part.between first inner last).map Part.value? = none :: x) ∧
        ∃ y, (Part.between first inner last).map Part.value? = y ++ [none] := by
    refine ⟨⟨_, rfl⟩, none :: inner.map Part.value?, ?_⟩
    simp [Part.between, Part.value?]
  match n with
  | .text value => exact Or.inl ⟨value, rfl⟩
  | .comment value => exact Or.inr ⟨⟨[], rfl⟩, [], rfl⟩
  | .element tag properties [] => exact Or.inr ⟨⟨[], rfl⟩, [], rfl⟩
  | .component tag properties [] => exact Or.inr ⟨⟨[], rfl⟩, [], rfl⟩
  | .element tag properties (m :: ms) => exact Or.inr (hbetween _ _ _)
  | .component tag properties (m :: ms) => exact Or.inr (hbetween _ _ _)
  | .socket name target inner .proxied => exact Or.inr (hbetween _ _ _)
  | .socket name target inner (.fallback nodes) => exact Or.inr (hbetween _ _ _)
  | .socket name target inner (.nested nodes) => exact Or.inr (hbetween _ _ _)

theorem partsAll_append (ns ms : List Node) :
    Node.partsAll (ns ++ ms) = Node.partsAll ns ++ Node.partsAll ms := by
  induction ns with
  | nil => rfl
  | cons n ns ih => rw [List.cons_append, Node.partsAll, ih, Node.partsAll, List.append_assoc]

/-- In front of the first code stand texts from the beginning of the nodes. -/
theorem text_mem_of_begins {nodes : List Node} {value : Text}
    (h : some value ∈ ((Node.partsAll nodes).map Part.value?).takeWhile Option.isSome) :
    Node.text value ∈ nodes := by
  induction nodes with
  | nil => simp [Node.partsAll] at h
  | cons n ns ih =>
      rw [Node.partsAll, List.map_append] at h
      rcases map_value?_parts n with ⟨v, rfl⟩ | ⟨⟨x, hx⟩, -⟩
      · have hparts : (Node.text v).parts.map Part.value? = [some v] := rfl
        rw [hparts, List.singleton_append, List.takeWhile_cons_of_pos rfl, List.mem_cons] at h
        rcases h with h | h
        · rw [Option.some.inj h]
          exact List.mem_cons_self
        · exact List.mem_cons_of_mem _ (ih h)
      · rw [hx, List.cons_append, List.takeWhile_cons_of_neg (by simp)] at h
        cases h

/-- Behind the last code stand texts from their end. -/
theorem text_mem_of_ends {nodes : List Node} {value : Text}
    (h : some value ∈ ((Node.partsAll nodes).map Part.value?).reverse.takeWhile Option.isSome) :
    Node.text value ∈ nodes := by
  induction nodes using List.reverseRecOn with
  | nil => simp [Node.partsAll] at h
  | append_singleton ns n ih =>
      have hlast : Node.partsAll [n] = n.parts := by simp [Node.partsAll]
      rw [partsAll_append, hlast, List.map_append, List.reverse_append] at h
      rcases map_value?_parts n with ⟨v, rfl⟩ | ⟨-, y, hy⟩
      · have hparts : ((Node.text v).parts.map Part.value?).reverse = [some v] := rfl
        rw [hparts, List.singleton_append, List.takeWhile_cons_of_pos rfl, List.mem_cons] at h
        rcases h with h | h
        · rw [Option.some.inj h]
          simp
        · exact List.mem_append_left _ (ih h)
      · rw [hy, List.reverse_append, List.reverse_singleton, List.singleton_append, List.cons_append,
          List.takeWhile_cons_of_neg (by simp)] at h
        cases h

theorem kept_eq_of_mem_partsAll {nodes : List Node} {value kept : Text}
    (h : shown value kept ∈ Node.partsAll nodes) : kept = value := by
  simpa [Part.isWhole] using List.all_eq_true.1 (all_isWhole_partsAll nodes) _ h

theorem mem_of_filter_eq {ps qs : List Part} (h : ps.filter Part.isShown = qs.filter Part.isShown)
    {value kept : Text} (hmem : shown value kept ∈ ps) : shown value kept ∈ qs := by
  have hfilter : shown value kept ∈ ps.filter Part.isShown := List.mem_filter.2 ⟨hmem, rfl⟩
  rw [h] at hfilter
  exact (List.mem_filter.1 hfilter).1

/-- Only texts at the ends of the nodes are trimmed. -/
theorem trims_of_mem_trimmed {nodes : List Node} {value kept : Text}
    (h : shown value kept ∈ Part.trimmed (Node.partsAll nodes)) :
    kept = value ∨ Node.text value ∈ nodes ∧ Trims value kept := by
  have hstart {k : Text} (hk : shown value k ∈ Part.trimFirst Text.trimStart (Node.partsAll nodes)) :
      k = value ∨ Node.text value ∈ nodes ∧ k = Text.trimStart value := by
    rcases mem_trimFirst hk with hmem | ⟨v, k', heq, hmem, hedge⟩
    · exact Or.inl (kept_eq_of_mem_partsAll hmem)
    · obtain ⟨rfl, rfl⟩ := Part.shown.inj heq
      rw [kept_eq_of_mem_partsAll hmem]
      exact Or.inr ⟨text_mem_of_begins hedge, rfl⟩
  rw [Part.trimmed, List.mem_reverse] at h
  -- A text at both ends is trimmed twice.
  rcases mem_trimFirst h with hmem | ⟨v, k, heq, hmem, hedge⟩
  · rcases hstart (List.mem_reverse.1 hmem) with hk | ⟨htext, hk⟩
    · exact Or.inl hk
    · exact Or.inr ⟨htext, Or.inr (Or.inl hk)⟩
  · obtain ⟨rfl, rfl⟩ := Part.shown.inj heq
    rw [List.map_reverse, map_value?_trimFirst] at hedge
    refine Or.inr ⟨text_mem_of_ends hedge, Or.inr (Or.inr ?_)⟩
    rcases hstart (List.mem_reverse.1 hmem) with hk | ⟨-, hk⟩
    · exact Or.inl (by rw [hk])
    · exact Or.inr (by rw [hk]; rfl)

/-- A text in a printed line is kept as a whole, or it has been trimmed and stands at the top of the
template. -/
theorem trims_of_mem_printedLines {nodes : List Node} {value kept : Text}
    (h : shown value kept ∈ (printedLines nodes).flatten) :
    kept = value ∨ Node.text value ∈ nodes ∧ Trims value kept := by
  have hparts {n : Node} (hmem : shown value kept ∈ n.parts) : kept = value := by
    simpa [Part.isWhole] using List.all_eq_true.1 (all_isWhole_parts n) _ hmem
  unfold printedLines at h
  split at h
  · simp at h
  · exact Or.inl (hparts (mem_of_filter_eq (filter_isShown_lines 0 _) h))
  · exact Or.inl (hparts (mem_of_filter_eq (filter_isShown_lines 0 _) h))
  · replace h := mem_of_filter_eq (filter_isShown_enclosed _ _ _) h
    rw [lineList] at h
    split at h
    · exact trims_of_mem_trimmed (mem_of_filter_eq (filter_isShown_line 1 _) h)
    · exact Or.inl (kept_eq_of_mem_partsAll (mem_of_filter_eq (filter_isShown_linesAll 1 _) h))

/-! ## What a printed template shows -/

/-- How the texts of a template are printed and shown. -/
structure ShowsTexts (nodes : List Node) : Prop where
  /-- The parts make up the printed template. -/
  printed : List.intercalate ['\n'] ((printedLines nodes).map textOf) = print nodes
  /-- Among them are the texts of the template in its order. -/
  texts : valuesOf (printedLines nodes).flatten = Node.textsAll nodes
  /-- A text is trimmed only if it is a root of the template. -/
  trims : ∀ value kept, shown value kept ∈ (printedLines nodes).flatten →
    kept = value ∨ Node.text value ∈ nodes ∧ Trims value kept
  /-- A text is shown as it is rendered, in the width of its white space, exactly if nothing of it has
  been trimmed away and it is unbroken. -/
  shows : ∀ value kept, shown value kept ∈ (printedLines nodes).flatten → ∀ components proxies,
    collapse (shownText (shown value kept).text) =
        collapse (decoded ((Node.text value).render components proxies)) ↔
      kept = value ∧ Unbroken value

/-- Every template shows all of its texts, except for the white space that line breaks take from them. -/
theorem print_showsTexts (nodes : List Node) : ShowsTexts nodes where
  printed := join_printedLines nodes
  texts := valuesOf_printedLines nodes
  trims _ _ h := trims_of_mem_printedLines h
  shows value kept h components proxies := by
    have htrims : Trims value kept := (trims_of_mem_printedLines h).elim Or.inl And.right
    rw [Node.render, decoded_escapeText]
    exact collapse_shownText_iff_of_trims htrims

/-- A line break in front of an element takes the space with it, and between words it does not. -/
example : shownText (text "a\n") = text "a" ∧ shownText (text "a\nb") = text "a b" := by decide

end Viewloom.Template
