import Viewloom.Proofs.Emission
import Viewloom.Proofs.Frames
import Viewloom.Proofs.ShownTexts

/-!
# Compiling the markup of a view

The markup of a view without child views is a source of its own. It compiles to a view with the same
sockets, and with the same template exactly if the texts that the template shows are printed and read
in their places.
-/

namespace Viewloom

namespace Markup

variable {ns : List Node}

/-! ## Blank pages -/

/-- No node of a page that is laid out is printed as blanks. -/
theorem not_isAllBlank_compact {depth : Nat} {n m : Node} (h : n.laid? depth = some m) :
    Text.isAllBlank (m.compact false) = false := by
  have hopen : Unicode.isBlank '<' = false := by decide
  cases n with
  | comment value =>
      have hmark : Viewloom.text "<!--" = ['<', '!', '-', '-'] := by decide
      cases h
      simp [Node.compact, printComment, hmark, Text.isAllBlank, hopen]
  | text value =>
      rw [Node.laid?] at h
      split at h
      · cases h
      · next hblank =>
        cases h
        rw [Node.compact, if_neg Bool.false_ne_true, Html.isAllBlank_escapeText, isAllBlank_trim]
        exact Bool.eq_false_iff.2 hblank
  | element tag attributes children =>
      rw [Node.laid?] at h
      split at h
      all_goals
        cases h
        rw [Node.compact]
        split <;> simp [openTag, Text.isAllBlank, hopen]

/-- A page that is printed as blank shows nothing. -/
theorem laidAll_eq_nil_of_isAllBlank (h : Text.isAllBlank (prettyPrint ns) = true) :
    Node.laidAll 0 ns = [] := by
  rw [prettyPrint, Text.intercalate_eq_tail, broken_prettyLinesAll] at h
  cases hlaid : Node.laidAll 0 ns with
  | nil => rfl
  | cons m ms =>
      obtain ⟨n, -, hn⟩ := exists_of_mem_laidAll (hlaid ▸ List.mem_cons_self (a := m))
      have hbroken : (Node.compactAll false (breakEach 0 (m :: ms))).tail =
          m.compact false ++ Node.compactAll false (breakEach 0 ms) := rfl
      rw [hlaid, hbroken, Text.isAllBlank, List.all_append, Bool.and_eq_true] at h
      have hvisible := not_isAllBlank_compact hn
      rw [Text.isAllBlank, h.1] at hvisible
      cases hvisible

end Markup

namespace View

open Markup (Node remainder)

variable {label : Text} {names : Names} {rest : List Node} {v : View}

/-- A view without repeated sockets is assembled. -/
theorem assemble_of_nodup (label : Text) (names : Names) (children : List View)
    (h : (Markup.tagSockets rest).2.Nodup) :
    assemble label names rest children = .ok ⟨label, names, Markup.prettyPrint rest,
      (Markup.tagSockets rest).2, Template.bound (children.map View.names) rest,
      Template.print (Template.bound (children.map View.names) rest), children⟩ := by
  have hnone : firstRepeated [] (Markup.tagSockets rest).2 = none :=
    firstRepeated_eq_none_iff.2 ⟨h, by simp⟩
  simp only [assemble, hnone, Template.bound]

/-- A page without child views is compiled by assembling it. -/
theorem ofPage_of_decompose {page : List Node}
    (h : Markup.decompose (Markup.scope page) = .ok (rest, [])) :
    ofPage label names page = assemble label names rest [] := by
  rw [ofPage]
  split
  · next hfail =>
    rw [h] at hfail
    cases hfail
  · next hdecompose =>
    rw [h, Except.ok.injEq, Prod.mk.injEq] at hdecompose
    obtain ⟨rfl, rfl⟩ := hdecompose
    rw [Extraction.firstDuplicate_nil]
    simp [ofExtractions]

variable {source : Text}

/-- A view is compiled from the page of its source. -/
theorem compiledFrom_of_compile (h : compile label source = .ok v) :
    CompiledFrom v (sourcePage source) := by
  have hpages := forall₂_compiledFrom h
  obtain ⟨_, _, _, _, _, _, _⟩ := v
  rw [descendants, Markup.pages, List.forall₂_cons] at hpages
  exact hpages.1

/-- The sockets of a view are those of what is left of its page, each once. -/
theorem sockets_of_compiledFrom {page : List Node} (h : CompiledFrom v page) :
    v.sockets = (Markup.tagSockets (remainder page)).2 ∧ v.sockets.Nodup := by
  cases h with
  | page h =>
      obtain ⟨-, -, -, hassemble⟩ := ofPage_eq_ok h
      obtain ⟨hnodup, hv⟩ := assemble_eq_ok hassemble
      rw [hv]
      exact ⟨rfl, hnodup⟩
  | blank => exact ⟨rfl, List.nodup_nil⟩

/-- A view is printed with its template, unless its source is blank. -/
theorem template_compile (h : compile label source = .ok v) :
    v.template = if Text.isAllBlank source then [] else Template.print v.nodes := by
  rw [compile, names_compile h] at h
  dsimp only at h
  rw [ofSource] at h
  split at h
  · next hblank =>
    rw [if_pos hblank, ← Except.ok.inj h]
    rfl
  · next hblank =>
    obtain ⟨-, -, -, hassemble⟩ := ofPage_eq_ok h
    rw [if_neg hblank, (assemble_eq_ok hassemble).2]

/-- A blank source has no markup. -/
theorem markup_of_isAllBlank (h : compile label source = .ok v)
    (hblank : Text.isAllBlank source = true) : v.markup = [] := by
  rw [compile, names_compile h] at h
  dsimp only at h
  rw [ofSource, if_pos hblank] at h
  rw [← Except.ok.inj h]
  rfl

/-- What a view without child views is made of. -/
theorem madeOf_of_markersAll (h : compile label source = .ok v)
    (hmarkers : Node.markersAll (sourcePage source) = 0) :
    v.children = [] ∧ v.nodes = Template.bound [] (remainder (sourcePage source)) := by
  have hmade := madeOf_of_compiledFrom (compiledFrom_of_compile h)
  have hchildren := hmade.children
  rw [(Markup.remainder_of_markersAll hmarkers).2, List.forall₂_nil_left_iff] at hchildren
  refine ⟨hchildren, ?_⟩
  rw [hmade.nodes, hchildren]
  rfl

/-- What is read of the markup of a view without child views stays as it is. -/
theorem decompose_rereadAll (hmarkers : Node.markersAll (sourcePage source) = 0) :
    Markup.decompose (Markup.scope (Html.rereadAll (Markup.laidOut (remainder (sourcePage source))))) =
      .ok (Html.rereadAll (Markup.laidOut (remainder (sourcePage source))), []) := by
  refine Markup.decompose_of_frame (Markup.allOf_remainder
    (Markup.singleMarkers_pages source _ (Markup.mem_pages_self _)))
    (Markup.scope_remainder hmarkers) ?_
  rw [Markup.frameAll_rereadAll, Markup.frameAll_laidOut]

/-- Reading a page again keeps its sockets. -/
theorem sockets_rereadAll (page : List Node) :
    (Markup.tagSockets (Html.rereadAll (Markup.laidOut page))).2 = (Markup.tagSockets page).2 := by
  rw [Markup.tagSockets, ← Markup.sockets_frameAll false, Markup.frameAll_rereadAll,
    Markup.frameAll_laidOut, Markup.sockets_frameAll, Markup.tagSockets]

/-- The markup of a view without child views compiles. -/
theorem compile_markup_eq (h : compile label source = .ok v)
    (hmarkers : Node.markersAll (sourcePage source) = 0)
    (hlegible : Html.IsLegible (remainder (sourcePage source))) :
    ∃ w, compile label v.markup = .ok w ∧ w.sockets = v.sockets ∧
      w.nodes = Template.bound []
        (Html.rereadAll (Markup.laidOut (remainder (sourcePage source)))) := by
  have hfrom := compiledFrom_of_compile h
  obtain ⟨hsockets, hnodup⟩ := sockets_of_compiledFrom hfrom
  have hmarkup := (isCleared_of_compiledFrom hfrom
    (Markup.singleMarkers_pages source _ (Markup.mem_pages_self _))).printed
  rw [compile, names_compile h]
  dsimp only
  rw [ofSource, hmarkup, hsockets]
  split
  · next hblank =>
    -- A blank markup is not parsed, but there is nothing in it that the parser would have read.
    have hnone : Markup.laidOut (remainder (sourcePage source)) = [] := by
      rw [Markup.laidOut, Markup.laidAll_eq_nil_of_isAllBlank hblank]
      rfl
    refine ⟨_, rfl, ?_, ?_⟩
    · rw [← sockets_rereadAll, hnone]
      rfl
    · rw [hnone]
      rfl
  · rw [hlegible.parseBody_eq, ofPage_of_decompose (decompose_rereadAll hmarkers),
      assemble_of_nodup _ _ _ (by rwa [sockets_rereadAll, ← hsockets]), sockets_rereadAll]
    exact ⟨_, rfl, rfl, rfl⟩

/-- How the view that the markup of a view compiles to relates to the view. -/
structure Recompiled (v w : View) (source : Text) (rest : List Node) : Prop where
  sockets : w.sockets = v.sockets
  nodes_iff : w.nodes = v.nodes ↔ Markup.keepsTexts rest = true
  /-- The same nodes are printed as the same template, unless nothing of a source has been kept. -/
  template_iff : w.nodes = v.nodes →
    (w.template = v.template ↔
      (Text.isAllBlank v.markup = true → Text.isAllBlank source = true))
  /-- Pages of ordinary elements have the same nodes. -/
  ordinary : Node.ConvertedAll Markup.IsOrdinary rest →
    (∀ value, .text value ∈ rest → Template.isLayout value = true) → w.nodes = v.nodes

/-- The markup of a view without child views, if the parser understands how it is printed, compiles to a
view with the same sockets. That view has the same template exactly if all texts that a template shows
are read in their places, and something of the source has been kept. -/
theorem compile_markup (h : compile label source = .ok v)
    (hmarkers : Node.markersAll (sourcePage source) = 0)
    (hlegible : Html.IsLegible (remainder (sourcePage source))) :
    ∃ w, compile label v.markup = .ok w ∧
      Recompiled v w source (remainder (sourcePage source)) := by
  obtain ⟨w, hw, hsockets, hnodes⟩ := compile_markup_eq h hmarkers hlegible
  have hiff : w.nodes = v.nodes ↔ Markup.keepsTexts (remainder (sourcePage source)) = true := by
    rw [hnodes, (madeOf_of_markersAll h hmarkers).2]
    exact Template.bound_rereadAll_laidOut_iff ..
  refine ⟨w, hw, hsockets, hiff, fun hsame => ?_,
    fun hordinary htexts => hiff.2 (Markup.keepsTexts_of_isOrdinary hordinary htexts)⟩
  rw [template_compile hw, template_compile h, hsame]
  have hne := print_ne_nil v.nodes
  cases hsource : Text.isAllBlank source with
  | true =>
      rw [markup_of_isAllBlank h hsource]
      exact iff_of_true rfl fun _ => rfl
  | false => cases Text.isAllBlank v.markup <;> simp [hne.symm]

/-- A page with a socket among texts. -/
def socketSource : Text := text "<div><p af-sock=\"x\">a <b>b</b></p></div>"

def socketPage : List Node :=
  [.element (text "div") []
    [.element (text "p") [⟨text "af-sock", text "x"⟩]
      [.text (text "a "), .element (text "b") [] [.text (text "b")]]]]

theorem isLegible_socketPage : Html.IsLegible socketPage where
  fits := by
    have hlaid : Markup.laidOut socketPage =
        [.element (text "div") []
          [.text (text "\n  "), .element (text "p") [⟨text "af-sock", text "x"⟩]
            [.text (text "a "), .element (text "b") [] [.text (text "b")]], .text (text "\n")]] := by
      decide +kernel
    have hdiv : Html.IsStart Html.bodyNames (text "div") [] :=
      ⟨.of_all (show text "div" = 'd' :: text "iv" by decide) (by decide) (by decide) (by decide),
        ⟨by simp, by simp, by simp⟩, rfl⟩
    have hname : Html.IsWritable (text "af-sock") :=
      .of_all (show text "af-sock" = 'a' :: text "f-sock" by decide) (by decide) (by decide)
        (by decide)
    have hp : Html.IsStart (Html.Name.html (text "div") :: Html.bodyNames) (text "p")
        [⟨text "af-sock", text "x"⟩] :=
      ⟨.of_all (show text "p" = ['p'] by decide) (by decide) (by decide) (by decide),
        ⟨by simp [hname], by simp; decide, by simp⟩, by decide +kernel⟩
    have hb : Html.IsStart (Html.Name.html (text "p") :: Html.Name.html (text "div") ::
        Html.bodyNames) (text "b") [] :=
      ⟨.of_all (show text "b" = ['b'] by decide) (by decide) (by decide) (by decide),
        ⟨by simp, by simp, by simp⟩, rfl⟩
    rw [hlaid]
    refine ⟨⟨hdiv, ⟨by decide, by decide, rfl⟩, by decide, ⟨hp, ?_⟩, by decide,
      ⟨by decide, by decide, rfl⟩, by decide, trivial⟩, by decide, trivial⟩
    refine ⟨⟨by decide, by decide, rfl⟩, by decide, ⟨hb, ?_⟩, by decide, trivial⟩
    exact ⟨⟨by decide, by decide, rfl⟩, by decide, trivial⟩
  starts := by decide +kernel
  normal := .of_all (by decide +kernel) (by decide +kernel)

/-- The socket stays in its place. An image that is shown where no scripts run does not. -/
theorem compile_markup_socketSource :
    (∃ v w, compile (text "page") socketSource = .ok v ∧ compile (text "page") v.markup = .ok w ∧
      w.sockets = [text "x"] ∧ w.nodes = v.nodes ∧ w.template = v.template) ∧
    ∃ v w, compile (text "page") Html.imageSource = .ok v ∧ compile (text "page") v.markup = .ok w ∧
      w.nodes ≠ v.nodes := by
  constructor
  · have hpage : sourcePage socketSource = socketPage := by decide +kernel
    have hrest : remainder socketPage = socketPage := by decide +kernel
    have hkept : Markup.keepsTexts socketPage = true := by decide +kernel
    have hview : (compile (text "page") socketSource).toOption.any (fun v => decide
        (v.sockets = [text "x"] ∧ Text.isAllBlank v.markup = false)) = true := by decide +kernel
    obtain ⟨v, hv, hsockets, hblank⟩ := exists_of_any hview
    obtain ⟨w, hw, hrecompiled⟩ := compile_markup hv (by rw [hpage]; decide)
      (by rw [hpage, hrest]; exact isLegible_socketPage)
    rw [hpage, hrest] at hrecompiled
    have hnodes := hrecompiled.nodes_iff.2 hkept
    exact ⟨v, w, hv, hw, hrecompiled.sockets.trans hsockets, hnodes,
      (hrecompiled.template_iff hnodes).2 fun h => by simp [hblank] at h⟩
  · have hpage : sourcePage Html.imageSource = Html.imagePage := by decide +kernel
    have hrest : remainder Html.imagePage = Html.imagePage := by decide +kernel
    have hlost : Markup.keepsTexts Html.imagePage = false := by decide +kernel
    obtain ⟨v, hv⟩ := exists_of_isOk (show (compile (text "page") Html.imageSource).isOk = true by
      decide +kernel)
    obtain ⟨w, hw, hrecompiled⟩ := compile_markup hv (by rw [hpage]; decide)
      (by rw [hpage, hrest]; exact Html.isRereadable_imagePage.toIsLegible)
    rw [hpage, hrest] at hrecompiled
    refine ⟨v, w, hv, hw, fun h => ?_⟩
    rw [hrecompiled.nodes_iff, hlost] at h
    cases h

end View

end Viewloom