import Viewloom.Proofs.Html.Regions

/-!
# Parts of tables and select elements

Between the tags of a table and in a select element only some tags are understood. Each of them opens its
element in a mode of its own, and the end tag returns to the mode before.
-/

namespace Viewloom.Html.Builder

variable {b b' : Builder} {names rest : List Name} {tag : Text} {o : Open} {os : List Open}
  {attributes : List Attribute} {token : Token}

theorem openElement_pushMarker (b : Builder) (name : Name) (attributes : List Attribute) :
    b.pushMarker.openElement name attributes = (b.openElement name attributes).pushMarker := by
  have hplace : b.pushMarker.place = b.place := rfl
  rw [openElement, openElement, hplace]
  cases b.place <;> rfl

namespace Settled

/-! ## Opening the parts of a table -/

section Table

variable {within : Text} (h : Settled b (Name.html within :: rest)) (hstack : b.stack = o :: os)

include h hstack

theorem outcome_html (token : Token) : b.outcome token = b.byMode token :=
  outcome_eq_byMode (isForeign_of_html hstack (by rw [h.name_eq hstack]; rfl) token)

theorem popTo_eq {p : Name → Bool} (hp : p (Name.html within) = true) : b.popTo p = b :=
  popWhile_innermost hstack (h.name_eq hstack) (by simp [hp])

/-- A part of a table is opened in a mode of its own. -/
theorem opened_part {mode : Mode} (hplain : tag ∉ [text "form", text "template"])
    (hmarker : (Name.html tag).isMarker = false) (hdrop : dropsNewline (Name.html tag) = false)
    (hmode : modeIn (Name.html tag :: Name.html within :: rest) = mode) :
    Opened b ((b.openHtml tag attributes).withMode mode) (Name.html tag) attributes := by
  have hopen := h.openElement_eq hstack (Name.html tag) attributes
  refine h.opens_in hstack hplain { Similar.refl _ with } ?_ rfl (hmode ▸ Agree.refl _) ?_
  · rw [openHtml, hopen]
    exact .other hmarker h.formatting
  · rw [hdrop]
    exact h.dropNewline_openHtml hstack

/-- A part of a table that limits formatting leaves a marker. -/
theorem opened_markedPart {mode : Mode} (hplain : tag ∉ [text "form", text "template"])
    (hmarker : (Name.html tag).isMarker = true) (hdrop : dropsNewline (Name.html tag) = false)
    (hmode : modeIn (Name.html tag :: Name.html within :: rest) = mode) :
    Opened b ((b.openHtml tag attributes).withMode mode).pushMarker (Name.html tag) attributes := by
  have hopen := h.openElement_eq hstack (Name.html tag) attributes
  refine h.opens_in hstack hplain { Similar.refl _ with } ?_ rfl (hmode ▸ Agree.refl _) ?_
  · rw [openHtml, hopen]
    exact .marker hmarker h.formatting
  · rw [hdrop]
    exact h.dropNewline_openHtml hstack

end Table

/-- A part of a table opens directly in the table. -/
theorem opened_inTable (h : Settled b (Name.html (text "table") :: rest)) (hstack : b.stack = o :: os)
    (htag : tag ∈ [text "caption", text "colgroup", text "tbody", text "tfoot", text "thead"])
    (attributes : List Attribute) :
    ∃ b', b.outcome (.startTag tag attributes false) = .done b' ∧
      Opened b b' (Name.html tag) attributes := by
  have hmode : b.mode = .inTable := h.mode_eq rfl rfl
  have hpop : b.popTo Name.isTableScope = b := h.popTo_eq hstack rfl
  have hrule : ∀ {mode : Mode}, b.byMode (.startTag tag attributes false) =
      .done (((b.popTo Name.isTableScope).openHtml tag attributes).withMode mode) →
      b.outcome (.startTag tag attributes false) =
        .done ((b.openHtml tag attributes).withMode mode) := by
    intro mode hby
    rw [h.outcome_html hstack, hby, hpop]
  simp only [List.mem_cons, List.not_mem_nil, or_false] at htag
  rcases htag with rfl | rfl | rfl | rfl | rfl
  · have hcaption : b.outcome (.startTag (text "caption") attributes false) =
        .done (b.openCaption attributes) := by
      rw [h.outcome_html hstack, byMode, hmode]
      rfl
    have hmarked : b.openCaption attributes =
        ((b.openHtml (text "caption") attributes).withMode .inCaption).pushMarker := by
      rw [openCaption, hpop, openHtml, openElement_pushMarker]
      rfl
    rw [hmarked] at hcaption
    exact ⟨_, hcaption, h.opened_markedPart hstack (by decide) rfl rfl rfl⟩
  · exact ⟨_, hrule (by rw [byMode, hmode]; rfl), h.opened_part hstack (by decide) rfl rfl rfl⟩
  · exact ⟨_, hrule (by rw [byMode, hmode]; rfl), h.opened_part hstack (by decide) rfl rfl rfl⟩
  · exact ⟨_, hrule (by rw [byMode, hmode]; rfl), h.opened_part hstack (by decide) rfl rfl rfl⟩
  · exact ⟨_, hrule (by rw [byMode, hmode]; rfl), h.opened_part hstack (by decide) rfl rfl rfl⟩

/-- A row opens directly in a section of a table. -/
theorem opened_inTableBody {within : Text} (h : Settled b (Name.html within :: rest))
    (hstack : b.stack = o :: os) (hwithin : within ∈ [text "tbody", text "tfoot", text "thead"])
    (attributes : List Attribute) :
    ∃ b', b.outcome (.startTag (text "tr") attributes false) = .done b' ∧
      Opened b b' (Name.html (text "tr")) attributes := by
  have hmode : b.mode = .inTableBody ∧ Name.isTableBody (Name.html within) = true := by
    simp only [List.mem_cons, List.not_mem_nil, or_false] at hwithin
    rcases hwithin with rfl | rfl | rfl
    · exact ⟨h.mode_eq rfl rfl, rfl⟩
    · exact ⟨h.mode_eq rfl rfl, rfl⟩
    · exact ⟨h.mode_eq rfl rfl, rfl⟩
  have hrule : b.outcome (.startTag (text "tr") attributes false) =
      .done (((b.popTo Name.isTableBody).openHtml (text "tr") attributes).withMode .inRow) := by
    rw [h.outcome_html hstack, byMode, hmode.1]
    rfl
  rw [h.popTo_eq hstack hmode.2] at hrule
  exact ⟨_, hrule, h.opened_part hstack (by decide) rfl rfl rfl⟩

/-- A cell opens directly in a row. -/
theorem opened_inRow (h : Settled b (Name.html (text "tr") :: rest)) (hstack : b.stack = o :: os)
    (htag : tag ∈ [text "td", text "th"]) (attributes : List Attribute) :
    ∃ b', b.outcome (.startTag tag attributes false) = .done b' ∧
      Opened b b' (Name.html tag) attributes := by
  have hmode : b.mode = .inRow := h.mode_eq rfl rfl
  have hrule : b.outcome (.startTag tag attributes false) =
      .done (((b.popTo Name.isTableRow).openHtml tag attributes).withMode .inCell).pushMarker := by
    rw [h.outcome_html hstack, byMode, hmode]
    simp only [List.mem_cons, List.not_mem_nil, or_false] at htag
    rcases htag with rfl | rfl <;> rfl
  rw [h.popTo_eq hstack rfl] at hrule
  refine ⟨_, hrule, ?_⟩
  simp only [List.mem_cons, List.not_mem_nil, or_false] at htag
  rcases htag with rfl | rfl
  · exact h.opened_markedPart hstack (by decide) rfl rfl rfl
  · exact h.opened_markedPart hstack (by decide) rfl rfl rfl

/-! ## Closing the parts of a table -/

section Closing

variable (h : Settled b (Name.html tag :: names)) (hstack : b.stack = o :: os)

include h hstack

/-- A part that is closed leaves the mode in which it was opened. -/
theorem closed_part {mode : Mode} (hmarker : (Name.html tag).isMarker = false)
    (hformatting : (Name.html tag).isFormatting = false) (hform : tag ≠ text "form")
    (hmode : Agree mode (modeIn names)) : Closed b (b.pop.withMode mode) := by
  have hname := h.name_eq hstack
  refine h.closed hstack { Similar.refl b.pop with } ?_ ?_ hmode h.dropNewline
  · have hfollows := h.formatting
    rw [hstack] at hfollows
    exact hfollows.tail_of_other (by rw [hname, hmarker]) (by rw [hname, hformatting])
  · have hopen := h.form
    rw [hstack, openFormOf_cons (by rw [hname]; simpa using hform)] at hopen
    exact hopen

/-- A table or a select element that is closed returns to the mode around it. -/
theorem closed_resetMode (hmarker : (Name.html tag).isMarker = false)
    (hformatting : (Name.html tag).isFormatting = false) (hform : tag ≠ text "form") :
    Closed b (b.popThroughNamed tag).resetMode := by
  have hname := h.name_eq hstack
  have hnames : b.pop.stack.map Open.name = names := by
    have hall := h.names_eq hstack
    rw [pop, hstack, List.tail_cons]
    exact (List.cons.inj hall).2.symm
  have hreset : (b.popThroughNamed tag).resetMode = b.pop.withMode (modeIn names) := by
    rw [popThroughNamed_innermost hstack hname, resetMode,
      modeOf_eq_modeIn (b := b.pop) h.calm.head h.calm.templateModes, hnames]
    rfl
  rw [hreset]
  exact h.closed_part hstack hmarker hformatting hform (Agree.refl _)

end Closing

/-- An innermost table is closed by its end. -/
theorem closed_table (h : Settled b (Name.html (text "table") :: names)) (hstack : b.stack = o :: os) :
    ∃ b', b.outcome (.endTag (text "table")) = .done b' ∧ Closed b b' := by
  have hmode : b.mode = .inTable := h.mode_eq rfl rfl
  have hrule : b.outcome (.endTag (text "table")) =
      if b.hasInScope Name.isTableScope (text "table") then .done b.closeTable else .done b := by
    rw [h.outcome_html hstack, byMode, hmode]
    rfl
  rw [hasInScope_innermost hstack (h.name_eq hstack), if_pos rfl] at hrule
  exact ⟨_, hrule, h.closed_resetMode hstack rfl rfl (by decide)⟩

/-- An innermost menu of choices is closed by its end. -/
theorem closed_select (h : Settled b (Name.html (text "select") :: names))
    (hstack : b.stack = o :: os) :
    ∃ b', b.outcome (.endTag (text "select")) = .done b' ∧ Closed b b' := by
  have hrule : b.outcome (.endTag (text "select")) =
      if b.hasInScope Name.isSelectScope (text "select") then .done b.closeSelect else .done b := by
    have hselect := h.isSelectMode_mode (isSelectMode_selectMode _)
    rw [h.outcome_html hstack, byMode]
    cases hmode : b.mode <;> first | rfl | (rw [hmode] at hselect; cases hselect)
  rw [hasInScope_innermost hstack (h.name_eq hstack), if_pos rfl] at hrule
  exact ⟨_, hrule, h.closed_resetMode hstack rfl rfl (by decide)⟩

/-- A caption or a cell that is closed takes its marker with it. -/
theorem closed_markedPart {mode : Mode} (h : Settled b (Name.html tag :: names))
    (hstack : b.stack = o :: os) (hmarker : (Name.html tag).isMarker = true)
    (himplied : (Name.html tag).isImpliedEnd = false) (hmode : modeIn names = mode) :
    Closed b (((b.closeImplied.popThroughNamed tag).clearToMarker).withMode mode) := by
  have hname := h.name_eq hstack
  rw [closeImplied, popWhile_innermost hstack hname himplied, popThroughNamed_innermost hstack hname]
  exact h.closed_marked hstack hmarker { Similar.refl b.pop with } rfl rfl (hmode ▸ Agree.refl _)
    h.dropNewline

/-- An innermost part of a table is closed by its end. -/
theorem closed_inTable (h : Settled b (Name.html tag :: Name.html (text "table") :: rest))
    (hstack : b.stack = o :: os)
    (htag : tag ∈ [text "caption", text "colgroup", text "tbody", text "tfoot", text "thead"]) :
    ∃ b', b.outcome (.endTag tag) = .done b' ∧ Closed b b' := by
  have hname := h.name_eq hstack
  have hscope := hasInScope_innermost hstack hname Name.isTableScope
  have hsection : ∀ {tag : Text}, tag ∈ [text "tbody", text "tfoot", text "thead"] →
      Settled b (Name.html tag :: Name.html (text "table") :: rest) →
      b.hasInScope Name.isTableScope tag = true →
      ∃ b', b.outcome (.endTag tag) = .done b' ∧ Closed b b' := by
    intro tag htag h hscope
    have hrule : b.outcome (.endTag tag) =
        if b.hasInScope Name.isTableScope tag then .done b.leaveTableBody else .done b := by
      simp only [List.mem_cons, List.not_mem_nil, or_false] at htag
      rw [h.outcome_html hstack, byMode]
      rcases htag with rfl | rfl | rfl <;> rw [h.mode_eq rfl rfl] <;> rfl
    have hrole : ∀ tag ∈ [text "tbody", text "tfoot", text "thead"],
        Name.isTableBody (Name.html tag) = true ∧ (Name.html tag).isMarker = false ∧
          (Name.html tag).isFormatting = false ∧ tag ≠ text "form" := by decide
    obtain ⟨hbody, hmarker, hformatting, hform⟩ := hrole tag htag
    rw [hscope, if_pos rfl, leaveTableBody, h.popTo_eq hstack hbody] at hrule
    exact ⟨_, hrule, h.closed_part hstack hmarker hformatting hform (Agree.refl _)⟩
  simp only [List.mem_cons, List.not_mem_nil, or_false] at htag
  rcases htag with rfl | rfl | rfl | rfl | rfl
  · have hrule : b.outcome (.endTag (text "caption")) =
        if b.hasInScope Name.isTableScope (text "caption") then .done b.closeCaption
        else .done b := by
      rw [h.outcome_html hstack, byMode, h.mode_eq rfl rfl]
      rfl
    rw [hscope, if_pos rfl] at hrule
    exact ⟨_, hrule, h.closed_markedPart hstack rfl rfl rfl⟩
  · have hrule : b.outcome (.endTag (text "colgroup")) =
        if b.currentNamed (text "colgroup") then .done (b.pop.withMode .inTable) else .done b := by
      rw [h.outcome_html hstack, byMode, h.mode_eq rfl rfl]
      rfl
    have hcurrent : b.currentNamed (text "colgroup") = true := by
      rw [currentNamed, currentIs, current?, hstack]
      simp [hname]
    rw [hcurrent, if_pos rfl] at hrule
    exact ⟨_, hrule, h.closed_part hstack rfl rfl (by decide) (Agree.refl _)⟩
  · exact hsection (by decide) h hscope
  · exact hsection (by decide) h hscope
  · exact hsection (by decide) h hscope

/-- An innermost row is closed by its end. -/
theorem closed_row {within : Text}
    (h : Settled b (Name.html (text "tr") :: Name.html within :: rest)) (hstack : b.stack = o :: os)
    (hwithin : within ∈ [text "tbody", text "tfoot", text "thead"]) :
    ∃ b', b.outcome (.endTag (text "tr")) = .done b' ∧ Closed b b' := by
  have hrule : b.outcome (.endTag (text "tr")) =
      if b.hasInScope Name.isTableScope (text "tr") then .done b.leaveRow else .done b := by
    rw [h.outcome_html hstack, byMode, h.mode_eq rfl rfl]
    rfl
  have hmode : Agree .inTableBody (modeIn (Name.html within :: rest)) := by
    simp only [List.mem_cons, List.not_mem_nil, or_false] at hwithin
    rcases hwithin with rfl | rfl | rfl <;> exact Agree.refl _
  rw [hasInScope_innermost hstack (h.name_eq hstack), if_pos rfl, leaveRow,
    h.popTo_eq hstack rfl] at hrule
  exact ⟨_, hrule, h.closed_part hstack rfl rfl (by decide) hmode⟩

/-- An innermost cell is closed by its end. -/
theorem closed_cell (h : Settled b (Name.html tag :: Name.html (text "tr") :: rest))
    (hstack : b.stack = o :: os) (htag : tag ∈ [text "td", text "th"]) :
    ∃ b', b.outcome (.endTag tag) = .done b' ∧ Closed b b' := by
  have hscope := hasInScope_innermost hstack (h.name_eq hstack) Name.isTableScope
  have hrule : b.outcome (.endTag tag) =
      if b.hasInScope Name.isTableScope tag then
        .done ((b.closeImplied.popThroughNamed tag).clearToMarker.withMode .inRow)
      else .done b := by
    rw [h.outcome_html hstack, byMode]
    simp only [List.mem_cons, List.not_mem_nil, or_false] at htag
    rcases htag with rfl | rfl <;> rw [h.mode_eq rfl rfl] <;> rfl
  rw [hscope, if_pos rfl] at hrule
  refine ⟨_, hrule, ?_⟩
  simp only [List.mem_cons, List.not_mem_nil, or_false] at htag
  rcases htag with rfl | rfl
  · exact h.closed_markedPart hstack rfl rfl rfl
  · exact h.closed_markedPart hstack rfl rfl rfl

/-! ## Select elements -/

section Select

variable (h : Settled b names) (hstack : b.stack = o :: os) (hregion : regionOf names = some .select)

include h hstack hregion

theorem outcome_select (htoken : ∀ b : Builder, b.inSelectInTable token = b.inSelect token) :
    b.outcome token = b.inSelect token := by
  obtain ⟨hselect, hspace⟩ := isSelect_of_region hregion
  have hmode := h.isSelectMode_mode hselect
  rw [h.names_eq hstack, innermost, List.head?_cons, Option.any_some, beq_iff_eq] at hspace
  rw [outcome_eq_byMode (isForeign_of_html hstack hspace token), byMode]
  cases hm : b.mode <;> first | rfl | exact htoken b | (rw [hm] at hmode; cases hmode)

/-- An option or a group of them opens in a menu of choices. -/
theorem opened_inSelect (hcontent : selectContent names tag = some .nodes)
    (attributes : List Attribute) :
    ∃ b', b.outcome (.startTag tag attributes false) = .done b' ∧
      Opened b b' (Name.html tag) attributes := by
  rw [selectContent] at hcontent
  by_cases hoption : tag = text "option"
  · subst hoption
    rw [if_pos rfl] at hcontent
    have hinner : innermost names (· == Name.html (text "option")) = false := by
      revert hcontent
      cases innermost names (· == Name.html (text "option")) <;> simp
    have hrule : b.outcome (.startTag (text "option") attributes false) =
        .done ((b.popNamed (text "option")).openHtml (text "option") attributes) :=
      h.outcome_select hstack hregion fun _ => rfl
    rw [popNamed, currentNamed, currentIs_eq _ h.stack, hinner, if_neg Bool.false_ne_true] at hrule
    exact ⟨_, hrule, h.opens hstack (by decide) (Similar.refl _) (h.dropNewline_openHtml hstack)⟩
  rw [if_neg hoption] at hcontent
  by_cases hgroup : tag = text "optgroup"
  · subst hgroup
    rw [if_pos rfl] at hcontent
    have hinner : innermost names (· == Name.html (text "option")) = false ∧
        innermost names (· == Name.html (text "optgroup")) = false := by
      revert hcontent
      cases innermost names (· == Name.html (text "option")) <;>
        cases innermost names (· == Name.html (text "optgroup")) <;> simp
    have hrule : b.outcome (.startTag (text "optgroup") attributes false) =
        .done (((b.popNamed (text "option")).popNamed (text "optgroup")).openHtml (text "optgroup")
          attributes) :=
      h.outcome_select hstack hregion fun _ => rfl
    have hoption : b.popNamed (text "option") = b := by
      rw [popNamed, currentNamed, currentIs_eq _ h.stack, hinner.1, if_neg Bool.false_ne_true]
    have hself : b.popNamed (text "optgroup") = b := by
      rw [popNamed, currentNamed, currentIs_eq _ h.stack, hinner.2, if_neg Bool.false_ne_true]
    rw [hoption, hself] at hrule
    exact ⟨_, hrule, h.opens hstack (by decide) (Similar.refl _) (h.dropNewline_openHtml hstack)⟩
  rw [if_neg hgroup] at hcontent
  split at hcontent <;> cases hcontent

end Select

/-- An innermost option or group of them is closed by its end. -/
theorem closed_inSelect (h : Settled b (Name.html tag :: names)) (hstack : b.stack = o :: os)
    (hregion : regionOf names = some .select) (htag : tag ∈ [text "option", text "optgroup"]) :
    ∃ b', b.outcome (.endTag tag) = .done b' ∧ Closed b b' := by
  have hname := h.name_eq hstack
  have hselect := regionOf_item hregion htag
  have hcurrent : b.popNamed tag = b.pop := by
    rw [popNamed, currentNamed, currentIs, current?, hstack, List.head?_cons, Option.any_some,
      if_pos (by simp [hname])]
  have hrole : tag ∉ roleTags ∧ (Name.html tag).isFormatting = false := by
    have hall : ∀ tag ∈ [text "option", text "optgroup"], tag ∉ roleTags ∧
        (Name.html tag).isFormatting = false := by decide
    exact hall tag htag
  refine ⟨b.pop, ?_, h.closed_pop hstack hrole.1 hrole.2 (Similar.refl _) h.dropNewline⟩
  simp only [List.mem_cons, List.not_mem_nil, or_false] at htag
  rcases htag with rfl | rfl
  · have hrule : b.outcome (.endTag (text "option")) = .done (b.popNamed (text "option")) :=
      h.outcome_select hstack hselect fun _ => rfl
    rw [hrule, hcurrent]
  · have hrule : b.outcome (.endTag (text "optgroup")) = .done b.endGroup :=
      h.outcome_select hstack hselect fun _ => rfl
    have hgroup : b.endGroup = b.popNamed (text "optgroup") := by
      rw [endGroup, hstack]
      cases os with
      | nil => rfl
      | cons p ps =>
          dsimp only
          rw [if_neg fun hboth => absurd (hname.symm.trans hboth.1) (by decide)]
    rw [hrule, hgroup, hcurrent]

end Settled

end Viewloom.Html.Builder
