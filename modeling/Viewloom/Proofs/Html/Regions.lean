import Viewloom.Proofs.Html.Closing
import Viewloom.Proofs.Html.Leaves

/-!
# Regions of a document

The names of the open elements decide by which rules a token is processed: those of flow content, of
tables, of select elements or of foreign content.
-/

namespace Viewloom.Html.Builder

variable {b b' : Builder} {names : List Name} {tag : Text} {name : Name} {o : Open} {os : List Open}
  {attributes : List Attribute} {token : Token}

/-! ## What a region tells -/

theorem exists_of_innermost {p : Name → Bool} (h : innermost names p = true) :
    ∃ name rest, names = name :: rest ∧ p name = true := by
  cases names with
  | nil => cases h
  | cons name rest => exact ⟨name, rest, rfl, h⟩

theorem exists_of_isOneOf {tags : List Text} (h : innermost names (Name.isOneOf tags) = true) :
    ∃ tag ∈ tags, ∃ rest, names = Name.html tag :: rest := by
  obtain ⟨name, rest, rfl, hname⟩ := exists_of_innermost h
  simp only [Name.isOneOf, Bool.and_eq_true, beq_iff_eq, List.contains_iff_mem] at hname
  exact ⟨name.name, hname.2, rest, by rw [← eq_html hname.1]⟩

/-- Directly in a table, the innermost element is one of its parts. -/
theorem exists_of_table (h : regionOf names = some .table) :
    ∃ tag ∈ [text "table", text "tbody", text "tfoot", text "thead", text "tr"],
      ∃ rest, names = Name.html tag :: rest := by
  have hspec := regionOf_spec names
  rw [h] at hspec
  exact exists_of_isOneOf hspec

theorem exists_of_columns (h : regionOf names = some .columns) :
    ∃ rest, names = Name.html (text "colgroup") :: rest := by
  have hspec := regionOf_spec names
  rw [h] at hspec
  obtain ⟨name, rest, rfl, hname⟩ := exists_of_innermost hspec
  exact ⟨rest, by rw [beq_iff_eq.1 hname]⟩

/-- In foreign content the mode is that of the body around it. -/
theorem isForeign_of_region (h : regionOf names = some .foreign) :
    isFlowMode (modeIn names) = true ∧ isForeignIn names = true := by
  have hspec := regionOf_spec names
  rw [h] at hspec
  exact hspec

/-- In a menu of choices the mode is that of the menu, and its elements are not foreign. -/
theorem isSelect_of_region (h : regionOf names = some .select) :
    isSelectMode (modeIn names) = true ∧ innermost names (fun n => n.space == .html) = true := by
  have hspec := regionOf_spec names
  rw [h] at hspec
  exact hspec

/-- Within an element that does not decide on the mode. -/
theorem regionOf_html (htag : tag ∉ modeTags) (names : List Name) :
    regionOf (Name.html tag :: names) =
      if isFlowMode (modeIn names) then some .flow
      else if isSelectMode (modeIn names) then some .select
      else none := by
  have hfoster : innermost (Name.html tag :: names) Name.isFoster = false := by
    simp only [modeTags, List.mem_cons, List.not_mem_nil, or_false, not_or] at htag
    simp [innermost, Name.isFoster, Name.isOneOf, Name.html, htag]
  have hcolumns : innermost (Name.html tag :: names) (· == Name.html (text "colgroup")) = false := by
    have hne := ne_of_not_mem htag (show text "colgroup" ∈ modeTags by decide)
    simpa [innermost] using hne
  have hforeign : isForeignIn (Name.html tag :: names) = false := rfl
  have hspace : innermost (Name.html tag :: names) (fun n => n.space == .html) = true := rfl
  rw [regionOf, hfoster, hcolumns, hforeign, hspace, modeIn_html htag, Bool.and_true,
    if_neg Bool.false_ne_true, if_neg Bool.false_ne_true]
  rfl

/-- Within an element of another name space. -/
theorem regionOf_foreign (hspace : name.space ≠ .html) (names : List Name) :
    regionOf (name :: names) =
      if isFlowMode (modeIn names) then
        some (if isForeignIn (name :: names) then .foreign else .flow)
      else none := by
  have hfoster : innermost (name :: names) Name.isFoster = false := by
    simp [innermost, Name.isFoster, Name.isOneOf, hspace]
  have hcolumns : innermost (name :: names) (· == Name.html (text "colgroup")) = false := by
    rw [innermost, List.head?_cons, Option.any_some, beq_eq_false_iff_ne]
    rintro rfl
    exact hspace rfl
  have hhtml : innermost (name :: names) (fun n => n.space == .html) = false := by
    simpa [innermost] using hspace
  rw [regionOf, hfoster, hcolumns, hhtml, modeIn_foreign hspace, Bool.and_false,
    if_neg Bool.false_ne_true, if_neg Bool.false_ne_true, if_neg Bool.false_ne_true]

theorem regionOf_select (names : List Name) :
    regionOf (Name.html (text "select") :: names) = some .select := by
  have hselect := isSelectMode_selectMode (standIns names)
  have hflow : isFlowMode (selectMode (standIns names)) = false := by
    revert hselect
    cases selectMode (standIns names) <;> decide
  have hfoster : innermost (Name.html (text "select") :: names) Name.isFoster = false := rfl
  have hcolumns : innermost (Name.html (text "select") :: names)
      (· == Name.html (text "colgroup")) = false := rfl
  have hspace : innermost (Name.html (text "select") :: names) (fun n => n.space == .html) = true :=
    rfl
  rw [regionOf, modeIn_select, hfoster, hcolumns, hflow, hselect, hspace]
  rfl

/-- Within the items of a select element. -/
theorem regionOf_item (hregion : regionOf names = some .select)
    (htag : tag ∈ [text "option", text "optgroup"]) :
    regionOf (Name.html tag :: names) = some .select := by
  have hselect := (isSelect_of_region hregion).1
  have hmodes : ∀ tag ∈ [text "option", text "optgroup"], tag ∉ modeTags := by decide
  have hflow : isFlowMode (modeIn names) = false := by
    revert hselect
    cases modeIn names <;> decide
  rw [regionOf_html (hmodes tag htag), hflow, hselect]
  rfl

/-! ## Modes of flow content -/

theorem cases_of_isFlowMode {mode : Mode} (h : isFlowMode mode = true) :
    mode = .inBody ∨ mode = .inCaption ∨ mode = .inCell := by
  have hmem : mode ∈ [Mode.inBody, .inCaption, .inCell] := List.contains_iff_mem.1 h
  simpa using hmem

/-- Where the body is read, modes that agree are equal. -/
theorem Agree.eq_of_isFlowMode {mode mode' : Mode} (h : Agree mode mode')
    (hflow : isFlowMode mode' = true) : mode = mode' := by
  rcases h with rfl | ⟨-, hselect⟩
  · rfl
  · rcases cases_of_isFlowMode hflow with rfl | rfl | rfl <;> cases hselect

section Flow

variable (hmode : isFlowMode b.mode = true)

include hmode

/-- Where the body is read, characters are added to it. -/
theorem byMode_chars (value : Text) : b.byMode (.chars value) = .done (b.bodyChars value) := by
  rcases cases_of_isFlowMode hmode with h | h | h <;> rw [byMode, h] <;> rfl

theorem byMode_comment (value : Text) :
    b.byMode (.comment value) = .done (b.insertComment value) := by
  rcases cases_of_isFlowMode hmode with h | h | h <;> rw [byMode, h] <;> rfl

/-- Where the body is read, a usual start tag is read as in the body. -/
theorem byMode_startTag (htag : tag ∉ unusualTags) (attributes : List Attribute)
    (selfClosing : Bool) : b.byMode (.startTag tag attributes selfClosing) =
      .done (b.bodyStart tag attributes selfClosing) := by
  have hpart : (isTablePart tag || isRowPart tag) = false := by
    simp only [unusualTags, List.mem_cons, List.not_mem_nil, or_false, not_or] at htag
    simp [isTablePart, isTableSection, isRowPart, htag]
  rcases cases_of_isFlowMode hmode with h | h | h
  · rw [byMode, h]
    rfl
  · rw [byMode, h]
    dsimp only [inCaption]
    rw [hpart, if_neg Bool.false_ne_true]
    rfl
  · rw [byMode, h]
    dsimp only [inCell]
    rw [hpart, if_neg Bool.false_ne_true]
    rfl

/-- Where the body is read, the end tag of an element without a mode of its own is read as in the
body. -/
theorem byMode_endTag (hmodes : tag ∉ modeTags) (hcol : tag ≠ text "col") :
    b.byMode (.endTag tag) = .done (b.bodyEnd tag) := by
  simp only [modeTags, List.mem_cons, List.not_mem_nil, or_false, not_or] at hmodes
  have hhtml : inBody b (.endTag tag) = .done (b.bodyEnd tag) := by
    dsimp only [inBody]
    rw [if_neg hmodes.2.2.2.2.2.1]
  rcases cases_of_isFlowMode hmode with h | h | h
  · rw [byMode, h]
    exact hhtml
  · rw [byMode, h, ← hhtml]
    simp [inCaption, isTablePart, isTableSection, isRowPart, hmodes, hcol]
  · rw [byMode, h, ← hhtml]
    simp [inCell, isTableSection, hmodes, hcol]

end Flow

/-! ## Which rules are used -/

theorem outcome_eq_byMode (h : b.isForeign token = false) : b.outcome token = b.byMode token := by
  rw [outcome, h, if_neg Bool.false_ne_true]

theorem outcome_eq_inForeign (h : b.isForeign token = true) :
    b.outcome token = b.inForeign byMode token := by
  rw [outcome, h, if_pos rfl]

/-- Within an element that is not foreign, no token is. -/
theorem isForeign_of_html (hstack : b.stack = o :: os) (hspace : o.name.space = .html)
    (token : Token) : b.isForeign token = false := by
  rw [isForeign, current?, hstack, List.head?_cons]
  dsimp only
  rw [if_pos hspace]

namespace Settled

variable (h : Settled b names) (hstack : b.stack = o :: os)

include h hstack

theorem names_eq : names = o.name :: os.map Open.name := by
  rw [← h.stack, hstack, List.map_cons]

theorem isHtmlAnnotation_eq : isHtmlAnnotation o = false := by
  have hplain := h.plain.annotation
  rw [h.names_eq hstack, List.mem_cons, not_or] at hplain
  rw [ isHtmlAnnotation, beq_false_of_ne (Ne.symm hplain.1), Bool.false_and]

/-- The rules of foreign content do not concern what stands in a region of another kind. -/
theorem isForeign_eq_false (hforeign : isForeignIn names = false)
    (htoken : (∃ value, token = .chars value) ∨
      ∃ tag attributes, token = .startTag tag attributes false ∧ tag ∉ unusualTags) :
    b.isForeign token = false := by
  rw [h.names_eq hstack, isForeignIn, innermost, List.head?_cons, Option.any_some] at hforeign
  by_cases hspace : o.name.space = .html
  · exact isForeign_of_html hstack hspace token
  have hpoint : (o.name.isMathTextPoint || o.name.isSvgHtmlPoint) = true := by
    have hne : (o.name.space != .html) = true := by simpa using hspace
    rw [hne, Bool.true_and] at hforeign
    revert hforeign
    cases o.name.isMathTextPoint <;> cases o.name.isSvgHtmlPoint <;> simp
  rw [isForeign, current?, hstack, List.head?_cons]
  dsimp only
  rw [if_neg hspace]
  rcases htoken with ⟨value, rfl⟩ | ⟨tag, attributes, rfl, htag⟩
  · simp only [hpoint, Bool.true_or, Bool.not_true]
  · have hexception : isMathTextException tag = false := by
      simp only [unusualTags, List.mem_cons, List.not_mem_nil, or_false, not_or] at htag
      simp [isMathTextException, htag]
    simp only [hexception, Bool.not_false, Bool.and_true, hpoint, Bool.true_or, Bool.not_true]

/-- Within foreign content every token is foreign, up to the end. -/
theorem isForeign_eq_true (hforeign : isForeignIn names = true) (heof : token ≠ .eof) :
    b.isForeign token = true := by
  have hannotation := h.isHtmlAnnotation_eq hstack
  have hplain := h.plain.annotation
  rw [h.names_eq hstack, List.mem_cons, not_or] at hplain
  rw [h.names_eq hstack, isForeignIn, innermost, List.head?_cons, Option.any_some] at hforeign
  simp only [Bool.and_eq_true, bne_iff_ne, Bool.not_eq_true'] at hforeign
  rw [isForeign, current?, hstack, List.head?_cons]
  dsimp only
  rw [if_neg hforeign.1.1]
  cases token with
  | eof => exact absurd rfl heof
  | chars value => simp [hforeign.1.2, hforeign.2, hannotation]
  | null => simp [hforeign.1.2, hforeign.2, hannotation]
  | startTag tag attributes closed =>
      simp [hforeign.1.2, hforeign.2, hannotation, Ne.symm hplain.1]
  | doctype | endTag | comment => rfl

omit h in
/-- An end tag in a foreign element is processed by the rules of foreign content. -/
theorem isForeign_endTag (hspace : o.name.space ≠ .html) (tag : Text) :
    b.isForeign (.endTag tag) = true := by
  rw [isForeign, current?, hstack, List.head?_cons]
  dsimp only
  rw [if_neg hspace]

omit hstack in
theorem isFlowMode_mode (hflow : isFlowMode (modeIn names) = true) : isFlowMode b.mode = true := by
  rw [h.mode.eq_of_isFlowMode hflow, hflow]

omit hstack in
theorem isSelectMode_mode (hselect : isSelectMode (modeIn names) = true) :
    isSelectMode b.mode = true := by
  rcases h.mode with hmode | hmode
  · rw [hmode, hselect]
  · exact hmode.1

omit hstack in

/-- Outside of menus the mode is the one that the open elements call for. -/
theorem mode_eq {mode : Mode} (hmode : modeIn names = mode) (hselect : isSelectMode mode = false) :
    b.mode = mode := by
  rcases h.mode with heq | hboth
  · rw [heq, hmode]
  · rw [hmode, hselect] at hboth
    cases hboth.2

/-! ## Flow content -/

/-- A usual start tag in the body is read by the rules of the body. -/
theorem outcome_start_flow (hregion : regionOf names = some .flow) (htag : tag ∉ unusualTags)
    (attributes : List Attribute) : b.outcome (.startTag tag attributes false) =
      .done (b.bodyStart tag attributes false) := by
  obtain ⟨hflow, hforeign⟩ := isFlow_of_region hregion
  rw [outcome_eq_byMode (h.isForeign_eq_false hstack hforeign (.inr ⟨tag, attributes, rfl, htag⟩)),
    byMode_startTag (h.isFlowMode_mode hflow) htag]

/-- Characters in the body are read by the rules of the body. -/
theorem outcome_chars_flow (hregion : regionOf names = some .flow) (value : Text) :
    b.outcome (.chars value) = .done (b.bodyChars value) := by
  obtain ⟨hflow, hforeign⟩ := isFlow_of_region hregion
  rw [outcome_eq_byMode (h.isForeign_eq_false hstack hforeign (.inl ⟨value, rfl⟩)),
    byMode_chars (h.isFlowMode_mode hflow)]

end Settled

theorem not_mem_unusualTags (h : tagContent tag ≠ none) : tag ∉ unusualTags := by
  have hall : ∀ tag ∈ unusualTags, tagContent tag = none := by decide
  exact fun hmem => h (hall tag hmem)

theorem not_mem_modeTags (hcontent : tagContent tag = some .nodes) (hselect : tag ≠ text "select")
    (htable : tag ≠ text "table") : tag ∉ modeTags := by
  have hall : ∀ tag ∈ modeTags, tag ∈ unusualTags ∨ tag = text "select" ∨ tag = text "table" := by
    decide
  intro hmem
  rcases hall tag hmem with hmem | rfl | rfl
  · exact not_mem_unusualTags (by simp [hcontent]) hmem
  · exact hselect rfl
  · exact htable rfl

theorem tagContent_of_flow {content : Content} (h : flowContent names tag = some content) :
    tagContent tag = some content := by
  rw [flowContent] at h
  split at h
  · exact h
  · cases h

namespace Settled

/-- The end tag of an element of flow content. -/
theorem closed_flow (h : Settled b (Name.html tag :: names)) (hstack : b.stack = o :: os)
    (hregion : regionOf names = some .flow) (hcontent : tagContent tag = some .nodes)
    (hselect : tag ≠ text "select") (htable : tag ≠ text "table") :
    ∃ b', b.outcome (.endTag tag) = .done b' ∧ Closed b b' := by
  have hunusual : tag ∉ unusualTags := not_mem_unusualTags (by simp [hcontent])
  have hmodes : tag ∉ modeTags := not_mem_modeTags hcontent hselect htable
  have hcol : tag ≠ text "col" := by
    rintro rfl
    exact hunusual (by decide)
  have hbr : tag ≠ text "br" := by
    rintro rfl
    cases hcontent
  have hspace : o.name.space = .html := by rw [h.name_eq hstack]; rfl
  have hflow : isFlowMode b.mode = true := by
    refine h.isFlowMode_mode ?_
    rw [modeIn_html hmodes]
    exact (isFlow_of_region hregion).1
  refine ⟨_, ?_, h.closed_bodyEnd hstack hmodes hbr⟩
  rw [outcome_eq_byMode (isForeign_of_html hstack hspace _), byMode_endTag hflow hmodes hcol]

/-- The end tag of a foreign element closes it, however it is spelled. -/
theorem closed_foreign (h : Settled b (name :: names)) (hstack : b.stack = o :: os)
    (hspace : name.space ≠ .html) (htag : Text.equalsIgnoreCaseAscii name.name tag = true)
    (hbr : tag ≠ text "br") (hp : tag ≠ text "p") :
    ∃ b', b.outcome (.endTag tag) = .done b' ∧ Closed b b' := by
  have hname : o.name = name := by
    have hnames := h.names_eq hstack
    exact (List.cons.inj hnames).1.symm
  have hmatch : foreignMatch tag b.stack = some o := by
    rw [hstack, foreignMatch, if_neg (by rw [hname]; exact hspace), hname, if_pos htag]
  have hdrop : b.stack.dropWhile (fun p => p.id != o.id) = b.stack := by
    rw [hstack, List.dropWhile_cons_of_neg (by simp)]
  refine ⟨b.pop, ?_, ?_⟩
  · rw [outcome_eq_inForeign (isForeign_endTag hstack (by rw [hname]; exact hspace) tag)]
    dsimp only [inForeign]
    rw [if_neg (by simp [hbr, hp]), hmatch]
    dsimp only
    rw [hdrop]
    rfl
  · have hmarker : o.name.isMarker = false := by simp [Name.isMarker, Name.isOneOf, hname, hspace]
    have hformatting : o.name.isFormatting = false := by simp [Name.isFormatting, hname, hspace]
    have hform : o.name ≠ Name.html (text "form") := by
      rintro heq
      exact hspace (by rw [← hname, heq]; rfl)
    refine h.closed hstack (Similar.refl b.pop).toOnGround ?_ ?_ ?_ h.dropNewline
    · have hfollows := h.formatting
      rw [hstack] at hfollows
      exact hfollows.tail_of_other hmarker hformatting
    · have hopen := h.form
      rw [hstack, openFormOf_cons hform] at hopen
      exact hopen
    · have hmode := h.mode
      rw [modeIn_foreign hspace] at hmode
      exact hmode

end Settled

end Viewloom.Html.Builder
