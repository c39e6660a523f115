import Viewloom.Proofs.Html.Settled

/-!
# Opening elements in flow content

A start tag that the elements around it admit opens its element and closes nothing. Most tags follow one
of a few rules; the others have a rule of their own.
-/

namespace Viewloom.Html

/-- Elements that decide on the mode of what stands inside of them. -/
def modeTags : List Text :=
  [text "body", text "caption", text "colgroup", text "frameset", text "head", text "html",
    text "select", text "table", text "tbody", text "td", text "template", text "tfoot",
    text "th", text "thead", text "tr"]

/-- Elements that leave more behind in the state than that they are open. -/
def roleTags : List Text :=
  modeTags ++ [text "applet", text "form", text "marquee", text "object"]

/-- Tags that have a rule of their own in flow content. -/
def ruledTags : List Text :=
  headTags ++ blockTags ++ formattingTags ++ modeTags ++
    [text "a", text "applet", text "area", text "br", text "button", text "col", text "dd",
      text "dt", text "embed", text "form", text "frame", text "h1", text "h2", text "h3",
      text "h4", text "h5", text "h6", text "hr", text "iframe", text "image", text "img",
      text "input", text "keygen", text "li", text "listing", text "marquee", text "math",
      text "menu", text "nobr", text "noembed", text "noscript", text "object", text "optgroup",
      text "option", text "param", text "plaintext", text "pre", text "rb", text "rp", text "rt",
      text "rtc", text "source", text "svg", text "textarea", text "track", text "wbr",
      text "xmp"]

namespace Builder

variable {b b' : Builder} {names : List Name} {tag : Text} {o : Open} {os : List Open}
  {attributes : List Attribute}

/-! ## The mode within an element -/

/-- A foreign element does not change the mode. -/
theorem modeIn_foreign {name : Name} (h : name.space ≠ .html) (names : List Name) :
    modeIn (name :: names) = modeIn names := by
  rw [modeIn, standIns_cons, modeOf, if_pos h]
  rfl

/-- An element without a mode of its own does not change the mode. -/
theorem modeIn_html (h : tag ∉ modeTags) (names : List Name) :
    modeIn (Name.html tag :: names) = modeIn names := by
  simp only [modeTags, List.mem_cons, List.not_mem_nil, or_false, not_or] at h
  rw [modeIn, standIns_cons, modeOf]
  simp [Name.html, Name.isCell, Name.isOneOf, h, modeIn]

theorem modeIn_select (names : List Name) :
    modeIn (Name.html (text "select") :: names) = selectMode (standIns names) := rfl

theorem isSelectMode_selectMode (os : List Open) : isSelectMode (selectMode os) = true := by
  induction os with
  | nil => rfl
  | cons o os ih =>
      rw [selectMode]
      split
      · rfl
      · split
        · rfl
        · exact ih

theorem isSelectMode_modeWithinSelect (mode : Mode) : isSelectMode (modeWithinSelect mode) = true := by
  cases mode <;> rfl

/-! ## Elements without a role of their own -/

theorem ne_of_not_mem {tags : List Text} (h : tag ∉ tags) {tag' : Text} (h' : tag' ∈ tags) :
    Name.html tag ≠ Name.html tag' := by
  rintro heq
  exact h (html_inj.1 heq ▸ h')

/-- An element without a part to play keeps the open elements plain. -/
theorem isPlain_html (hplain : IsPlain names) (htag : tag ∉ [text "form", text "template"]) :
    IsPlain (Name.html tag :: names) where
  template := by
    rw [List.mem_cons, not_or]
    exact ⟨(ne_of_not_mem htag (by decide)).symm, hplain.template⟩
  annotation := by
    rw [List.mem_cons, not_or]
    exact ⟨by simp [Name.html], hplain.annotation⟩
  form := by
    rw [List.count_cons_of_ne (ne_of_not_mem htag (by decide))]
    exact hplain.form

theorem isPlain_foreign {name : Name} (hplain : IsPlain names) (hspace : name.space ≠ .html)
    (hname : name ≠ ⟨.mathml, text "annotation-xml"⟩) : IsPlain (name :: names) where
  template := by
    rw [List.mem_cons, not_or]
    exact ⟨fun heq => hspace (by rw [← heq]; rfl), hplain.template⟩
  annotation := by
    rw [List.mem_cons, not_or]
    exact ⟨hname.symm, hplain.annotation⟩
  form := by
    rw [List.count_cons_of_ne fun heq => hspace (by rw [heq]; rfl)]
    exact hplain.form

theorem isMarker_html (htag : tag ∉ roleTags) : (Name.html tag).isMarker = false := by
  simp only [roleTags, modeTags, List.mem_append, List.mem_cons, List.not_mem_nil, or_false,
    not_or] at htag
  simp [Name.isMarker, Name.isOneOf, Name.html, htag]

theorem not_mem_of_roleTags (htag : tag ∉ roleTags) : tag ∉ [text "form", text "template"] := by
  intro hmem
  simp only [List.mem_cons, List.not_mem_nil, or_false] at hmem
  rcases hmem with rfl | rfl <;> exact htag (by decide)

/-- No paragraph is closed where none is open. -/
theorem endParagraph_eq (hnames : b.stack.map Open.name = names)
    (hp : hasOpen Name.isButtonScope (text "p") names = false) : b.endParagraph = b := by
  rw [endParagraph, hasInScope_eq _ _ hnames, hp]
  rfl

/-- No item is closed where none is open. -/
theorem closeItem_eq {items : List Text} (hnames : b.stack.map Open.name = names)
    (hitem : (itemToClose items (standIns names)).isSome = false) : b.closeItem items = b := by
  rw [Option.isSome_eq_false_iff, Option.isNone_iff_eq_none, ← hnames, itemToClose_standIns] at hitem
  rw [closeItem, hitem]

namespace Settled

variable (h : Settled b names) (hstack : b.stack = o :: os)

include h hstack

/-- An element has been opened, in a mode and with formatting of its own. -/
theorem opens_in (htag : tag ∉ [text "form", text "template"])
    (hground : OnGround (b.openHtml tag attributes) b')
    (hformatting : Follows (⟨b.fresh, Name.html tag, attributes⟩ :: b.stack) b'.formatting)
    (hform : b'.form = (b.openHtml tag attributes).form)
    (hmode : Agree b'.mode (modeIn (Name.html tag :: names)))
    (hdrop : b'.dropNewline = dropsNewline (Name.html tag)) :
    Opened b b' (Name.html tag) attributes := by
  have hne : Name.html tag ≠ Name.html (text "form") := ne_of_not_mem htag (by decide)
  refine h.opened hstack hground (isPlain_html h.plain htag) hformatting ?_ hmode hdrop
  rw [hform, openHtml, h.openElement_eq hstack]
  exact h.form.trans (openFormOf_cons (o := ⟨b.fresh, _, attributes⟩) hne _).symm

/-- An element without a part to play is opened within the others. -/
theorem opens (htag : tag ∉ roleTags) (hsimilar : Similar (b.openHtml tag attributes) b')
    (hdrop : b'.dropNewline = dropsNewline (Name.html tag)) :
    Opened b b' (Name.html tag) attributes := by
  have hmodes : tag ∉ modeTags := fun hmem => htag (List.mem_append_left _ hmem)
  have hopen := h.openElement_eq hstack (Name.html tag) attributes
  refine h.opens_in hstack (not_mem_of_roleTags htag) hsimilar.toOnGround ?_ hsimilar.form ?_ hdrop
  · rw [hsimilar.formatting, openHtml, hopen]
    exact .other (isMarker_html htag) h.formatting
  · rw [hsimilar.mode, openHtml, hopen, modeIn_html hmodes]
    exact h.mode

theorem dropNewline_openHtml : (b.openHtml tag attributes).dropNewline = false := by
  rw [openHtml, h.openElement_eq hstack]
  exact h.dropNewline

end Settled

/-! ## Rules of single tags -/

/-- A block closes a paragraph and is opened. -/
theorem bodyStart_block (htag : tag ∈ blockTags ∨ tag = text "menu") (b : Builder)
    (attributes : List Attribute) :
    b.bodyStart tag attributes false = b.endParagraph.openHtml tag attributes := by
  rcases htag with htag | rfl
  · simp only [blockTags, List.mem_cons, List.not_mem_nil, or_false] at htag
    rcases htag with rfl | rfl | rfl | rfl | rfl | rfl | rfl | rfl | rfl | rfl | rfl | rfl | rfl |
      rfl | rfl | rfl | rfl | rfl | rfl | rfl | rfl | rfl | rfl <;> rfl
  · rfl

theorem not_mem_roleTags_block : ∀ tag ∈ blockTags, tag ∉ roleTags ∧
    dropsNewline (Name.html tag) = false := by decide

theorem not_mem_roleTags_heading : ∀ tag ∈ headingTags,
    tag ∉ roleTags ∧ dropsNewline (Name.html tag) = false := by decide

/-- Of equal formatting elements at most some are forgotten. -/
theorem exists_limitEqual_eq (b : Builder) (name : Name) (attributes : List Attribute) :
    ∃ p : Formatting → Bool, p .marker = true ∧
      b.limitEqual name attributes = { b with formatting := b.formatting.filter p } := by
  have hnone : b = { b with formatting := b.formatting.filter fun _ => true } := by simp
  unfold limitEqual
  extract_lets equal
  split
  · split
    · exact ⟨_, rfl, rfl⟩
    · exact ⟨_, rfl, hnone⟩
  · exact ⟨_, rfl, hnone⟩

namespace Settled

variable (h : Settled b names) (hstack : b.stack = o :: os)

include h hstack

/-- A block opens where no paragraph is open. -/
theorem opened_block (htag : tag ∈ blockTags ∨ tag = text "menu")
    (hp : hasOpen Name.isButtonScope (text "p") names = false) :
    Opened b (b.bodyStart tag attributes false) (Name.html tag) attributes := by
  have hrole : tag ∉ roleTags ∧ dropsNewline (Name.html tag) = false := by
    rcases htag with htag | rfl
    · exact not_mem_roleTags_block tag htag
    · decide
  rw [bodyStart_block htag, endParagraph_eq h.stack hp]
  refine h.opens hstack hrole.1 (Similar.refl _) ?_
  rw [hrole.2, h.dropNewline_openHtml hstack]

/-- A preformatted text opens where no paragraph is open. -/
theorem opened_pre (htag : tag = text "pre" ∨ tag = text "listing")
    (hp : hasOpen Name.isButtonScope (text "p") names = false) :
    Opened b (b.bodyStart tag attributes false) (Name.html tag) attributes := by
  have hrule : b.bodyStart tag attributes false =
      { (b.endParagraph.openHtml tag attributes).noFrameset with dropNewline := true } := by
    rcases htag with rfl | rfl <;> rfl
  rw [hrule, endParagraph_eq h.stack hp]
  rcases htag with rfl | rfl <;>
    exact h.opens hstack (by decide) { Similar.refl _ with } rfl

/-- A heading opens where neither a paragraph nor a heading is open. -/
theorem opened_heading (htag : tag ∈ headingTags)
    (hp : hasOpen Name.isButtonScope (text "p") names = false)
    (hheading : innermost names Name.isHeading = false) :
    Opened b (b.bodyStart tag attributes false) (Name.html tag) attributes := by
  obtain ⟨hrole, hdrop⟩ := not_mem_roleTags_heading tag htag
  have hrule : b.bodyStart tag attributes false =
      (if b.endParagraph.currentIs Name.isHeading then b.endParagraph.pop
        else b.endParagraph).openHtml tag attributes := by
    simp only [headingTags, List.mem_cons, List.not_mem_nil, or_false] at htag
    rcases htag with rfl | rfl | rfl | rfl | rfl | rfl <;> rfl
  rw [hrule, endParagraph_eq h.stack hp, currentIs_eq _ h.stack, hheading,
    if_neg Bool.false_ne_true]
  exact h.opens hstack hrole (Similar.refl _) ((h.dropNewline_openHtml hstack).trans hdrop.symm)

/-- An item of a list opens where neither a paragraph nor an item is open. -/
theorem opened_item {items : List Text} (htag : tag ∉ roleTags)
    (hdrop : dropsNewline (Name.html tag) = false)
    (hrule : b.bodyStart tag attributes false = b.openItem items tag attributes)
    (hp : hasOpen Name.isButtonScope (text "p") names = false)
    (hitem : (itemToClose items (standIns names)).isSome = false) :
    Opened b (b.bodyStart tag attributes false) (Name.html tag) attributes := by
  have hcalm : Settled b.noFrameset names := h.of_similar (Similar.noFrameset b) h.dropNewline
  have hopened := hcalm.opens hstack htag (Similar.refl (b.noFrameset.openHtml tag attributes))
    ((hcalm.dropNewline_openHtml hstack).trans hdrop.symm)
  rw [hrule, openItem, closeItem_eq hcalm.stack hitem, endParagraph_eq hcalm.stack hp]
  exact hopened.of_onGround (Similar.noFrameset b).toOnGround

/-- A form opens where neither a paragraph nor a form is open. -/
theorem opened_form (hp : hasOpen Name.isButtonScope (text "p") names = false)
    (hform : Name.html (text "form") ∉ names) :
    Opened b (b.bodyStart (text "form") attributes false) (Name.html (text "form")) attributes := by
  have hrule : b.bodyStart (text "form") attributes false = b.openForm attributes := rfl
  have hnone : b.form = none := by
    rw [h.form, openFormOf, Option.map_eq_none_iff, List.find?_eq_none]
    intro p hmem heq
    exact hform (h.stack ▸ List.mem_map.2 ⟨p, hmem, by simpa using heq⟩)
  have hopen := h.openElement_eq hstack (Name.html (text "form")) attributes
  have htemplate : (b.openHtml (text "form") attributes).inTemplateElement = false := by
    have hrest := h.inTemplateElement_eq
    rw [inTemplateElement, isOpen] at hrest ⊢
    rw [openHtml, hopen, List.any_cons, hrest]
    rfl
  have hplain : IsPlain (Name.html (text "form") :: names) := by
    refine ⟨?_, ?_, ?_⟩
    · rw [List.mem_cons, not_or]
      exact ⟨by decide, h.plain.template⟩
    · rw [List.mem_cons, not_or]
      exact ⟨by decide, h.plain.annotation⟩
    · rw [List.count_cons_self, List.count_eq_zero.2 hform]
  rw [hrule, openForm, hnone, Option.isSome_none, Bool.false_and, if_neg Bool.false_ne_true,
    endParagraph_eq h.stack hp]
  dsimp only
  rw [htemplate, if_neg Bool.false_ne_true, openHtml, hopen]
  refine h.opened hstack ?_ hplain (.other rfl h.formatting) rfl h.mode h.dropNewline
  rw [hopen]
  exact { Similar.refl _ with }

/-- A formatting element opens and is remembered. -/
theorem opened_formatting {tag : Text} (htag : (Name.html tag).isFormatting = true)
    (hrole : tag ∉ roleTags) (hdrop : dropsNewline (Name.html tag) = false) :
    Opened b (b.openFormatting tag attributes) (Name.html tag) attributes := by
  obtain ⟨p, hp, heq⟩ := b.exists_limitEqual_eq (Name.html tag) attributes
  have hlimited : Settled { b with formatting := b.formatting.filter p } names :=
    { h with
      formatting := h.formatting.filter p hp
      numbered := { h.numbered with }
      calm := { h.calm with } }
  have hopen := hlimited.openElement_eq hstack (Name.html tag) attributes
  have hlist : Opened { b with formatting := b.formatting.filter p }
      (b.openFormatting tag attributes) (Name.html tag) attributes := by
    rw [openFormatting, heq]
    refine hlimited.opens_in hstack (not_mem_of_roleTags hrole) { Similar.refl _ with } ?_ rfl ?_ ?_
    · rw [openHtml, hopen]
      exact .element htag hlimited.formatting
    · rw [modeIn_html fun hmem => hrole (List.mem_append_left _ hmem), openHtml, hopen]
      exact h.mode
    · rw [openHtml, hopen, hdrop]
      exact h.dropNewline
  exact hlist.of_onGround { Similar.refl b with }

/-- An element that limits formatting opens with its limit. -/
theorem opened_marker (htag : tag ∈ [text "applet", text "marquee", text "object"]) :
    Opened b (b.bodyStart tag attributes false) (Name.html tag) attributes := by
  have hrule : b.bodyStart tag attributes false =
      (b.reconstruct.openHtml tag attributes).pushMarker.noFrameset := by
    simp only [List.mem_cons, List.not_mem_nil, or_false] at htag
    rcases htag with rfl | rfl | rfl <;> rfl
  have hrole : ∀ tag ∈ [text "applet", text "marquee", text "object"], tag ∉ modeTags ∧
      tag ∉ [text "form", text "template"] ∧ (Name.html tag).isMarker = true ∧
        dropsNewline (Name.html tag) = false := by decide
  obtain ⟨hmodes, hplain, hmarker, hdrop⟩ := hrole tag htag
  have hopen := h.openElement_eq hstack (Name.html tag) attributes
  rw [hrule, h.reconstruct_eq]
  refine h.opens_in hstack hplain { Similar.refl _ with } ?_ rfl ?_ ?_
  · rw [openHtml, hopen]
    exact .marker hmarker h.formatting
  · rw [modeIn_html hmodes, openHtml, hopen]
    exact h.mode
  · rw [openHtml, hopen, hdrop]
    exact h.dropNewline

/-- A link opens where none is open. -/
theorem opened_link (hlink : hasOpen Name.isMarker (text "a") names = false) :
    Opened b (b.bodyStart (text "a") attributes false) (Name.html (text "a")) attributes := by
  have hrule : b.bodyStart (text "a") attributes false =
      b.closeLink.reconstruct.openFormatting (text "a") attributes := rfl
  have hscope := inScope_standIns Name.isMarker (· == Name.html (text "a")) b.stack
  rw [h.stack] at hscope
  have hfind : b.recentFormatting.find? (fun o => o.name.name = text "a") = none :=
    h.formatting.find?_recent (hscope.symm.trans hlink)
  have hclose : b.closeLink = b := by rw [closeLink, hfind]
  rw [hrule, hclose, h.reconstruct_eq]
  exact h.opened_formatting hstack rfl (by decide) rfl

/-- A button opens where none is open. -/
theorem opened_button (hbutton : hasOpen Name.isScope (text "button") names = false) :
    Opened b (b.bodyStart (text "button") attributes false) (Name.html (text "button"))
      attributes := by
  have hrule : b.bodyStart (text "button") attributes false =
      ((if b.hasInScope Name.isScope (text "button") then
        b.closeImplied.popThroughNamed (text "button") else b).reconstruct.openHtml
          (text "button") attributes).noFrameset := rfl
  rw [hrule, hasInScope_eq _ _ h.stack, hbutton, if_neg Bool.false_ne_true, h.reconstruct_eq]
  exact h.opens hstack (by decide) (Similar.noFrameset _) (h.dropNewline_openHtml hstack)

theorem opened_nobr (hnobr : hasOpen Name.isScope (text "nobr") names = false) :
    Opened b (b.bodyStart (text "nobr") attributes false) (Name.html (text "nobr")) attributes := by
  have hrule : b.bodyStart (text "nobr") attributes false =
      (if b.reconstruct.hasInScope Name.isScope (text "nobr") then
        (b.reconstruct.adopt (text "nobr")).reconstruct else b.reconstruct).openFormatting
          (text "nobr") attributes := rfl
  rw [hrule, h.reconstruct_eq, hasInScope_eq _ _ h.stack, hnobr, if_neg Bool.false_ne_true]
  exact h.opened_formatting hstack rfl (by decide) rfl

/-- An option opens behind the end of the one before it. -/
theorem opened_option (htag : tag ∈ [text "option", text "optgroup"])
    (hoption : innermost names (· == Name.html (text "option")) = false) :
    Opened b (b.bodyStart tag attributes false) (Name.html tag) attributes := by
  have hrule : b.bodyStart tag attributes false =
      (if b.currentNamed (text "option") then b.pop else b).reconstruct.openHtml tag attributes := by
    simp only [List.mem_cons, List.not_mem_nil, or_false] at htag
    rcases htag with rfl | rfl <;> rfl
  have hrole : ∀ tag ∈ [text "option", text "optgroup"], tag ∉ roleTags ∧
      dropsNewline (Name.html tag) = false := by decide
  rw [hrule, currentNamed, currentIs_eq _ h.stack, hoption, if_neg Bool.false_ne_true,
    h.reconstruct_eq]
  exact h.opens hstack (hrole tag htag).1 (Similar.refl _)
    ((h.dropNewline_openHtml hstack).trans (hrole tag htag).2.symm)

/-- Where no implied end stands innermost, none is closed. -/
theorem popWhile_eq {p : Name → Bool} (hp : innermost names p = false) : b.popWhile p = b := by
  rw [← h.stack, hstack, innermost] at hp
  rw [popWhile, hstack, List.dropWhile_cons_of_neg (by simpa using hp), ← hstack]

/-- An annotation opens behind the end of the one before it. -/
theorem opened_ruby {p : Name → Bool} (htag : tag ∈ [text "rb", text "rp", text "rt", text "rtc"])
    (hrule : b.bodyStart tag attributes false =
      (if b.hasInScope Name.isScope (text "ruby") then b.popWhile p else b).openHtml tag attributes)
    (hp : hasOpen Name.isScope (text "ruby") names = true → innermost names p = false) :
    Opened b (b.bodyStart tag attributes false) (Name.html tag) attributes := by
  have hrole : ∀ tag ∈ [text "rb", text "rp", text "rt", text "rtc"], tag ∉ roleTags ∧
      dropsNewline (Name.html tag) = false := by decide
  have hsame : (if b.hasInScope Name.isScope (text "ruby") then b.popWhile p else b) = b := by
    rw [hasInScope_eq _ _ h.stack]
    cases hruby : hasOpen Name.isScope (text "ruby") names with
    | false => rfl
    | true => rw [if_pos rfl, h.popWhile_eq hstack (hp hruby)]
  rw [hrule, hsame]
  exact h.opens hstack (hrole tag htag).1 (Similar.refl _)
    ((h.dropNewline_openHtml hstack).trans (hrole tag htag).2.symm)

/-- A table opens in its own mode. -/
theorem opened_table :
    Opened b (b.bodyStart (text "table") attributes false) (Name.html (text "table"))
      attributes := by
  have hrule : b.bodyStart (text "table") attributes false =
      ((if b.quirks then b else b.endParagraph).openHtml (text "table")
        attributes).noFrameset.withMode .inTable := rfl
  have hopen := h.openElement_eq hstack (Name.html (text "table")) attributes
  rw [hrule, h.calm.quirks, if_pos rfl]
  refine h.opens_in hstack (by decide) { Similar.refl _ with } ?_ rfl (Agree.refl _)
    (h.dropNewline_openHtml hstack)
  rw [openHtml, hopen]
  exact .other rfl h.formatting

/-- A menu of choices opens in its own mode. -/
theorem opened_select :
    Opened b (b.bodyStart (text "select") attributes false) (Name.html (text "select"))
      attributes := by
  have hrule : b.bodyStart (text "select") attributes false =
      (b.reconstruct.openHtml (text "select") attributes).noFrameset.withMode
        (modeWithinSelect b.mode) := rfl
  have hopen := h.openElement_eq hstack (Name.html (text "select")) attributes
  rw [hrule, h.reconstruct_eq]
  refine h.opens_in hstack (by decide) { Similar.refl _ with } ?_ rfl
    (.inr ⟨isSelectMode_modeWithinSelect _, isSelectMode_selectMode _⟩)
    (h.dropNewline_openHtml hstack)
  rw [openHtml, hopen]
  exact .other rfl h.formatting

/-- An element of another name space has been opened. -/
theorem opened_foreign {name : Name} (hspace : name.space ≠ .html)
    (hname : name ≠ ⟨.mathml, text "annotation-xml"⟩) :
    Opened b (b.openForeign name attributes false) name attributes := by
  have hopen := h.openElement_eq hstack name attributes
  have hmarker : name.isMarker = false := by simp [Name.isMarker, Name.isOneOf, hspace]
  have hform : name ≠ Name.html (text "form") := fun heq => hspace (by rw [heq]; rfl)
  have hdrop : dropsNewline name = false := by simp [dropsNewline, Name.isOneOf, hspace]
  have hrule : b.openForeign name attributes false = b.openElement name attributes := rfl
  rw [hrule]
  refine h.opened hstack (Similar.refl _).toOnGround (isPlain_foreign h.plain hspace hname) ?_ ?_ ?_ ?_
  · rw [hopen]
    exact .other hmarker h.formatting
  · rw [hopen]
    exact h.form.trans (openFormOf_cons (o := ⟨b.fresh, _, attributes⟩) hform _).symm
  · rw [hopen, modeIn_foreign hspace]
    exact h.mode
  · rw [hopen, hdrop]
    exact h.dropNewline

end Settled

/-! ## All tags -/

/-- A tag without a rule of its own opens its element. -/
theorem bodyStart_other (htag : tag ∉ ruledTags) (b : Builder) (attributes : List Attribute) :
    b.bodyStart tag attributes false = b.reconstruct.openHtml tag attributes := by
  simp only [ruledTags, headTags, blockTags, formattingTags, modeTags, List.mem_append,
    List.mem_cons, List.not_mem_nil, or_false, not_or] at htag
  simp [bodyStart, headTags, blockTags, formattingTags, Name.isHeading, Name.isOneOf, Name.html,
    isVoidInline, isMisplaced, htag]

theorem of_not_mem_ruledTags (htag : tag ∉ ruledTags) :
    tag ∉ roleTags ∧ dropsNewline (Name.html tag) = false := by
  constructor
  · intro hmem
    have hsub : ∀ tag ∈ roleTags, tag ∈ ruledTags := by decide
    exact htag (hsub tag hmem)
  · simp only [ruledTags, List.mem_append, List.mem_cons, List.not_mem_nil, or_false, not_or] at htag
    simp [dropsNewline, Name.isOneOf, Name.html, htag]

theorem isFlow_of_region (h : regionOf names = some .flow) :
    isFlowMode (modeIn names) = true ∧ isForeignIn names = false := by
  have hspec := regionOf_spec names
  rw [h] at hspec
  exact hspec

/-- The language of an element outside of foreign content is that of its tag. -/
theorem nameIn_of_flow (hregion : regionOf names = some .flow) (tag : Text) :
    nameIn names tag =
      if tag = text "svg" then ⟨.svg, tag⟩ else if tag = text "math" then ⟨.mathml, tag⟩
      else Name.html tag := by
  rw [nameIn, (isFlow_of_region hregion).2, if_neg Bool.false_ne_true]

namespace Settled

variable (h : Settled b names) (hstack : b.stack = o :: os)

include h hstack

/-- A tag without a rule of its own opens where the body is read. -/
theorem opened_other (htag : tag ∉ ruledTags) :
    Opened b (b.bodyStart tag attributes false) (Name.html tag) attributes := by
  obtain ⟨hrole, hdrop⟩ := of_not_mem_ruledTags htag
  rw [bodyStart_other htag, h.reconstruct_eq]
  exact h.opens hstack hrole (Similar.refl _) ((h.dropNewline_openHtml hstack).trans hdrop.symm)

theorem opened_inline (htag : tag ∈ formattingTags) :
    Opened b (b.bodyStart tag attributes false) (Name.html tag) attributes := by
  have hrule : b.bodyStart tag attributes false = b.reconstruct.openFormatting tag attributes := by
    simp only [formattingTags, List.mem_cons, List.not_mem_nil, or_false] at htag
    rcases htag with rfl | rfl | rfl | rfl | rfl | rfl | rfl | rfl | rfl | rfl | rfl | rfl <;> rfl
  have hrole : ∀ tag ∈ formattingTags, (Name.html tag).isFormatting = true ∧ tag ∉ roleTags ∧
      dropsNewline (Name.html tag) = false := by decide
  obtain ⟨hname, hrole, hdrop⟩ := hrole tag htag
  rw [hrule, h.reconstruct_eq]
  exact h.opened_formatting hstack hname hrole hdrop

end Settled

/-- The tags that have a rule of their own and hold nodes. -/
theorem cases_ruledTags : ∀ tag ∈ ruledTags, tagContent tag = some .nodes → tag ≠ text "svg" →
    tag ≠ text "math" → (tag ∈ blockTags ∨ tag = text "menu") ∨
      (tag = text "pre" ∨ tag = text "listing") ∨ tag ∈ headingTags ∨ tag = text "form" ∨
      tag = text "li" ∨ tag ∈ [text "dd", text "dt"] ∨ tag = text "button" ∨ tag = text "nobr" ∨
      tag = text "a" ∨ tag ∈ [text "option", text "optgroup"] ∨ tag ∈ [text "rb", text "rtc"] ∨
      tag ∈ [text "rp", text "rt"] ∨ tag ∈ formattingTags ∨
      tag ∈ [text "applet", text "marquee", text "object"] ∨ tag = text "select" ∨
      tag = text "table" := by decide +kernel

namespace Settled

variable (h : Settled b names) (hstack : b.stack = o :: os)

include h hstack

/-- Every tag that is admitted opens its element. -/
theorem opened_html (hadmitted : isAdmitted names tag = true)
    (hcontent : tagContent tag = some .nodes) (hsvg : tag ≠ text "svg") (hmath : tag ≠ text "math") :
    Opened b (b.bodyStart tag attributes false) (Name.html tag) attributes := by
  simp only [isAdmitted, Bool.and_eq_true, Bool.not_eq_true', Bool.and_eq_false_imp,
    List.contains_iff_mem, beq_iff_eq] at hadmitted
  obtain ⟨⟨⟨⟨⟨⟨⟨⟨⟨hparagraph, hheading⟩, hform⟩, hli⟩, hdd⟩, hbutton⟩, hlink⟩, hoption⟩, hrb⟩, hrp⟩ :=
    hadmitted
  by_cases hruled : tag ∈ ruledTags
  swap
  · exact h.opened_other hstack hruled
  rcases cases_ruledTags tag hruled hcontent hsvg hmath with htag | htag | htag | rfl | rfl | htag |
    rfl | rfl | rfl | htag | htag | htag | htag | htag | rfl | rfl
  · have hin : tag ∈ paragraphTags := by
      rcases htag with htag | rfl
      · exact List.mem_append_left _ (List.mem_append_left _ htag)
      · decide
    exact h.opened_block hstack htag (hparagraph hin)
  · exact h.opened_pre hstack htag (hparagraph (by rcases htag with rfl | rfl <;> decide))
  · have hin : tag ∈ paragraphTags := List.mem_append_left _ (List.mem_append_right _ htag)
    exact h.opened_heading hstack htag (hparagraph hin) (hheading htag)
  · have hnames := hform rfl
    rw [← Bool.not_eq_true, List.contains_iff_mem] at hnames
    exact h.opened_form hstack (hparagraph (by decide)) hnames
  · exact h.opened_item hstack (by decide) rfl rfl (hparagraph (by decide)) (hli rfl)
  · have hitem := hdd htag
    simp only [List.mem_cons, List.not_mem_nil, or_false] at htag
    rcases htag with rfl | rfl
    · exact h.opened_item hstack (by decide) rfl rfl (hparagraph (by decide)) hitem
    · exact h.opened_item hstack (by decide) rfl rfl (hparagraph (by decide)) hitem
  · exact h.opened_button hstack (hbutton (by decide))
  · exact h.opened_nobr hstack (hbutton (by decide))
  · exact h.opened_link hstack (hlink rfl)
  · exact h.opened_option hstack htag (hoption htag)
  · have hruby := hrb htag
    simp only [List.mem_cons, List.not_mem_nil, or_false] at htag
    rcases htag with rfl | rfl
    · exact h.opened_ruby hstack (by decide) rfl hruby
    · exact h.opened_ruby hstack (by decide) rfl hruby
  · have hruby := hrp htag
    simp only [List.mem_cons, List.not_mem_nil, or_false] at htag
    rcases htag with rfl | rfl
    · exact h.opened_ruby hstack (by decide) rfl hruby
    · exact h.opened_ruby hstack (by decide) rfl hruby
  · exact h.opened_inline hstack htag
  · exact h.opened_marker hstack htag
  · exact h.opened_select hstack
  · exact h.opened_table hstack

/-- A start tag that the elements around it admit opens its element and nothing else. -/
theorem opened_flow (hregion : regionOf names = some .flow)
    (hcontent : flowContent names tag = some .nodes) :
    Opened b (b.bodyStart tag attributes false) (nameIn names tag)
      (foreignAttributes (nameIn names tag).space attributes) := by
  rw [flowContent] at hcontent
  split at hcontent
  next hadmitted =>
    rw [nameIn_of_flow hregion]
    by_cases hsvg : tag = text "svg"
    · subst hsvg
      exact h.opened_foreign hstack (by decide) (by decide)
    · by_cases hmath : tag = text "math"
      · subst hmath
        exact h.opened_foreign hstack (by decide) (by decide)
      · rw [if_neg hsvg, if_neg hmath]
        exact h.opened_html hstack hadmitted hcontent hsvg hmath
  next => cases hcontent

end Settled

end Builder

end Viewloom.Html
