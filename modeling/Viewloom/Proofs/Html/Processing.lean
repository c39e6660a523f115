import Mathlib.Tactic.Tauto
import Viewloom.Proofs.Html.Parts

/-!
# Processing the tokens of admitted nodes

A node that the open elements admit is read by the rules of its region, and what becomes of its tokens is
the same everywhere: an element is opened or closed, or a leaf is added.
-/

namespace Viewloom.Html.Builder

variable {b b' : Builder} {names rest : List Name} {tag : Text} {o : Open} {os : List Open}
  {attributes : List Attribute} {reading : Reading}

theorem lowerAscii_lowerAscii (s : Text) : Text.lowerAscii (Text.lowerAscii s) = Text.lowerAscii s := by
  have hlower : ∀ c : Char, c.toLower.toLower = c.toLower := by
    intro c
    delta Char.toLower
    grind
  rw [Text.lowerAscii, Text.lowerAscii, List.map_map]
  exact List.map_congr_left fun c _ => hlower c

/-! ## Names of opened elements -/

/-- A tag outside of foreign content names its own element, unless it begins such content. -/
theorem nameIn_of_html (hforeign : isForeignIn names = false) (hsvg : tag ≠ text "svg")
    (hmath : tag ≠ text "math") : nameIn names tag = Name.html tag := by
  rw [nameIn, hforeign, if_neg Bool.false_ne_true, if_neg hsvg, if_neg hmath]

/-- A tag in foreign content names an element of the same language. -/
theorem nameIn_of_foreign (hforeign : isForeignIn (o.name :: names) = true) (tag : Text) :
    nameIn (o.name :: names) tag = ⟨o.name.space, tag⟩ := by
  rw [nameIn, hforeign, if_pos rfl]
  rfl

theorem isAdmitted_of_flow {content : Content} (h : flowContent names tag = some content) :
    isAdmitted names tag = true := by
  rw [flowContent] at h
  split at h
  · assumption
  · cases h

theorem mem_voidTags (h : tagContent tag = some .void) : tag ∈ voidTags := by
  rw [tagContent] at h
  split at h
  · next hvoid => exact List.contains_iff_mem.1 hvoid
  · repeat' split at h
    all_goals cases h

theorem tableContent_ne_void : tableContent names tag ≠ some .void := by
  rw [tableContent]
  repeat' split
  all_goals simp

theorem selectContent_ne_void : selectContent names tag ≠ some .void := by
  rw [selectContent]
  repeat' split
  all_goals simp

/-- The parts of a table by the element that they stand in. -/
theorem cases_of_partsOf {within : Text}
    (hwithin : within ∈ [text "table", text "tbody", text "tfoot", text "thead", text "tr"])
    (htag : tag ∈ partsOf (Name.html within :: rest)) :
    (within = text "table" ∧
        tag ∈ [text "caption", text "colgroup", text "tbody", text "tfoot", text "thead"]) ∨
      (within ∈ [text "tbody", text "tfoot", text "thead"] ∧ tag = text "tr") ∨
      (within = text "tr" ∧ tag ∈ [text "td", text "th"]) := by
  simp only [List.mem_cons, List.not_mem_nil, or_false] at hwithin
  rcases hwithin with rfl | rfl | rfl | rfl | rfl
  · exact .inl ⟨rfl, htag⟩
  · exact .inr (.inl ⟨by decide, List.mem_singleton.1 htag⟩)
  · exact .inr (.inl ⟨by decide, List.mem_singleton.1 htag⟩)
  · exact .inr (.inl ⟨by decide, List.mem_singleton.1 htag⟩)
  · exact .inr (.inr ⟨rfl, htag⟩)

/-- Directly in a table, only styles and scripts hold a text. -/
theorem eq_of_tableContent (hcontent : tableContent names tag = some (.text reading)) :
    tag = text "style" ∧ reading = .raw tag ∨ tag = text "script" ∧ reading = .script := by
  rw [tableContent] at hcontent
  split at hcontent
  · cases hcontent
  · split at hcontent
    · next htag =>
      cases hcontent
      exact .inl ⟨htag, rfl⟩
    · split at hcontent
      · next htag =>
        cases hcontent
        exact .inr ⟨htag, rfl⟩
      · cases hcontent

theorem eq_of_selectContent (hcontent : selectContent names tag = some (.text reading)) :
    tag = text "script" ∧ reading = .script := by
  rw [selectContent] at hcontent
  by_cases hscript : tag = text "script"
  · subst hscript
    rw [if_neg (by decide), if_neg (by decide), if_pos rfl] at hcontent
    exact ⟨rfl, (Content.text.inj (Option.some.inj hcontent)).symm⟩
  rw [if_neg hscript] at hcontent
  repeat' split at hcontent
  all_goals cases hcontent

/-- What is admitted between the tags of a table. -/
theorem mem_partsOf (hcontent : tableContent names tag = some .nodes) : tag ∈ partsOf names := by
  rw [tableContent] at hcontent
  split at hcontent
  · next htag => exact List.contains_iff_mem.1 htag
  · split at hcontent
    · cases hcontent
    · split at hcontent <;> cases hcontent

/-- In a menu of choices, only options and groups of them hold nodes. -/
theorem mem_of_selectContent (hcontent : selectContent names tag = some .nodes) :
    tag ∈ [text "option", text "optgroup"] := by
  rw [selectContent] at hcontent
  by_cases hoption : tag = text "option"
  · subst hoption
    decide
  by_cases hgroup : tag = text "optgroup"
  · subst hgroup
    decide
  rw [if_neg hoption, if_neg hgroup] at hcontent
  split at hcontent <;> cases hcontent

/-- What the printer and the parser agree on in foreign content. -/
theorem of_foreignContent {content : Content} (hcontent : foreignContent names tag = some content) :
    content = .nodes ∧ breakoutTags.contains (Text.lowerAscii tag) = false ∧
      Text.lowerAscii tag ≠ text "font" ∧ tag ≠ text "annotation-xml" ∧
      foreignTag names (Text.lowerAscii tag) = tag := by
  rw [foreignContent] at hcontent
  split at hcontent
  · cases hcontent
  · next hok =>
    simp only [Bool.or_eq_true, not_or, Bool.not_eq_true, bne_eq_false_iff_eq, beq_eq_false_iff_ne]
      at hok
    obtain ⟨⟨⟨⟨⟨⟨⟨hbreakout, hfont⟩, hannotation⟩, -⟩, -⟩, -⟩, -⟩, htag⟩ := hok
    exact ⟨(Option.some.inj hcontent).symm, hbreakout, hfont, hannotation, htag⟩

/-- Whatever holds a text reads it in its own way. -/
theorem isTextTag_of_contentIn (hcontent : contentIn names tag = some (.text reading)) :
    IsTextTag tag reading := by
  cases admitted_of_contentIn hcontent with
  | foreign hregion hcontent => cases (of_foreignContent hcontent).1
  | columns hregion htag hvoid => cases hvoid
  | flow hregion hlower hcontent => exact isTextTag_of_tagContent (tagContent_of_flow hcontent)
  | table hregion hlower hcontent =>
      rcases eq_of_tableContent hcontent with ⟨rfl, rfl⟩ | ⟨rfl, rfl⟩
      · exact .raw (by decide)
      · exact .script rfl
  | select hregion hlower hcontent =>
      obtain ⟨rfl, rfl⟩ := eq_of_selectContent hcontent
      exact .script rfl

theorem nameIn_of_table (hregion : regionOf names = some .table) (htag : tag ∈ partsOf names) :
    nameIn names tag = Name.html tag := by
  obtain ⟨within, hwithin, rest, rfl⟩ := exists_of_table hregion
  have hall : ∀ tag ∈ [text "caption", text "colgroup", text "tbody", text "tfoot", text "thead",
      text "tr", text "td", text "th"], tag ≠ text "svg" ∧ tag ≠ text "math" := by decide
  have hmem : tag ∈ [text "caption", text "colgroup", text "tbody", text "tfoot", text "thead",
      text "tr", text "td", text "th"] := by
    simp only [List.mem_cons, List.not_mem_nil, or_false]
    rcases cases_of_partsOf hwithin htag with ⟨-, htag⟩ | ⟨-, rfl⟩ | ⟨-, htag⟩
    · simp only [List.mem_cons, List.not_mem_nil, or_false] at htag
      tauto
    · simp
    · simp only [List.mem_cons, List.not_mem_nil, or_false] at htag
      tauto
  exact nameIn_of_html rfl (hall tag hmem).1 (hall tag hmem).2

theorem nameIn_of_select (hregion : regionOf names = some .select)
    (htag : tag ∈ [text "option", text "optgroup"]) : nameIn names tag = Name.html tag := by
  have hspace := (isSelect_of_region hregion).2
  obtain ⟨name, rest, rfl, hname⟩ := exists_of_innermost hspace
  have hforeign : isForeignIn (name :: rest) = false := by
    rw [isForeignIn, innermost, List.head?_cons, Option.any_some, beq_iff_eq.1 hname]
    rfl
  have hall : ∀ tag ∈ [text "option", text "optgroup"], tag ≠ text "svg" ∧ tag ≠ text "math" := by
    decide
  exact nameIn_of_html hforeign (hall tag htag).1 (hall tag htag).2

/-! ## Start tags -/

namespace Settled

variable (h : Settled b names) (hstack : b.stack = o :: os)

include h hstack

/-- A start tag in foreign content opens its element, with the attributes adjusted. -/
theorem start_foreign {content : Content} (hregion : regionOf names = some .foreign)
    (hcontent : foreignContent names tag = some content) (attributes : List Attribute) :
    ∃ b', b.outcome (.startTag (Text.lowerAscii tag) attributes false) = .done b' ∧
      Opened b b' (nameIn names tag) (foreignAttributes (nameIn names tag).space attributes) := by
  obtain ⟨-, hbreakout, hfont, hannotation, htag⟩ := of_foreignContent hcontent
  have hforeign := (isForeign_of_region hregion).2
  have hnames := h.names_eq hstack
  have hspace : o.name.space ≠ .html := by
    have hinner := hforeign
    rw [hnames, isForeignIn, innermost, List.head?_cons, Option.any_some] at hinner
    simp only [Bool.and_eq_true, bne_iff_ne] at hinner
    exact hinner.1.1
  have hname : nameIn names tag = ⟨o.name.space, tag⟩ := by
    rw [hnames] at hforeign ⊢
    exact nameIn_of_foreign hforeign tag
  have hstart : b.foreignStart (Text.lowerAscii tag) attributes false =
      b.openForeign ⟨o.name.space, tag⟩ (foreignAttributes o.name.space attributes) false := by
    have hspelling : (if o.name.space = .svg then
        (svgTags.lookup (Text.lowerAscii tag)).getD (Text.lowerAscii tag)
          else Text.lowerAscii tag) = tag := by
      rw [hnames, foreignTag, innermost, List.head?_cons, Option.any_some] at htag
      simpa using htag
    rw [foreignStart, current?, hstack, List.head?_cons]
    dsimp only
    rw [hspelling]
  have houtcome : b.outcome (.startTag (Text.lowerAscii tag) attributes false) =
      .done (b.openForeign ⟨o.name.space, tag⟩ (foreignAttributes o.name.space attributes) false) := by
    rw [outcome_eq_inForeign (h.isForeign_eq_true hstack hforeign (by simp))]
    dsimp only [inForeign]
    rw [hbreakout, beq_false_of_ne hfont, Bool.false_and, Bool.or_false, if_neg Bool.false_ne_true,
      hstart]
  refine ⟨_, houtcome, ?_⟩
  rw [hname]
  exact h.opened_foreign hstack hspace fun heq => hannotation (congrArg Name.name heq)

/-- The start tag of a part opens it in its table. -/
theorem start_table (hregion : regionOf names = some .table) (htag : tag ∈ partsOf names)
    (attributes : List Attribute) :
    ∃ b', b.outcome (.startTag tag attributes false) = .done b' ∧
      Opened b b' (Name.html tag) attributes := by
  obtain ⟨within, hwithin, rest, rfl⟩ := exists_of_table hregion
  rcases cases_of_partsOf hwithin htag with ⟨rfl, htag⟩ | ⟨hsection, rfl⟩ | ⟨rfl, htag⟩
  · exact h.opened_inTable hstack htag attributes
  · exact h.opened_inTableBody hstack hsection attributes
  · exact h.opened_inRow hstack htag attributes

/-- A start tag whose element holds nodes. -/
theorem start_nodes (hcontent : contentIn names tag = some .nodes) (attributes : List Attribute) :
    ∃ b', b.outcome (.startTag (Text.lowerAscii tag) attributes false) = .done b' ∧
      Opened b b' (nameIn names tag) (foreignAttributes (nameIn names tag).space attributes) := by
  cases admitted_of_contentIn hcontent with
  | foreign hregion hcontent => exact h.start_foreign hstack hregion hcontent attributes
  | columns hregion htag hvoid => cases hvoid
  | flow hregion hlower hcontent =>
      have htag : tag ∉ unusualTags :=
        not_mem_unusualTags (by simp [tagContent_of_flow hcontent])
      rw [hlower]
      exact ⟨_, h.outcome_start_flow hstack hregion htag attributes,
        h.opened_flow hstack hregion hcontent⟩
  | table hregion hlower hcontent =>
      rw [hlower, nameIn_of_table hregion (mem_partsOf hcontent)]
      exact h.start_table hstack hregion (mem_partsOf hcontent) attributes
  | select hregion hlower hcontent =>
      rw [hlower, nameIn_of_select hregion (mem_of_selectContent hcontent)]
      exact h.opened_inSelect hstack hregion hcontent attributes

/-- A column is added to its group. -/
theorem insertVoid_col (hregion : regionOf names = some .columns) (attributes : List Attribute) :
    b.outcome (.startTag (text "col") attributes false) =
      .done (b.insertVoid (text "col") attributes) := by
  obtain ⟨rest, rfl⟩ := exists_of_columns hregion
  rw [h.outcome_html hstack, byMode, h.mode_eq rfl rfl]
  rfl

/-- A start tag whose element has no content. -/
theorem start_void (hcontent : contentIn names tag = some .void) (attributes : List Attribute) :
    Text.lowerAscii tag = tag ∧ nameIn names tag = Name.html tag ∧
      ∃ b', b.outcome (.startTag tag attributes false) = .done b' ∧
        Grown b b' [.element b.fresh (Name.html tag) attributes []] := by
  cases admitted_of_contentIn hcontent with
  | foreign hregion hcontent => cases (of_foreignContent hcontent).1
  | columns hregion htag =>
      subst htag
      have hname : nameIn names (text "col") = Name.html (text "col") := by
        obtain ⟨rest, rfl⟩ := exists_of_columns hregion
        rfl
      exact ⟨by decide, hname, _, h.insertVoid_col hstack hregion attributes,
        h.grown_void hstack (Similar.refl _) rfl⟩
  | flow hregion hlower hcontent =>
      have hvoid := mem_voidTags (tagContent_of_flow hcontent)
      have htag : tag ∉ unusualTags :=
        not_mem_unusualTags (by simp [tagContent_of_flow hcontent])
      have hne : ∀ tag ∈ voidTags, tag ≠ text "svg" ∧ tag ≠ text "math" := by decide
      exact ⟨hlower, nameIn_of_html (isFlow_of_region hregion).2 (hne tag hvoid).1
        (hne tag hvoid).2, _, h.outcome_start_flow hstack hregion htag attributes,
        h.grown_voidTag hstack hvoid (isAdmitted_of_flow hcontent)⟩
  | table hregion hlower hcontent => exact absurd hcontent tableContent_ne_void
  | select hregion hlower hcontent => exact absurd hcontent selectContent_ne_void

/-- Styles and scripts are opened in a table by the rules of the head. -/
theorem outcome_sheet (hregion : regionOf names = some .table)
    (htag : tag ∈ [text "script", text "style"]) (attributes : List Attribute) :
    b.outcome (.startTag tag attributes false) = .done (b.headStart tag attributes) := by
  obtain ⟨within, hwithin, rest, rfl⟩ := exists_of_table hregion
  rw [h.outcome_html hstack, byMode]
  simp only [List.mem_cons, List.not_mem_nil, or_false] at hwithin htag
  rcases hwithin with rfl | rfl | rfl | rfl | rfl <;> rw [h.mode_eq rfl rfl] <;>
    rcases htag with rfl | rfl <;> rfl

/-- A start tag whose element holds only a text. -/
theorem start_text (hcontent : contentIn names tag = some (.text reading))
    (attributes : List Attribute) :
    Text.lowerAscii tag = tag ∧ nameIn names tag = Name.html tag ∧
      ∃ b', b.outcome (.startTag tag attributes false) = .done b' ∧
        TextOpened b b' tag attributes reading := by
  cases admitted_of_contentIn hcontent with
  | foreign hregion hcontent => cases (of_foreignContent hcontent).1
  | columns hregion htag hvoid => cases hvoid
  | flow hregion hlower hcontent =>
      have hsome := tagContent_of_flow hcontent
      have hsvg : tag ≠ text "svg" := by
        rintro rfl
        cases hsome
      have hmath : tag ≠ text "math" := by
        rintro rfl
        cases hsome
      exact ⟨hlower, nameIn_of_html (isFlow_of_region hregion).2 hsvg hmath, _,
        h.outcome_start_flow hstack hregion (not_mem_unusualTags (by simp [hsome])) attributes,
        h.textOpened_flow hstack hcontent⟩
  | table hregion hlower hcontent =>
      have hsheet := eq_of_tableContent hcontent
      have hname : nameIn names tag = Name.html tag := by
        obtain ⟨within, -, rest, rfl⟩ := exists_of_table hregion
        rcases hsheet with ⟨rfl, -⟩ | ⟨rfl, -⟩ <;> rfl
      refine ⟨hlower, hname, b.headStart tag attributes, ?_, ?_⟩
      · refine h.outcome_sheet hstack hregion ?_ attributes
        rcases hsheet with ⟨rfl, -⟩ | ⟨rfl, -⟩ <;> decide
      · rcases hsheet with ⟨rfl, rfl⟩ | ⟨rfl, rfl⟩
        · exact h.textOpened_openText hstack (by decide) attributes _
        · exact h.textOpened_openText hstack (by decide) attributes _
  | select hregion hlower hcontent =>
      obtain ⟨rfl, rfl⟩ := eq_of_selectContent hcontent
      have hspace := (isSelect_of_region hregion).2
      have hforeign : isForeignIn names = false := by
        obtain ⟨name, rest, rfl, hname⟩ := exists_of_innermost hspace
        rw [isForeignIn, innermost, List.head?_cons, Option.any_some, beq_iff_eq.1 hname]
        rfl
      exact ⟨hlower, nameIn_of_html hforeign (by decide) (by decide), _,
        h.outcome_select hstack hregion fun _ => rfl,
        h.textOpened_openText hstack (by decide) attributes _⟩

end Settled

/-! ## End tags -/

namespace Settled

/-- The end tag of a part closes it in its table. -/
theorem end_table (h : Settled b (Name.html tag :: names)) (hstack : b.stack = o :: os)
    (hregion : regionOf names = some .table) (htag : tag ∈ partsOf names) :
    ∃ b', b.outcome (.endTag tag) = .done b' ∧ Closed b b' := by
  obtain ⟨within, hwithin, rest, rfl⟩ := exists_of_table hregion
  rcases cases_of_partsOf hwithin htag with ⟨rfl, htag⟩ | ⟨hsection, rfl⟩ | ⟨rfl, htag⟩
  · exact h.closed_inTable hstack htag
  · exact h.closed_row hstack hsection
  · exact h.closed_cell hstack htag

/-- An end tag in foreign content closes its element. -/
theorem end_foreign (h : Settled b (nameIn names tag :: names)) (hstack : b.stack = o :: os)
    (hregion : regionOf names = some .foreign)
    (hcontent : foreignContent names tag = some .nodes) :
    ∃ b', b.outcome (.endTag (Text.lowerAscii tag)) = .done b' ∧ Closed b b' := by
  obtain ⟨-, hbreakout, -⟩ := of_foreignContent hcontent
  have hforeign := (isForeign_of_region hregion).2
  obtain ⟨name, rest, rfl, hname⟩ := exists_of_innermost hforeign
  have hopened : nameIn (name :: rest) tag = ⟨name.space, tag⟩ := by
    rw [nameIn, hforeign, if_pos rfl]
    rfl
  simp only [Bool.and_eq_true, bne_iff_ne] at hname
  have hne : ∀ tag ∈ [text "br", text "p"], breakoutTags.contains tag = true := by decide
  rw [hopened] at h
  refine h.closed_foreign hstack hname.1.1 ?_ ?_ ?_
  · rw [Text.equalsIgnoreCaseAscii, lowerAscii_lowerAscii, beq_self_eq_true]
  · intro heq
    rw [heq, hne _ (by decide)] at hbreakout
    cases hbreakout
  · intro heq
    rw [heq, hne _ (by decide)] at hbreakout
    cases hbreakout

/-- An end tag in the body closes its element. -/
theorem end_flow (h : Settled b (nameIn names tag :: names)) (hstack : b.stack = o :: os)
    (hregion : regionOf names = some .flow)
    (hcontent : tagContent tag = some .nodes) :
    ∃ b', b.outcome (.endTag tag) = .done b' ∧ Closed b b' := by
  have hsame : Text.equalsIgnoreCaseAscii tag tag = true := beq_self_eq_true _
  rw [nameIn_of_flow hregion] at h
  by_cases hsvg : tag = text "svg"
  · subst hsvg
    exact h.closed_foreign hstack (by decide) hsame (by decide) (by decide)
  rw [if_neg hsvg] at h
  by_cases hmath : tag = text "math"
  · subst hmath
    exact h.closed_foreign hstack (by decide) hsame (by decide) (by decide)
  rw [if_neg hmath] at h
  by_cases hselect : tag = text "select"
  · subst hselect
    exact h.closed_select hstack
  by_cases htable : tag = text "table"
  · subst htable
    exact h.closed_table hstack
  exact h.closed_flow hstack hregion hcontent hselect htable

/-- The end tag of an element that holds nodes. -/
theorem end_nodes (h : Settled b (nameIn names tag :: names)) (hstack : b.stack = o :: os)
    (hcontent : contentIn names tag = some .nodes) :
    ∃ b', b.outcome (.endTag (Text.lowerAscii tag)) = .done b' ∧ Closed b b' := by
  cases admitted_of_contentIn hcontent with
  | foreign hregion hcontent => exact h.end_foreign hstack hregion hcontent
  | columns hregion htag hvoid => cases hvoid
  | flow hregion hlower hcontent =>
      rw [hlower]
      exact h.end_flow hstack hregion (tagContent_of_flow hcontent)
  | table hregion hlower hcontent =>
      rw [nameIn_of_table hregion (mem_partsOf hcontent)] at h
      rw [hlower]
      exact h.end_table hstack hregion (mem_partsOf hcontent)
  | select hregion hlower hcontent =>
      rw [nameIn_of_select hregion (mem_of_selectContent hcontent)] at h
      rw [hlower]
      exact h.closed_inSelect hstack hregion (mem_of_selectContent hcontent)

end Settled

/-! ## Regions within opened elements -/

/-- What stands in a part of a table is read by known rules. -/
theorem regionOf_part {within : Text}
    (hwithin : within ∈ [text "table", text "tbody", text "tfoot", text "thead", text "tr"])
    (htag : tag ∈ partsOf (Name.html within :: rest)) :
    (regionOf (Name.html tag :: Name.html within :: rest)).isSome = true := by
  rcases cases_of_partsOf hwithin htag with ⟨rfl, hmem⟩ | ⟨-, rfl⟩ | ⟨rfl, hmem⟩
  · simp only [List.mem_cons, List.not_mem_nil, or_false] at hmem
    rcases hmem with rfl | rfl | rfl | rfl | rfl <;> rfl
  · rfl
  · simp only [List.mem_cons, List.not_mem_nil, or_false] at hmem
    rcases hmem with rfl | rfl <;> rfl

/-- What stands in an element of the body is read by known rules. -/
theorem isSome_regionOf_flow (hregion : regionOf names = some .flow)
    (hcontent : tagContent tag = some .nodes) :
    (regionOf (nameIn names tag :: names)).isSome = true := by
  have hflow := (isFlow_of_region hregion).1
  rw [nameIn_of_flow hregion]
  by_cases hsvg : tag = text "svg"
  · rw [if_pos hsvg, regionOf_foreign (by simp), hflow]
    rfl
  rw [if_neg hsvg]
  by_cases hmath : tag = text "math"
  · rw [if_pos hmath, regionOf_foreign (by simp), hflow]
    rfl
  rw [if_neg hmath]
  by_cases hselect : tag = text "select"
  · subst hselect
    rw [regionOf_select]
    rfl
  by_cases htable : tag = text "table"
  · subst htable
    rfl
  rw [regionOf_html (not_mem_modeTags hcontent hselect htable), hflow]
  rfl

/-- Within an admitted element some rules apply again. -/
theorem isSome_regionOf (hcontent : contentIn names tag = some .nodes) :
    (regionOf (nameIn names tag :: names)).isSome = true := by
  cases admitted_of_contentIn hcontent with
  | foreign hregion hcontent =>
      obtain ⟨hflow, hforeign⟩ := isForeign_of_region hregion
      obtain ⟨name, rest, rfl, hname⟩ := exists_of_innermost hforeign
      simp only [Bool.and_eq_true, bne_iff_ne] at hname
      have hspace : (nameIn (name :: rest) tag).space ≠ .html := by
        rw [nameIn, hforeign, if_pos rfl]
        exact hname.1.1
      rw [regionOf_foreign hspace, hflow]
      rfl
  | columns hregion htag hvoid => cases hvoid
  | flow hregion hlower hcontent => exact isSome_regionOf_flow hregion (tagContent_of_flow hcontent)
  | table hregion hlower hcontent =>
      have htag := mem_partsOf hcontent
      rw [nameIn_of_table hregion htag]
      obtain ⟨within, hwithin, rest, rfl⟩ := exists_of_table hregion
      exact regionOf_part hwithin htag
  | select hregion hlower hcontent =>
      have htag := mem_of_selectContent hcontent
      rw [nameIn_of_select hregion htag, regionOf_item hregion htag]
      rfl

/-! ## Comments and texts -/

namespace Settled

variable (h : Settled b names) (hstack : b.stack = o :: os)

include h hstack

/-- Wherever nodes may stand, a comment is added. -/
theorem outcome_comment (hregion : (regionOf names).isSome = true) (value : Text) :
    b.outcome (.comment value) = .done (b.insertComment value) := by
  by_cases hspace : o.name.space = .html
  · rw [outcome_eq_byMode (isForeign_of_html hstack hspace _)]
    obtain ⟨region, hsome⟩ := Option.isSome_iff_exists.1 hregion
    cases region with
    | flow => exact byMode_comment (h.isFlowMode_mode (isFlow_of_region hsome).1) value
    | foreign => exact byMode_comment (h.isFlowMode_mode (isForeign_of_region hsome).1) value
    | table =>
        obtain ⟨within, hwithin, rest, rfl⟩ := exists_of_table hsome
        simp only [List.mem_cons, List.not_mem_nil, or_false] at hwithin
        rw [byMode]
        rcases hwithin with rfl | rfl | rfl | rfl | rfl <;> rw [h.mode_eq rfl rfl] <;> rfl
    | columns =>
        obtain ⟨rest, rfl⟩ := exists_of_columns hsome
        rw [byMode, h.mode_eq rfl rfl]
        rfl
    | select =>
        rw [← outcome_eq_byMode (isForeign_of_html hstack hspace _),
          h.outcome_select hstack hsome fun _ => rfl]
        rfl
  · have hforeign : b.isForeign (.comment value) = true := by
      rw [isForeign, current?, hstack, List.head?_cons]
      dsimp only
      rw [if_neg hspace]
    rw [outcome_eq_inForeign hforeign]
    rfl

/-- A text outside of tables is added as it is read. -/
theorem outcome_chars (hregion : (regionOf names).isSome = true)
    (htable : regionOf names ≠ some .table) {value : Text}
    (hblank : regionOf names = some .columns → isBlankRun value = true) :
    ∃ b', b.outcome (.chars value) = .done b' ∧ Grown b b' [.text value] := by
  obtain ⟨region, hsome⟩ := Option.isSome_iff_exists.1 hregion
  cases region with
  | flow => exact ⟨_, h.outcome_chars_flow hstack hsome value, h.grown_bodyChars hstack value⟩
  | foreign =>
      have hforeign : b.isForeign (.chars value) = true :=
        h.isForeign_eq_true hstack (isForeign_of_region hsome).2 (by simp)
      have hrule : b.outcome (.chars value) =
          .done (if isBlankRun value then b.insertText value
            else (b.insertText value).noFrameset) := by
        rw [outcome_eq_inForeign hforeign]
        rfl
      refine ⟨_, hrule, ?_⟩
      split
      · exact h.grown_insertText hstack value
      · exact h.grown_insertText_noFrameset hstack value
  | table => exact absurd hsome htable
  | columns =>
      have hrun := hblank hsome
      obtain ⟨rest, rfl⟩ := exists_of_columns hsome
      have hrule : b.outcome (.chars value) = .done (b.insertText value) := by
        rw [h.outcome_html hstack, byMode, h.mode_eq rfl rfl]
        exact if_pos hrun
      exact ⟨_, hrule, h.grown_insertText hstack value⟩
  | select =>
      have hrule : b.outcome (.chars value) = .done (b.insertText value) :=
        h.outcome_select hstack hsome fun _ => rfl
      exact ⟨_, hrule, h.grown_insertText hstack value⟩

end Settled

end Viewloom.Html.Builder
