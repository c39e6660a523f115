import Viewloom.Proofs.Html.Opening

/-!
# Closing elements

The end tag of the innermost element closes it and nothing else, whatever the element has left behind in
the state.
-/

namespace Viewloom.Html.Builder

variable {b b' : Builder} {names : List Name} {tag : Text} {o : Open} {os : List Open}

/-! ## The innermost element -/

section Innermost

variable (hstack : b.stack = o :: os) (hname : o.name = Name.html tag)

include hstack hname

theorem hasInScope_innermost (limit : Name → Bool) : b.hasInScope limit tag = true := by
  rw [hasInScope, hstack, inScope, if_pos (beq_iff_eq.2 hname)]

theorem popWhile_innermost {p : Name → Bool} (hp : p (Name.html tag) = false) :
    b.popWhile p = b := by
  rw [popWhile, hstack, List.dropWhile_cons_of_neg (by simp [hname, hp]), ← hstack]

theorem closeImpliedExcept_innermost : b.closeImpliedExcept tag = b :=
  popWhile_innermost hstack hname (by simp)

theorem popThrough_innermost {p : Name → Bool} (hp : p (Name.html tag) = true) :
    b.popThrough p = b.pop := by
  rw [popThrough, hstack, List.dropWhile_cons_of_neg (by simp [hname, hp]), pop, hstack]

theorem popThroughNamed_innermost : b.popThroughNamed tag = b.pop :=
  popThrough_innermost hstack hname (by simp)

/-- An innermost paragraph is closed alone. -/
theorem closeParagraph_innermost (htag : tag = text "p") : b.closeParagraph = b.pop := by
  subst htag
  rw [closeParagraph, closeImpliedExcept_innermost hstack hname,
    popThroughNamed_innermost hstack hname]

/-- The end of the innermost element closes it alone. -/
theorem closeNamed_innermost : b.closeNamed tag = b.pop := by
  have hmatch : matching tag b.stack = some o := by rw [hstack, matching, if_pos hname]
  rw [closeNamed, hmatch]
  dsimp only
  rw [closeImpliedExcept_innermost hstack hname, pop, hstack,
    List.dropWhile_cons_of_neg (by simp)]

end Innermost

namespace Settled

variable (h : Settled b (Name.html tag :: names)) (hstack : b.stack = o :: os)

include h hstack

theorem name_eq : o.name = Name.html tag := by
  have hnames := h.stack
  rw [hstack, List.map_cons] at hnames
  exact (List.cons.inj hnames).1

/-- An element without a part to play is closed by leaving it. -/
theorem closed_pop (htag : tag ∉ roleTags) (hformatting : (Name.html tag).isFormatting = false)
    (hsimilar : Similar b.pop b') (hdrop : b'.dropNewline = false) : Closed b b' := by
  have hname := h.name_eq hstack
  have hmarker : o.name.isMarker = false := by rw [hname, isMarker_html htag]
  have hform : o.name ≠ Name.html (text "form") := by
    rw [hname]
    exact ne_of_not_mem htag (by decide)
  have hmodes : tag ∉ modeTags := fun hmem => htag (List.mem_append_left _ hmem)
  refine h.closed hstack hsimilar.toOnGround ?_ ?_ ?_ hdrop
  · have hfollows := h.formatting
    rw [hstack] at hfollows
    rw [hsimilar.formatting]
    exact hfollows.tail_of_other hmarker (by rw [hname, hformatting])
  · have hopen := h.form
    rw [hstack, openFormOf_cons hform] at hopen
    rw [hsimilar.form]
    exact hopen
  · have hmode := h.mode
    rw [modeIn_html hmodes] at hmode
    rw [hsimilar.mode]
    exact hmode

/-- An element that limits formatting takes the marker that it has left with it. -/
theorem closed_marked (hmarker : (Name.html tag).isMarker = true)
    (hground : OnGround b.pop b') (hformatting : b'.formatting = b.clearToMarker.formatting)
    (hform : b'.form = b.form) (hmode : Agree b'.mode (modeIn names))
    (hdrop : b'.dropNewline = false) : Closed b b' := by
  have hname := h.name_eq hstack
  have hne : o.name ≠ Name.html (text "form") := by
    rintro heq
    rw [← hname, heq] at hmarker
    cases hmarker
  refine h.closed hstack hground ?_ ?_ hmode hdrop
  · have hfollows := h.formatting
    rw [hstack] at hfollows
    obtain ⟨fs, hfs, hrest⟩ := hfollows.tail_of_marker (by rw [hname, hmarker])
    rw [hformatting, clearToMarker, hfs, List.dropWhile_cons_of_neg (by simp)]
    exact hrest
  · have hopen := h.form
    rw [hstack, openFormOf_cons hne] at hopen
    rw [hform, hopen]

/-- An innermost form is closed by its end. -/
theorem closed_form (htag : tag = text "form") : Closed b b.closeForm := by
  subst htag
  have hname := h.name_eq hstack
  have hform : b.form = some o.id := by
    rw [h.form, hstack, openFormOf, List.find?_cons_of_pos (by simp [hname])]
    rfl
  have hscope : inScope Name.isScope (fun p => p.id == o.id) (o :: os) = true := by
    rw [inScope, if_pos (by simp)]
  have hnodup := h.numbered.nodup
  rw [hstack, List.map_cons, List.nodup_cons] at hnodup
  have hrest : (o :: os).filter (fun p => p.id != o.id) = os := by
    rw [List.filter_cons_of_neg (by simp), List.filter_eq_self]
    intro p hp
    rw [bne_iff_ne]
    exact fun heq => hnodup.1 (heq ▸ List.mem_map.2 ⟨p, hp, rfl⟩)
  let cleared : Builder := { b with form := none }
  have hcleared : cleared.stack = o :: os := hstack
  have himplied : cleared.closeImplied = cleared := popWhile_innermost hcleared hname rfl
  have hrule : b.closeForm = cleared.closeImplied.removeFromStack o.id := by
    rw [closeForm]
    simp only [h.inTemplateElement_eq, hform, hstack, hscope, if_true, Bool.false_eq_true, if_false]
    rw [← hstack]
  have hclosed : b.closeForm = { b.pop with form := none } := by
    rw [hrule, himplied, removeFromStack, hcleared, hrest, pop, hstack]
    rfl
  have hcount : os.map Open.name = names := by
    have hnames := h.stack
    rw [hstack, List.map_cons] at hnames
    exact (List.cons.inj hnames).2
  have hnone : openFormOf os = none := by
    have hforms := h.plain.form
    have hzero : names.count (Name.html (text "form")) = 0 := by
      rw [List.count_cons_self] at hforms
      omega
    rw [List.count_eq_zero, ← hcount] at hzero
    rw [openFormOf, Option.map_eq_none_iff, List.find?_eq_none]
    intro p hp heq
    exact hzero (List.mem_map.2 ⟨p, hp, by simpa using heq⟩)
  rw [hclosed]
  refine h.closed hstack { Similar.refl b.pop with } ?_ hnone.symm ?_ h.dropNewline
  · have hfollows := h.formatting
    rw [hstack] at hfollows
    exact hfollows.tail_of_other (by rw [hname]; rfl) (by rw [hname]; rfl)
  · have hmode := h.mode
    rw [modeIn_html (by decide)] at hmode
    exact hmode

/-- An innermost formatting element is popped and forgotten. -/
theorem adopt_innermost (hformatting : (Name.html tag).isFormatting = true) :
    ∃ fs, b.adopt tag = { b.pop with formatting := fs } ∧ Follows os fs := by
  have hname := h.name_eq hstack
  have hcurrent : b.current? = some o := by rw [current?, hstack, List.head?_cons]
  have hfollows := h.formatting
  have hnodup := h.numbered.nodup
  rw [hstack, List.map_cons, List.nodup_cons] at hnodup
  rw [hstack] at hfollows
  -- The element is remembered, or it has been forgotten and is like any other.
  rcases hfollows.cases_of_formatting (by rw [hname, hformatting]) with ⟨rest, hfs, hrest⟩ | hrest
  · have hknown : b.isFormatting o.id = true := by simp [Builder.isFormatting, hfs]
    have hfind : b.recentFormatting.find? (fun p => p.name.name = tag) = some o := by
      rw [recentFormatting, hfs, List.takeWhile_cons_of_pos (by simp)]
      simp [hname, Name.html]
    have hopen : b.isOpenElement o.id = true := by simp [isOpenElement, hstack]
    have hscope : inScope Name.isScope (fun p => p.id == o.id) b.stack = true := by
      rw [hstack, inScope, if_pos (by simp)]
    have hinner : b.stack.takeWhile (fun p => p.id != o.id) = [] := by
      rw [hstack, List.takeWhile_cons_of_neg (by simp)]
    have hdrop : b.stack.dropWhile (fun p => p.id != o.id) = b.stack := by
      rw [hstack, List.dropWhile_cons_of_neg (by simp)]
    have honce : b.adoptOnce tag = (b.pop.removeFormatting o.id, false) := by
      rw [adoptOnce, hfind]
      simp only [hopen, hscope, hinner, hdrop, Bool.not_true, Bool.false_eq_true, if_false,
        List.reverse_nil, List.find?_nil]
      rfl
    have hadopt : b.adopt tag = b.pop.removeFormatting o.id := by
      rw [adopt, hcurrent]
      dsimp only
      rw [if_neg (by simp [hknown]), adoptRounds, honce]
      rfl
    refine ⟨(b.pop.removeFormatting o.id).formatting, hadopt, ?_⟩
    rw [removeFormatting, pop]
    dsimp only
    rw [hfs, List.filter_cons_of_neg (by simp)]
    exact hrest.filter _ rfl
  · have hknown : b.isFormatting o.id = false := by
      rw [Builder.isFormatting, List.any_eq_false]
      intro f hf
      cases f with
      | marker => simp
      | element p =>
          rw [beq_iff_eq]
          exact fun heq => hnodup.1 (heq ▸ List.mem_map.2 ⟨p, hrest.mem hf, rfl⟩)
    refine ⟨b.formatting, ?_, hrest⟩
    rw [adopt, hcurrent]
    dsimp only
    rw [if_pos ⟨hname, hknown⟩]
    rfl

/-- An innermost formatting element is closed by its end, and nothing is adopted. -/
theorem closed_formatting (htag : tag ∉ roleTags)
    (hformatting : (Name.html tag).isFormatting = true) : Closed b (b.adopt tag) := by
  obtain ⟨fs, hadopt, hfollows⟩ := h.adopt_innermost hstack hformatting
  have hname := h.name_eq hstack
  have hform : o.name ≠ Name.html (text "form") := by
    rw [hname]
    exact ne_of_not_mem htag (by decide)
  rw [hadopt]
  refine h.closed hstack { Similar.refl b.pop with } hfollows ?_ ?_ h.dropNewline
  · have hopen := h.form
    rw [hstack, openFormOf_cons hform] at hopen
    exact hopen
  · have hmode := h.mode
    rw [modeIn_html fun hmem => htag (List.mem_append_left _ hmem)] at hmode
    exact hmode

/-- An innermost block is closed by its end. -/
theorem closed_block (hblock : tag ∈ blockEndTags) :
    Closed b (b.closeImplied.popThroughNamed tag) := by
  have hname := h.name_eq hstack
  have hplain : ∀ tag ∈ blockEndTags, tag ∉ roleTags ∧ (Name.html tag).isFormatting = false ∧
      (Name.html tag).isImpliedEnd = false := by decide
  obtain ⟨hrole, hformatting, himplied⟩ := hplain tag hblock
  rw [closeImplied, popWhile_innermost hstack hname himplied, popThroughNamed_innermost hstack hname]
  exact h.closed_pop hstack hrole hformatting (Similar.refl _) h.dropNewline

/-- The end of an item is implied by that of its list, and its own tag closes it nevertheless. -/
theorem closed_item (hitem : tag ∈ [text "li", text "dd", text "dt"]) :
    Closed b ((b.closeImpliedExcept tag).popThroughNamed tag) := by
  have hname := h.name_eq hstack
  have hplain : ∀ tag ∈ [text "li", text "dd", text "dt"], tag ∉ roleTags ∧
      (Name.html tag).isFormatting = false := by decide
  obtain ⟨hrole, hformatting⟩ := hplain tag hitem
  rw [closeImpliedExcept_innermost hstack hname, popThroughNamed_innermost hstack hname]
  exact h.closed_pop hstack hrole hformatting (Similar.refl _) h.dropNewline

/-- An innermost heading is closed by its end. -/
theorem closed_heading (hheading : (Name.html tag).isHeading = true) :
    Closed b (b.closeImplied.popThrough Name.isHeading) := by
  have hname := h.name_eq hstack
  have hplain : ∀ tag ∈ headingTags, tag ∉ roleTags ∧ (Name.html tag).isFormatting = false ∧
      (Name.html tag).isImpliedEnd = false := by decide
  obtain ⟨hrole, hformatting, himplied⟩ := hplain tag (List.contains_iff_mem.1 hheading)
  rw [closeImplied, popWhile_innermost hstack hname himplied, popThrough_innermost hstack hname hheading]
  exact h.closed_pop hstack hrole hformatting (Similar.refl _) h.dropNewline

/-- The end of an element that limits formatting forgets the formatting in it. -/
theorem closed_limit (hmodes : tag ∉ modeTags)
    (hlimit : tag = text "applet" ∨ tag = text "marquee" ∨ tag = text "object") :
    Closed b (b.closeImplied.popThroughNamed tag).clearToMarker := by
  have hname := h.name_eq hstack
  have hmode := h.mode
  rw [modeIn_html hmodes] at hmode
  have hkind : (Name.html tag).isImpliedEnd = false ∧ (Name.html tag).isMarker = true := by
    rcases hlimit with rfl | rfl | rfl <;> decide
  rw [closeImplied, popWhile_innermost hstack hname hkind.1, popThroughNamed_innermost hstack hname]
  exact h.closed_marked hstack hkind.2 { Similar.refl b.pop with } rfl rfl hmode h.dropNewline

/-- The rule for end tags closes the innermost element if the tag is its own. -/
theorem closed_bodyEnd (hmodes : tag ∉ modeTags) (hbr : tag ≠ text "br") :
    Closed b (b.bodyEnd tag) := by
  have hname := h.name_eq hstack
  have htemplate : tag ≠ text "template" := by
    rintro rfl
    exact hmodes (by decide)
  have hbody : tag ≠ text "body" := by
    rintro rfl
    exact hmodes (by decide)
  rw [bodyEnd, if_neg htemplate, if_neg hbody]
  simp only [hasInScope_innermost hstack hname, if_true]
  -- The cases are those of the rule, in its order.
  by_cases hblock : blockEndTags.contains tag = true
  · rw [if_pos hblock]
    exact h.closed_block hstack (List.contains_iff_mem.1 hblock)
  rw [if_neg hblock]
  by_cases hform : tag = text "form"
  · rw [if_pos hform]
    exact h.closed_form hstack hform
  rw [if_neg hform]
  by_cases hp : tag = text "p"
  · rw [if_pos hp, closeParagraph_innermost hstack hname hp]
    subst hp
    exact h.closed_pop hstack (by decide) rfl (Similar.refl _) h.dropNewline
  rw [if_neg hp]
  by_cases hli : tag = text "li"
  · rw [if_pos hli]
    exact h.closed_item hstack (by simp [hli])
  rw [if_neg hli]
  by_cases hdd : tag = text "dd" ∨ tag = text "dt"
  · rw [if_pos hdd]
    exact h.closed_item hstack (by rcases hdd with rfl | rfl <;> simp)
  rw [if_neg hdd]
  by_cases hheading : (Name.html tag).isHeading = true
  · have hscope : inScope Name.isScope (fun p => p.name.isHeading) b.stack = true := by
      rw [hstack, inScope, if_pos (by rw [hname, hheading])]
    rw [if_pos hheading, if_pos hscope]
    exact h.closed_heading hstack hheading
  rw [if_neg hheading]
  by_cases hformatting :
      (formattingTags.contains tag || tag == text "a" || tag == text "nobr") = true
  · have hrole : ∀ tag ∈ formattingTags, tag ∉ roleTags := by decide
    have htag : tag ∉ roleTags := by
      simp only [Bool.or_eq_true, List.contains_iff_mem, beq_iff_eq] at hformatting
      rcases hformatting with (hmem | rfl) | rfl
      · exact hrole tag hmem
      · decide
      · decide
    rw [if_pos hformatting]
    exact h.closed_formatting hstack htag hformatting
  rw [if_neg hformatting]
  by_cases hlimit : tag = text "applet" ∨ tag = text "marquee" ∨ tag = text "object"
  · rw [if_pos hlimit]
    exact h.closed_limit hstack hmodes hlimit
  rw [if_neg hlimit, if_neg hbr, closeNamed_innermost hstack hname]
  have htag : tag ∉ roleTags := by
    simp only [roleTags, List.mem_append, List.mem_cons, List.not_mem_nil, or_false, not_or] at hlimit ⊢
    exact ⟨hmodes, hlimit.1, hform, hlimit.2⟩
  have hplain : (Name.html tag).isFormatting = false := Bool.eq_false_iff.2 hformatting
  exact h.closed_pop hstack htag hplain (Similar.refl _) h.dropNewline

end Settled

end Viewloom.Html.Builder
