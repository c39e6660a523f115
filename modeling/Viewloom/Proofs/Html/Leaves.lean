import Viewloom.Proofs.Html.Opening

/-!
# Adding leaves

Texts, comments, elements without content and elements that hold only a text are added to the innermost
element, and the open elements stay as they are.
-/

namespace Viewloom.Html.Builder

variable {b b' : Builder} {names : List Name} {tag : Text} {o : Open} {os : List Open}
  {attributes : List Attribute}

namespace Settled

variable (h : Settled b names) (hstack : b.stack = o :: os)

include h hstack

/-! ## Texts and comments -/

/-- A piece without elements grows the innermost element. -/
theorem grown_insert {piece : Tree} (hpiece : Tree.ids piece = [])
    (hsimilar : Similar { b with trees := Tree.appendAll o.id piece b.trees } b')
    (hdrop : b'.dropNewline = b.dropNewline) : Grown b b' [piece] := by
  have hinserted := h.insert o.id hpiece
  rw [← h.stack] at hinserted
  refine hinserted.grown rfl ?_ hsimilar (hdrop.trans h.dropNewline)
  intro o' os' hcurrent
  obtain ⟨rfl, rfl⟩ := List.cons.inj (hstack.symm.trans hcurrent)
  rfl

/-- A text grows the innermost element by itself. -/
theorem grown_insertText (value : Text) : Grown b (b.insertText value) [.text value] := by
  rw [h.insertText_eq hstack]
  exact h.grown_insert hstack rfl (Similar.refl _) rfl

/-- A comment grows the innermost element by itself. -/
theorem grown_insertComment (value : Text) : Grown b (b.insertComment value) [.comment value] := by
  rw [h.insertComment_eq hstack]
  exact h.grown_insert hstack rfl (Similar.refl _) rfl

theorem grown_insertText_noFrameset (value : Text) :
    Grown b (b.insertText value).noFrameset [.text value] := by
  rw [h.insertText_eq hstack]
  exact h.grown_insert hstack rfl (Similar.noFrameset _) rfl

/-- Characters of the body grow the innermost element by their text. -/
theorem grown_bodyChars (value : Text) : Grown b (b.bodyChars value) [.text value] := by
  rw [bodyChars, h.reconstruct_eq]
  split
  · exact h.grown_insertText hstack value
  · exact h.grown_insertText_noFrameset hstack value

/-! ## Elements without content -/

/-- An element without content grows the innermost element by itself. -/
theorem grown_void (hsimilar : Similar (b.insertVoid tag attributes) b')
    (hdrop : b'.dropNewline = (b.insertVoid tag attributes).dropNewline) :
    Grown b b' [.element b.fresh (Name.html tag) attributes []] := by
  have hinserted := h.insertVoid o.id (Name.html tag) attributes
  rw [← h.stack] at hinserted
  rw [Builder.insertVoid, openHtml, h.openElement_eq hstack] at hsimilar hdrop
  refine hinserted.grown rfl ?_ hsimilar (hdrop.trans h.dropNewline)
  intro o' os' hcurrent
  obtain ⟨rfl, rfl⟩ := List.cons.inj (hstack.symm.trans hcurrent)
  rfl

/-- A tag without content in the body grows the innermost element by its element. -/
theorem grown_voidTag (htag : tag ∈ voidTags) (hadmitted : isAdmitted names tag = true) :
    Grown b (b.bodyStart tag attributes false)
      [.element b.fresh (Name.html tag) attributes []] := by
  have hinline : ∀ tag ∈ [text "area", text "br", text "embed", text "img", text "wbr"],
      b.bodyStart tag attributes false =
        (b.reconstruct.insertVoid tag attributes).noFrameset := by
    intro tag hmem
    simp only [List.mem_cons, List.not_mem_nil, or_false] at hmem
    rcases hmem with rfl | rfl | rfl | rfl | rfl <;> rfl
  have hplain : ∀ tag ∈ [text "base", text "link", text "meta", text "param", text "source",
      text "track"], b.bodyStart tag attributes false = b.insertVoid tag attributes := by
    intro tag hmem
    simp only [List.mem_cons, List.not_mem_nil, or_false] at hmem
    rcases hmem with rfl | rfl | rfl | rfl | rfl | rfl <;> rfl
  have hcases : tag ∈ [text "area", text "br", text "embed", text "img", text "wbr"] ∨
      tag ∈ [text "base", text "link", text "meta", text "param", text "source", text "track"] ∨
      tag = text "hr" ∨ tag = text "input" := by
    have hall : ∀ tag ∈ voidTags,
        tag ∈ [text "area", text "br", text "embed", text "img", text "wbr"] ∨
        tag ∈ [text "base", text "link", text "meta", text "param", text "source",
          text "track"] ∨ tag = text "hr" ∨ tag = text "input" := by decide
    exact hall tag htag
  rcases hcases with hmem | hmem | rfl | rfl
  · rw [hinline tag hmem, h.reconstruct_eq]
    exact h.grown_void hstack (Similar.noFrameset _) rfl
  · rw [hplain tag hmem]
    exact h.grown_void hstack (Similar.refl _) rfl
  · have hrule : b.bodyStart (text "hr") attributes false =
        (b.endParagraph.insertVoid (text "hr") attributes).noFrameset := rfl
    have hp : hasOpen Name.isButtonScope (text "p") names = false := by
      simp only [isAdmitted, Bool.and_eq_true, Bool.not_eq_true', Bool.and_eq_false_imp,
        List.contains_iff_mem] at hadmitted
      exact hadmitted.1.1.1.1.1.1.1.1.1 (by decide)
    rw [hrule, endParagraph_eq h.stack hp]
    exact h.grown_void hstack (Similar.noFrameset _) rfl
  · have hrule : b.bodyStart (text "input") attributes false =
        if isHiddenInput attributes then b.reconstruct.insertVoid (text "input") attributes
        else (b.reconstruct.insertVoid (text "input") attributes).noFrameset := rfl
    rw [hrule, h.reconstruct_eq]
    split
    · exact h.grown_void hstack (Similar.refl _) rfl
    · exact h.grown_void hstack (Similar.noFrameset _) rfl

end Settled

/-! ## Elements that hold only a text -/

/-- The nodes of a text, which are none if it is empty. -/
def textTrees (value : Text) : List Tree := if value = [] then [] else [.text value]

/-- An element has been opened that holds only a text, which is read in a way of its own. -/
structure TextOpened (b b' : Builder) (tag : Text) (attributes : List Attribute)
    (reading : Reading) : Prop where
  stack : b'.stack = ⟨b.fresh, Name.html tag, attributes⟩ :: b.stack
  trees : ∀ o os, b.stack = o :: os →
    b'.trees = Tree.appendAll o.id (.element b.fresh (Name.html tag) attributes []) b.trees
  mode : b'.mode = .inText
  reading : b'.reading = reading
  dropNewline : b'.dropNewline = (tag == text "textarea")
  closed : Settled
    { b' with
      stack := b.stack
      mode := b'.returnMode
      reading := .data
      dropNewline := false } (b.stack.map Open.name)

variable {reading : Reading}

/-- The state in which the element is left when its text has been read. -/
def leaveText (b b' : Builder) (value : Text) : Builder :=
  { b' with
    trees := if value = [] then b'.trees else Tree.appendAll b.fresh (.text value) b'.trees
    stack := b.stack
    mode := b'.returnMode
    reading := .data
    dropNewline := false }

/-- An element whose text has been read grows the element around it by itself and its text. -/
theorem TextOpened.grown_leaveText (hopened : TextOpened b b' tag attributes reading)
    (h : Settled b names) (hstack : b.stack = o :: os) (value : Text) :
    Grown b (leaveText b b' value)
      [.element b.fresh (Name.html tag) attributes (textTrees value)] := by
  have hparent : o.id < b.fresh := h.numbered.stack o (by rw [hstack]; exact List.mem_cons_self ..)
  have hfresh : b.fresh ∉ Tree.idsAll b.trees := fun hmem =>
    absurd (h.numbered.trees _ hmem) (Nat.lt_irrefl _)
  by_cases hvalue : value = []
  · have hleft : leaveText b b' value =
        { b' with stack := b.stack, mode := b'.returnMode, reading := .data, dropNewline := false } := by
      rw [leaveText, if_pos hvalue]
    rw [hleft, textTrees, if_pos hvalue]
    exact { stack := rfl, trees := hopened.trees, settled := hopened.closed }
  · have hinserted := hopened.closed.insert b.fresh (show Tree.ids (.text value) = [] from rfl)
    have hleft : leaveText b b' value =
        { b' with
          trees := Tree.appendAll b.fresh (.text value) b'.trees
          stack := b.stack
          mode := b'.returnMode
          reading := .data
          dropNewline := false } := by
      rw [leaveText, if_neg hvalue]
    rw [hleft, textTrees, if_neg hvalue]
    refine { stack := rfl, trees := ?_, settled := hinserted }
    intro o' os' hcurrent
    obtain ⟨rfl, rfl⟩ := List.cons.inj (hstack.symm.trans hcurrent)
    dsimp only
    rw [hopened.trees _ _ hcurrent, Tree.appendAll_inner _ (Nat.ne_of_gt hparent) hfresh]
    rfl

namespace Settled

variable (h : Settled b names) (hstack : b.stack = o :: os)

include h hstack

/-- A start tag with a text of its own lets the text be read in its own way. -/
theorem textOpened (k : Bool) {drop : Bool} (hdrop : drop = (tag == text "textarea"))
    (attributes : List Attribute) (reading : Reading) :
    TextOpened b
      { b.openText tag attributes reading with framesetOk := k, dropNewline := drop } tag
      attributes reading := by
  have hinserted := h.insertVoid o.id (Name.html tag) attributes
  rw [← h.stack] at hinserted
  rw [openText, openHtml, h.openElement_eq hstack]
  exact {
    stack := rfl
    trees := by
      intro o' os' hcurrent
      obtain ⟨rfl, rfl⟩ := List.cons.inj (hstack.symm.trans hcurrent)
      rfl
    mode := rfl
    reading := rfl
    dropNewline := hdrop
    closed := { hinserted with
      numbered := { hinserted.numbered with }
      calm := { hinserted.calm with reading := rfl }
      dropNewline := rfl } }

theorem textOpened_openText (htag : tag ≠ text "textarea") (attributes : List Attribute)
    (reading : Reading) :
    TextOpened b (b.openText tag attributes reading) tag attributes reading := by
  have hopened := h.textOpened hstack b.framesetOk (beq_false_of_ne htag).symm attributes reading
  have hsame : { b.openText tag attributes reading with
      framesetOk := b.framesetOk, dropNewline := false } = b.openText tag attributes reading := by
    rw [openText, openHtml, h.openElement_eq hstack, ← h.dropNewline]
  rwa [hsame] at hopened

theorem openText_noFrameset (tag : Text) (attributes : List Attribute) (reading : Reading) :
    b.noFrameset.openText tag attributes reading =
      (b.openText tag attributes reading).noFrameset := by
  have hcalm : Settled b.noFrameset names := h.of_similar (Similar.noFrameset b) h.dropNewline
  rw [openText, openText, openHtml, openHtml, h.openElement_eq hstack, hcalm.openElement_eq hstack]
  rfl

theorem textOpened_noFrameset (htag : tag ≠ text "textarea") (attributes : List Attribute)
    (reading : Reading) :
    TextOpened b (b.noFrameset.openText tag attributes reading) tag attributes reading := by
  have hopened := h.textOpened hstack false (beq_false_of_ne htag).symm attributes reading
  have hsame : { b.openText tag attributes reading with framesetOk := false, dropNewline := false } =
      (b.openText tag attributes reading).noFrameset := by
    rw [openText, openHtml, h.openElement_eq hstack]
    dsimp only [noFrameset]
    rw [h.dropNewline]
  rwa [hsame, ← h.openText_noFrameset hstack] at hopened

end Settled

namespace Settled

variable (h : Settled b names) (hstack : b.stack = o :: os)

include h hstack

/-- A tag of flow content whose element holds only a text. -/
theorem textOpened_flow (hcontent : flowContent names tag = some (.text reading)) :
    TextOpened b (b.bodyStart tag attributes false) tag attributes reading := by
  rw [flowContent] at hcontent
  split at hcontent
  swap
  · cases hcontent
  next hadmitted =>
  cases isTextTag_of_tagContent hcontent with
  | escapable htag =>
      rcases htag with rfl | rfl
      · exact h.textOpened_openText hstack (by decide) attributes _
      · have hrule : b.bodyStart (text "textarea") attributes false =
            { b.noFrameset.openText (text "textarea") attributes (.escapable (text "textarea")) with
              dropNewline := true } := rfl
        have hdrop : true = (text "textarea" == text "textarea") := rfl
        have hopened := h.textOpened hstack false hdrop attributes (.escapable (text "textarea"))
        rw [hrule, h.openText_noFrameset hstack]
        exact hopened
  | raw hmem =>
      simp only [rawTags, List.mem_cons, List.not_mem_nil, or_false] at hmem
      rcases hmem with rfl | rfl | rfl | rfl | rfl | rfl
      · exact h.textOpened_noFrameset hstack (by decide) attributes _
      · exact h.textOpened_openText hstack (by decide) attributes _
      · exact h.textOpened_openText hstack (by decide) attributes _
      · exact h.textOpened_openText hstack (by decide) attributes _
      · exact h.textOpened_openText hstack (by decide) attributes _
      · have hrule : b.bodyStart (text "xmp") attributes false =
            b.endParagraph.reconstruct.noFrameset.openText (text "xmp") attributes
              (.raw (text "xmp")) := rfl
        have hp : hasOpen Name.isButtonScope (text "p") names = false := by
          simp only [isAdmitted, Bool.and_eq_true, Bool.not_eq_true', Bool.and_eq_false_imp,
            List.contains_iff_mem] at hadmitted
          exact hadmitted.1.1.1.1.1.1.1.1.1 (by decide)
        rw [hrule, endParagraph_eq h.stack hp, h.reconstruct_eq]
        exact h.textOpened_noFrameset hstack (by decide) attributes _
  | script htag =>
      subst htag
      exact h.textOpened_openText hstack (by decide) attributes _

end Settled

end Viewloom.Html.Builder
