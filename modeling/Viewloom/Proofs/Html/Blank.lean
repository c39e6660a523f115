import Viewloom.Html.Document
import Viewloom.Proofs.Html.Trees
import Viewloom.Unicode.Blank

/-!
# Sources without markup

A blank source holds no tags, so the document that is read from it has only the elements that every
document must have, and they have no attributes.
-/

namespace Viewloom.Html

namespace Builder

/-- The modes in which a document without tags is read. -/
def plainModes : List Mode := [.initial, .beforeHtml, .beforeHead, .inHead, .afterHead, .inBody]

/-- The state of a document in which no tag has been read. -/
structure Plain (b : Builder) : Prop where
  trees : Tree.EachOf (· = []) b.trees
  stack : ∀ o ∈ b.stack, o.name.space = .html
  formatting : b.formatting = []
  mode : b.mode ∈ plainModes
  templateModes : b.templateModes = []
  fostering : b.fostering = false
  dropNewline : b.dropNewline = false
  reading : b.reading = .data

theorem plain_empty : Plain empty where
  trees := trivial
  stack := by simp [empty]
  formatting := rfl
  mode := by decide
  templateModes := rfl
  fostering := rfl
  dropNewline := rfl
  reading := rfl

namespace Plain

variable {b : Builder}

theorem place_eq (h : Plain b) : b.place = .root ∨ ∃ id, b.place = .inside id := by
  unfold place
  split
  · next o _ => exact .inr ⟨o.id, by simp [placeFor, h.fostering]⟩
  · exact .inl rfl

/-- Adding a piece without attributes keeps a document plain. -/
theorem insert (h : Plain b) {piece : Tree} (hpiece : piece.Each (· = [])) :
    Plain (b.insertAt b.place piece) := by
  rcases h.place_eq with hplace | ⟨id, hplace⟩
  · rw [hplace]
    exact { h with trees := Tree.eachOf_addLast hpiece h.trees }
  · rw [hplace]
    exact { h with trees := Tree.eachOf_appendAll id hpiece h.trees }

theorem insertText (h : Plain b) (value : Text) : Plain (b.insertText value) := h.insert trivial

theorem withMode (h : Plain b) (mode : Mode) (hmode : mode ∈ plainModes) :
    Plain (b.withMode mode) :=
  { h with mode := hmode }

/-- Opening an element without attributes keeps a document plain. -/
theorem openHtml (h : Plain b) (name : Text) : Plain (b.openHtml name []) := by
  let piece : Tree := .element b.fresh (Name.html name) [] []
  have hinsert : Plain (b.insertAt b.place piece) := h.insert ⟨rfl, trivial⟩
  exact { hinsert with
    stack := by
      intro o ho
      rcases List.mem_cons.1 ho with rfl | ho
      · rfl
      · exact hinsert.stack o ho }

theorem pop (h : Plain b) : Plain b.pop :=
  { h with stack := fun o ho => h.stack o (List.mem_of_mem_tail ho) }

theorem openHead (h : Plain b) : Plain (b.openHead []) :=
  { (h.openHtml (text "head")).withMode Mode.inHead (by decide) with }

theorem bodyChars (h : Plain b) (value : Text) : Plain (b.bodyChars value) := by
  have hreconstruct : b.reconstruct = b := by simp [reconstruct, h.formatting, closedFormatting]
  unfold Builder.bodyChars
  rw [hreconstruct]
  dsimp only
  split
  · exact h.insertText value
  · exact { h.insertText value with }

theorem isForeign (h : Plain b) (token : Token) : b.isForeign token = false := by
  unfold Builder.isForeign
  split
  · rfl
  · next o ho => rw [if_pos (h.stack o (List.mem_of_mem_head? ho))]

end Plain

/-- The tokens of a text without markup. -/
def isPlainToken : Token → Bool
  | .chars _ => true
  | .eof => true
  | _ => false

/-- A token of a text is used up, or goes on to a later mode. -/
inductive Goes (token : Token) : Outcome → Prop where
  | done {b : Builder} : Plain b → Goes token (.done b)
  | again {b : Builder} : Plain b → Goes token (.again b token)

/-- A mode that keeps blanks and leaves everything else to a later mode. -/
theorem goes_early {rules : Token → Outcome} {token : Token} (htoken : isPlainToken token = true)
    (kept : Text → Builder) (next : Builder) (hkept : ∀ value, Plain (kept value))
    (hnext : Plain next)
    (hchars : ∀ value, rules (.chars value) =
      if isBlankRun value then .done (kept value) else .again next (.chars value))
    (heof : rules .eof = .again next .eof) : Goes token (rules token) := by
  cases token with
  | chars value =>
      rw [hchars]
      split
      · exact .done (hkept value)
      · exact .again hnext
  | eof =>
      rw [heof]
      exact .again hnext
  | _ => simp [isPlainToken] at htoken

theorem goes_inBody {b : Builder} {token : Token} (h : Plain b)
    (htoken : isPlainToken token = true) : Goes token (b.inBody token) := by
  cases token with
  | chars value => exact .done (h.bodyChars value)
  | eof =>
      simp only [inBody, h.templateModes, List.isEmpty_nil, if_true]
      exact .done h
  | _ => simp [isPlainToken] at htoken

/-- In every mode of a plain document, a plain token leads to a plain document. -/
theorem goes_byMode {b : Builder} {token : Token} (h : Plain b)
    (htoken : isPlainToken token = true) : Goes token (b.byMode token) := by
  have hmode := h.mode
  simp only [plainModes, List.mem_cons, List.not_mem_nil, or_false] at hmode
  unfold byMode
  rcases hmode with hmode | hmode | hmode | hmode | hmode | hmode <;> rw [hmode] <;> dsimp only
  · exact goes_early htoken (fun _ => b) { b with quirks := true, mode := .beforeHtml } (fun _ => h)
      { h with mode := show .beforeHtml ∈ plainModes by decide } (fun _ => rfl) rfl
  · exact goes_early htoken (fun _ => b) _ (fun _ => h)
      ((h.openHtml (text "html")).withMode .beforeHead (by decide)) (fun _ => rfl) rfl
  · exact goes_early htoken (fun _ => b) _ (fun _ => h) h.openHead (fun _ => rfl) rfl
  · exact goes_early htoken b.insertText _ h.insertText
      (h.pop.withMode .afterHead (by decide)) (fun _ => rfl) rfl
  · exact goes_early htoken b.insertText _ h.insertText
      ((h.openHtml (text "body")).withMode .inBody (by decide)) (fun _ => rfl) rfl
  · exact goes_inBody h htoken

theorem plain_processWithin {b : Builder} {token : Token} (rounds : Nat) (h : Plain b)
    (htoken : isPlainToken token = true) : Plain (processWithin rounds b token) := by
  induction rounds generalizing b with
  | zero => exact h
  | succ rounds ih =>
      have hgoes := goes_byMode h htoken
      unfold processWithin outcome
      rw [h.isForeign]
      simp only [Bool.false_eq_true, if_false]
      generalize b.byMode token = outcome at hgoes
      cases hgoes with
      | done h => exact h
      | again h => exact ih h

/-- A plain token keeps a document plain. -/
theorem plain_feed {b : Builder} {token : Token} (h : Plain b) (htoken : isPlainToken token = true) :
    Plain (b.feed token) := by
  unfold feed
  rw [h.dropNewline]
  exact plain_processWithin _ h htoken

/-- Blanks of a source, which begin no markup. -/
theorem endsText_eq_false {c : Char} (h : Unicode.isBlank c = true) : endsText c = false := by
  simp only [endsText, Bool.or_eq_false_iff, beq_eq_false_iff_ne]
  refine ⟨⟨?_, ?_⟩, ?_⟩ <;>
    · rintro rfl
      exact absurd h (by decide)

/-- A blank text is read as texts. -/
theorem plain_readWithin {b : Builder} {s : Text} (rounds : Nat) (h : Plain b)
    (hs : Text.isAllBlank s = true) : Plain (b.readWithin rounds s) := by
  induction rounds generalizing b s with
  | zero => exact h
  | succ rounds ih =>
      unfold readWithin
      rw [h.reading]
      cases s with
      | nil => exact plain_feed h rfl
      | cons c s =>
          simp only [Text.isAllBlank, List.all_cons, Bool.and_eq_true] at hs
          have hends := endsText_eq_false hs.1
          simp only [endsText, Bool.or_eq_false_iff, beq_eq_false_iff_ne] at hends
          obtain ⟨⟨hopen, hreference⟩, hnul⟩ := hends
          have htoken : dataToken b.isInForeign (c :: s) =
              (some (.chars (splitRun endsText c s).1), (splitRun endsText c s).2, .data) := by
            rw [dataToken.eq_7]
            · simp [hopen, hreference, hnul]
            all_goals simp_all
          simp only [nextToken, htoken]
          refine ih (plain_feed { h with reading := rfl } rfl) (List.all_eq_true.2 fun d hd => ?_)
          exact List.all_eq_true.1 hs.2 d (List.mem_of_mem_drop hd)

end Builder

/-- Writing line ends in one way keeps a text blank. -/
theorem isAllBlank_normalizeLines {s : Text} (h : Text.isAllBlank s = true) :
    Text.isAllBlank (normalizeLines s) = true := by
  fun_induction normalizeLines s <;> simp_all [Text.isAllBlank, show Unicode.isBlank '\n' = true by decide]

/-- The body that is read from a blank source holds no element with attributes. -/
theorem bare_parseDocument {source : Text} (h : Text.isAllBlank source = true) :
    Tree.EachOf (· = []) (parseDocument source) := by
  have hdrop : Text.isAllBlank (dropMark source) = true := by
    fun_cases dropMark source with
    | case1 => rfl
    | case2 c s => exact (Bool.and_eq_true_iff.1 h).2
    | case3 c s => exact h
  exact (Builder.plain_readWithin _ Builder.plain_empty (isAllBlank_normalizeLines hdrop)).trees

end Viewloom.Html
