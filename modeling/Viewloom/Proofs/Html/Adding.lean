import Viewloom.Proofs.Html.Fitting
import Viewloom.Proofs.Html.Reading

/-!
# Reading printed leaves

A printed text, comment, or element without nodes inside is read as what it has been, whatever follows it.
-/

namespace Viewloom.Html.Builder

open Markup (escapeText openTag closeTag printComment)

variable {b b' b'' c : Builder} {names : List Name} {tag s t value : Text} {o : Open} {os : List Open}
  {attributes : List Attribute} {pieces more : List Tree} {reading : Reading}

/-- Reading a text adds nodes to the innermost element. -/
structure Adds (b : Builder) (names : List Name) (s t : Text) (b' : Builder) (pieces : List Tree) :
    Prop where
  reads : Reads b s b' t
  ready : Ready b' names
  grown : Grown b.landed b'.landed pieces

/-- Pieces that are read one behind the other are added one behind the other. -/
theorem Adds.trans {u : Text} (h : Adds b names s t b' pieces) (h' : Adds b' names t u b'' more) :
    Adds b names s u b'' (pieces ++ more) where
  reads := h.reads.trans h'.reads
  ready := h'.ready
  grown := h.grown.trans h'.grown

theorem Adds.refl (h : Ready b names) (s : Text) : Adds b names s s b [] where
  reads := Reads.refl b s
  ready := h
  grown := Grown.refl h.settled

/-! ## Texts -/

/-- The parts of a text fit where the text fits. -/
theorem takesText_append {more : Text} (h : takesText names (value ++ more) = true) :
    takesText names value = true ∧ takesText names more = true := by
  have hblank : isBlankRun (value ++ more) = (isBlankRun value && isBlankRun more) := List.all_append
  rw [takesText] at h ⊢
  rw [takesText]
  cases hregion : regionOf names with
  | none => rw [hregion] at h; cases h
  | some region =>
      rw [hregion] at h
      cases region with
      | table => rwa [hblank, Bool.and_eq_true] at h
      | columns => rwa [hblank, Bool.and_eq_true] at h
      | flow | select | foreign => exact ⟨rfl, rfl⟩

/-- Two texts that are added one after the other are one text. -/
theorem Grown.join {v w : Text} (h : Grown b b' [.text v, .text w]) :
    Grown b b' [.text (v ++ w)] where
  stack := h.stack
  trees := by
    intro o os hstack
    rw [h.trees o os hstack, Tree.appendEach, Tree.appendEach]
    exact Tree.appendAll_text_text o.id v w b.trees
  settled := h.settled

/-- No text is escaped as nothing. -/
theorem length_escapeText_pos (h : value ≠ []) : 0 < (escapeText value).length := by
  obtain ⟨c, s, rfl⟩ := List.exists_cons_of_ne_nil h
  have hcons : escapeText (c :: s) = Markup.escapeTextChar c ++ escapeText s := rfl
  have hchar : 0 < (Markup.escapeTextChar c).length := by
    rw [Markup.escapeTextChar]
    repeat' split
    · decide
    · decide
    · decide
    · exact Nat.zero_lt_one
  rw [hcons, List.length_append]
  omega

theorem length_escapeText_bit {bit : Text} (h : bit ≠ []) (more t : Text) :
    (escapeText more ++ t).length < (escapeText (bit ++ more) ++ t).length := by
  have hpos := length_escapeText_pos h
  rw [escapeText_append]
  simp only [List.length_append]
  omega

/-- What is left of a printed text is added to what has been read of it. -/
theorem Ready.adds_more {bit more : Text} (h : Ready b names) (hstack : b.stack = o :: os)
    (htakes : takesText names (bit ++ more) = true)
    (hmore : more ≠ [] → ∀ b' : Builder, Ready b' names → b'.stack = o :: os →
      takesText names more = true → ∃ b'', Adds b' names (escapeText more ++ t) t b'' [.text more]) :
    ∃ b', Reads (b.feed (.chars bit)) (escapeText more ++ t) b' t ∧ Ready b' names ∧
      Grown b.landed b'.landed [.text (bit ++ more)] := by
  obtain ⟨hfirst, hsecond⟩ := takesText_append htakes
  obtain ⟨hready, hgrown⟩ := h.feed_chars hstack hfirst
  by_cases hempty : more = []
  · subst hempty
    rw [List.append_nil]
    exact ⟨_, Reads.refl _ _, hready, hgrown⟩
  · have hnext : (b.feed (.chars bit)).stack = o :: os := by
      rw [← hready.stack, hgrown.stack, h.stack, hstack]
    obtain ⟨b', hadds⟩ := hmore hempty _ hready hnext hsecond
    exact ⟨b', hadds.reads, hadds.ready, (hgrown.trans hadds.grown).join⟩

/-- A printed text that some tag or nothing follows. -/
theorem Ready.adds_text (h : Ready b names) (hstack : b.stack = o :: os) (hne : value ≠ [])
    (hnul : nul ∉ value) (htakes : takesText names value = true)
    (hrest : ∀ d, t.head? = some d → d = '<') :
    ∃ b', Adds b names (escapeText value ++ t) t b' [.text value] := by
  induction hn : value.length using Nat.strong_induction_on generalizing b value with
  | _ n ih =>
      obtain ⟨bit, more, rfl, hbit, htoken⟩ := dataToken_escapeText b.isInForeign hne hnul hrest
      rw [List.mem_append, not_or] at hnul
      have hshorter : more.length < n := by
        rw [← hn, List.length_append]
        have := List.length_pos_of_ne_nil hbit
        omega
      obtain ⟨b', hreads, hready, hgrown⟩ := h.adds_more hstack htakes
        fun hmore b' hready hnext htakes => ih _ hshorter hready hnext hmore hnul.2 htakes rfl
      have hstep := reads_data h.reading htoken (by simp) (length_escapeText_bit hbit more t)
      exact ⟨b', hstep.trans hreads, hready, hgrown⟩

/-! ## Tags without nodes inside -/

/-- A token that is used up at once adds nodes. -/
theorem Ready.adds_done {token : Token} (h : Ready b names)
    (htoken : dataToken b.isInForeign s = (some token, t, .data)) (heof : token ≠ .eof)
    (hlength : t.length < s.length) (hchars : ∀ value, token ≠ .chars value) (hnull : token ≠ .null)
    (houtcome : b.landed.outcome token = .done b') (hgrown : Grown b.landed b' pieces) :
    Adds b names s t b' pieces := by
  have hreads := reads_data h.reading htoken heof hlength
  have hsettled : Settled b' names := h.settled.stack ▸ hgrown.settled
  rw [h.feed_eq hchars hnull houtcome] at hreads
  refine ⟨hreads, hsettled.ready, ?_⟩
  rw [landed_of_ne hsettled.mode_ne]
  exact hgrown

theorem length_printComment_pos (value t : Text) : t.length < (printComment value ++ t).length := by
  have hopen : (text "<!--").length = 4 := by decide
  simp only [printComment, List.length_append, hopen]
  omega

theorem length_openTag_pos (tag : Text) (attributes : List Attribute) (t : Text) :
    t.length < (openTag tag attributes ++ t).length := by
  simp only [openTag, List.length_append, List.length_cons]
  omega

theorem length_closeTag_pos (tag t : Text) : t.length < (closeTag tag ++ t).length := by
  rw [List.length_append, length_closeTag]
  omega

/-- A printed comment is read as a comment. -/
theorem Ready.adds_comment (h : Ready b names) (hstack : b.stack = o :: os)
    (hregion : (regionOf names).isSome = true) (hcomment : IsComment value) (t : Text) :
    ∃ b', Adds b names (printComment value ++ t) t b' [.comment value] := by
  have hlanded : b.landed.stack = o :: os := h.stack.trans hstack
  exact ⟨_, h.adds_done (dataToken_printComment _ hcomment t) (by simp)
    (length_printComment_pos value t) (by simp) (by simp)
    (h.settled.outcome_comment hlanded hregion value)
    (h.settled.grown_insertComment hlanded value)⟩

/-- A printed tag without content is read as its element. -/
theorem Ready.adds_void (h : Ready b names) (hstack : b.stack = o :: os)
    (hcontent : contentIn names tag = some .void) (htag : IsTag tag)
    (hattributes : AreWritable attributes) (t : Text) :
    ∃ b', Adds b names (openTag tag attributes ++ t) t b'
      [.element b.landed.fresh (Name.html tag) (attributes.map lowered) []] := by
  have hlanded : b.landed.stack = o :: os := h.stack.trans hstack
  obtain ⟨hlower, -, b', houtcome, hgrown⟩ :=
    h.settled.start_void hlanded hcontent (attributes.map lowered)
  have htoken := dataToken_openTag b.isInForeign htag hattributes t
  rw [hlower] at htoken
  exact ⟨b', h.adds_done htoken (by simp) (length_openTag_pos tag attributes t) (by simp) (by simp)
    houtcome hgrown⟩

/-! ## Elements that hold only a text -/

/-- The text of an element and what follows it. -/
def splitBy (reading : Reading) (s : Text) : Text × Text :=
  match reading with
  | .escapable tag => splitEscapable tag s
  | .raw tag => splitRaw tag s
  | .script => splitScript .outside s
  | _ => ([], s)

/-- In a text that is read in its own way, tokens are looked for at its end. -/
theorem nextToken_eq (htext : IsTextTag tag reading) (foreign : Bool) (s : Text) :
    nextToken reading foreign s = untilEndTag reading (splitBy reading s) s := by
  rcases htext with _ | _ | rfl <;> rfl

/-- A text that is read in its own way ends at its closing tag. -/
theorem splitBy_closeTag (htext : IsTextTag tag reading) (t : Text) :
    splitBy reading (closeTag tag ++ t) = ([], closeTag tag ++ t) := by
  rcases htext with _ | _ | rfl
  · exact splitEscapable_closeTag tag t
  · exact splitRaw_closeTag tag t
  · have hempty : splitScript .outside ([] ++ closeTag (text "script")) =
        ([], closeTag (text "script")) := rfl
    exact splitScript_append hempty t

/-- The end tag of an element that holds only a text. -/
theorem nextToken_closeTag (htext : IsTextTag tag reading) (htag : IsTag tag) (foreign : Bool)
    (t : Text) :
    nextToken reading foreign (closeTag tag ++ t) =
      (some (.endTag (Text.lowerAscii tag)), t, .data) := by
  have htoken := endTagToken_printed htag t
  rw [nextToken_eq htext, splitBy_closeTag htext, untilEndTag, closeTag_eq]
  simp [htoken]

/-- The text of an element that holds only a text. -/
theorem nextToken_value (htext : IsTextTag tag reading) (hne : value ≠ []) (hnul : nul ∉ value)
    (hsplit : splitBy reading s = (value, t)) (foreign : Bool) :
    nextToken reading foreign s = (some (.chars value), t, reading) := by
  have hsome : s ≠ [] := by
    rintro rfl
    rcases htext with _ | _ | rfl
    · simp [splitBy, splitEscapable] at hsplit
      exact hne hsplit.1
    · simp [splitBy, splitRaw] at hsplit
      exact hne hsplit.1
    · simp [splitBy, splitScript] at hsplit
      exact hne hsplit.1
  rw [nextToken_eq htext, hsplit, untilEndTag, if_neg hsome, if_pos hne, replaceNul_eq_self hnul]

/-- The text of an element as it is kept: a text area drops a line break at the beginning. -/
def heldText (tag value : Text) : Text := if tag = text "textarea" then dropBreak value else value

/-- Where a line break may be dropped, one at the beginning of a text is. -/
theorem feed_chars_of_dropNewline (hdrop : b.dropNewline = true) (hne : value ≠ []) :
    b.feed (.chars value) =
      if dropBreak value = [] then { b with dropNewline := false }
      else process { b with dropNewline := false } (.chars (dropBreak value)) := by
  rw [feed, hdrop, if_pos rfl]
  by_cases hbreak : ∃ rest, value = '\n' :: rest
  · obtain ⟨rest, rfl⟩ := hbreak
    cases rest <;> rfl
  · have hkept := dropBreak_of_ne fun rest heq => hbreak ⟨rest, heq⟩
    have hall : dropFirstNewline (.chars value) = some (.chars value) := by
      rw [dropFirstNewline]
      · exact fun heq => hbreak ⟨[], Token.chars.inj heq⟩
      · exact fun rest heq => hbreak ⟨rest, Token.chars.inj heq⟩
    rw [hkept, hall, if_neg hne]

theorem place_of_fostering (hstack : b.stack = o :: os) (hfostering : b.fostering = false) :
    b.place = .inside o.id := by
  rw [place, current?, hstack, List.head?_cons]
  simp [placeFor, hfostering]

namespace TextOpened

variable (h : TextOpened b b' tag attributes reading)

include h

theorem isForeign_eq (trees : List Tree) (reading : Reading) (token : Token) :
    isForeign { b' with trees := trees, reading := reading, dropNewline := false } token = false :=
  isForeign_of_html h.stack rfl token

theorem feed_endTag (trees : List Tree) (drop : Bool) (name : Text) :
    feed { b' with trees := trees, reading := .data, dropNewline := drop } (.endTag name) =
      { b' with
        trees := trees
        stack := b.stack
        mode := b'.returnMode
        reading := .data
        dropNewline := false } := by
  have houtcome : outcome { b' with trees := trees, reading := .data, dropNewline := false }
      (.endTag name) = .done
        (withMode (pop { b' with trees := trees, reading := .data, dropNewline := false })
          b'.returnMode) := by
    rw [outcome_eq_byMode (h.isForeign_eq trees .data _), byMode, h.mode]
    rfl
  have hfeed : feed { b' with trees := trees, reading := .data, dropNewline := drop }
      (.endTag name) =
        process { b' with trees := trees, reading := .data, dropNewline := false } (.endTag name) := by
    cases drop <;> rfl
  rw [hfeed, process_of_done houtcome, withMode, pop]
  dsimp only
  rw [h.stack, List.tail_cons]

/-- A text is added to the element. -/
theorem process_value (value : Text) :
    process { b' with dropNewline := false } (.chars value) =
      { b' with
        trees := Tree.appendAll b.fresh (.text value) b'.trees
        dropNewline := false } := by
  have hstack : ({ b' with dropNewline := false } : Builder).stack = _ := h.stack
  have hfostering : ({ b' with dropNewline := false } : Builder).fostering = false :=
    h.closed.calm.fostering
  have hplace : place { b' with dropNewline := false } = .inside b.fresh :=
    place_of_fostering hstack hfostering
  have houtcome : outcome { b' with dropNewline := false } (.chars value) =
      .done (insertText { b' with dropNewline := false } value) := by
    rw [outcome_eq_byMode (isForeign_of_html hstack rfl _), byMode, h.mode]
    rfl
  rw [process_of_done houtcome, insertText, hplace]
  rfl

/-- A text is read within the element, which may drop its first line break. -/
theorem feed_chars (hne : value ≠ []) :
    b'.feed (.chars value) =
      { b' with
        trees :=
          if heldText tag value = [] then b'.trees
          else Tree.appendAll b.fresh (.text (heldText tag value)) b'.trees
        dropNewline := false } := by
  by_cases htag : tag = text "textarea"
  · have hdrop : b'.dropNewline = true := by rw [h.dropNewline, htag, beq_self_eq_true]
    rw [feed_chars_of_dropNewline hdrop hne, heldText, if_pos htag]
    split
    · rfl
    · exact h.process_value (dropBreak value)
  · have hdrop : b'.dropNewline = false := by rw [h.dropNewline, beq_false_of_ne htag]
    have hsame : ({ b' with dropNewline := false } : Builder) = b' := by rw [← hdrop]
    have hvalue := h.process_value value
    rw [hsame] at hvalue
    rw [feed_of_dropNewline hdrop, heldText, if_neg htag, if_neg hne]
    exact hvalue

/-- The end tag leaves the element. -/
theorem reads_closeTag (htext : IsTextTag tag reading) (htag : IsTag tag) {trees : List Tree}
    {drop : Bool} (hc : c = { b' with trees := trees, dropNewline := drop }) (t : Text) :
    Reads c (closeTag tag ++ t)
      { b' with
        trees := trees
        stack := b.stack
        mode := b'.returnMode
        reading := .data
        dropNewline := false } t := by
  have hreading : c.reading = reading := by rw [hc, ← h.reading]
  have htoken := nextToken_closeTag htext htag c.isInForeign t
  rw [← hreading] at htoken
  have hstep := reads_token htoken (by simp) (length_closeTag_pos tag t)
  rw [hc] at hstep ⊢
  rwa [h.feed_endTag trees drop] at hstep

/-- The text of the element is read up to its end tag, which leaves the element. -/
theorem reads_leaveText (htext : IsTextTag tag reading) (htag : IsTag tag) (hnul : nul ∉ value)
    (hempty : value = [] → s = []) (hsplit : splitBy reading (s ++ (closeTag tag ++ t)) =
      (value, closeTag tag ++ t)) :
    Reads b' (s ++ (closeTag tag ++ t)) (leaveText b b' (heldText tag value)) t := by
  by_cases hne : value = []
  · have hheld : heldText tag [] = [] := by
      rw [heldText]
      split <;> rfl
    rw [hempty hne, hne, hheld, List.nil_append]
    exact h.reads_closeTag htext htag rfl t
  · have htoken := nextToken_value htext hne hnul hsplit b'.isInForeign
    rw [← h.reading] at htoken
    have hlength : (closeTag tag ++ t).length < (s ++ (closeTag tag ++ t)).length := by
      have hpos : 0 < s.length := by
        rw [List.length_pos_iff]
        rintro rfl
        rw [List.nil_append, splitBy_closeTag htext] at hsplit
        exact hne (Prod.mk.inj hsplit).1.symm
      simp only [List.length_append]
      omega
    have hstep : Reads b' _ (b'.feed (.chars value)) _ := reads_token htoken (by simp) hlength
    refine hstep.trans ?_
    rw [h.feed_chars hne]
    exact h.reads_closeTag htext htag rfl t

end TextOpened

/-- A printed element that holds only a text. -/
theorem Ready.adds_textElement (h : Ready b names) (hstack : b.stack = o :: os)
    (hcontent : contentIn names tag = some (.text reading)) (htag : IsTag tag)
    (hattributes : AreWritable attributes) (hnul : nul ∉ value) (hempty : value = [] → s = [])
    (hsplit : splitBy reading (s ++ (closeTag tag ++ t)) = (value, closeTag tag ++ t)) :
    ∃ b', Adds b names (openTag tag attributes ++ (s ++ (closeTag tag ++ t))) t b'
      [.element b.landed.fresh (Name.html tag) (attributes.map lowered)
        (textTrees (heldText tag value))] := by
  have hlanded : b.landed.stack = o :: os := h.stack.trans hstack
  obtain ⟨hlower, -, b', houtcome, hopened⟩ :=
    h.settled.start_text hlanded hcontent (attributes.map lowered)
  have htext := isTextTag_of_contentIn hcontent
  have htoken := dataToken_openTag b.isInForeign htag hattributes (s ++ (closeTag tag ++ t))
  rw [hlower] at htoken
  have hstart := reads_data h.reading htoken (by simp) (length_openTag_pos tag attributes _)
  rw [h.feed_eq (by simp) (by simp) houtcome] at hstart
  have hgrown := hopened.grown_leaveText h.settled hlanded (heldText tag value)
  have hsettled : Settled (leaveText b.landed b' (heldText tag value)) names :=
    h.settled.stack ▸ hgrown.settled
  refine ⟨_, hstart.trans (hopened.reads_leaveText htext htag hnul hempty hsplit),
    hsettled.ready, ?_⟩
  rw [landed_of_ne hsettled.mode_ne]
  exact hgrown

end Viewloom.Html.Builder
