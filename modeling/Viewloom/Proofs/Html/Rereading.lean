import Viewloom.Proofs.Html.Adding

/-!
# Reading printed nodes

Nodes that fit are read from their printed form as what they stand for, in any state that is ready for
them and in front of any tag.
-/

namespace Viewloom.Html

open Markup (Node escapeText openTag closeTag printComment textNodes escapedTags breakTags)

variable {names : List Name} {tag value s t : Text} {attributes : List Attribute} {reading : Reading}
  {n : Node} {ns : List Node} {pieces more : List Tree}

/-! ## Texts -/

theorem compactAll_textNodes (raw : Bool) (value : Text) :
    Node.compactAll raw (textNodes value) = if raw then value else escapeText value := by
  rw [textNodes]
  by_cases hvalue : value = []
  · subst hvalue
    cases raw <;> rfl
  · rw [if_neg hvalue, Node.compactAll, Node.compactAll, Node.compact, List.append_nil]

theorem escapeText_eq_nil : escapeText value = [] ↔ value = [] := by
  constructor
  · intro h
    by_contra hne
    have hpos := Builder.length_escapeText_pos hne
    rw [h] at hpos
    exact absurd hpos (Nat.lt_irrefl 0)
  · rintro rfl
    rfl

/-- Escaping brings no zero character. -/
theorem nul_not_mem_escapeText (h : nul ∉ value) : nul ∉ escapeText value := by
  rw [escapeText, List.mem_flatMap]
  rintro ⟨c, hmem, hc⟩
  cases hplain : isPlain c with
  | true =>
      rw [escapeTextChar_of_isPlain hplain, List.mem_singleton] at hc
      subst hc
      exact h hmem
  | false =>
      simp only [isPlain, Bool.not_eq_false', Bool.or_eq_true, beq_iff_eq] at hplain
      rcases hplain with (rfl | rfl) | rfl
      all_goals exact absurd hc (by decide)

theorem nul_not_mem_readText (tag : Text) (h : nul ∉ value) : nul ∉ readText tag value := by
  rw [readText]
  split
  · exact nul_not_mem_escapeText h
  · exact h

/-- The printed text of an element is read up to its end tag. -/
theorem splitBy_printedText (htext : IsTextTag tag reading) (hheld : IsHeld reading tag value)
    (t : Text) :
    Builder.splitBy reading (printedText tag value ++ (closeTag tag ++ t)) =
      (readText tag value, closeTag tag ++ t) := by
  cases htext with
  | escapable htag =>
      have hprinted : printedText tag value = escapeText value := by rcases htag with rfl | rfl <;> rfl
      have hread : readText tag value = value := by rcases htag with rfl | rfl <;> rfl
      rw [hprinted, hread]
      exact splitEscapable_printed hheld.noNul tag t
  | raw hmem =>
      have htags : ∀ tag ∈ rawTags,
          Markup.isRawText tag = true ∧ escapedTags.contains tag = false ∨
            Markup.isRawText tag = false ∧ escapedTags.contains tag = true := by decide
      rw [printedText, readText]
      rcases htags tag hmem with ⟨hraw, hescaped⟩ | ⟨hraw, hescaped⟩
      · rw [hraw, hescaped, if_pos rfl, if_neg Bool.false_ne_true]
        exact splitRaw_printed (hheld.raw rfl hraw) t
      · rw [hraw, hescaped, if_neg Bool.false_ne_true, if_pos rfl]
        exact splitRaw_printed (isRaw_escapeText tag value) t
  | script htag =>
      subst htag
      exact splitScript_append (hheld.script rfl) t

/-- Only the empty text is read as nothing. -/
theorem readText_eq_nil (h : readText tag value = []) : value = [] := by
  rw [readText] at h
  split at h
  · exact escapeText_eq_nil.1 h
  · exact h

theorem printedText_nil (tag : Text) : printedText tag [] = [] := by
  rw [printedText]
  split <;> rfl

theorem map_escapeNode_textNodes (value : Text) :
    (textNodes value).map escapeNode = textNodes (escapeText value) := by
  rw [textNodes, textNodes]
  by_cases hvalue : value = []
  · subst hvalue
    rfl
  · rw [if_neg hvalue, if_neg (fun h => hvalue (escapeText_eq_nil.1 h))]
    rfl

theorem rereadAll_textNodes (value : Text) : rereadAll (textNodes value) = textNodes value := by
  rw [textNodes]
  split <;> rfl

theorem dropBreakAll_textNodes (value : Text) :
    dropBreakAll (textNodes value) = textNodes (dropBreak value) := by
  rw [textNodes]
  by_cases hvalue : value = []
  · subst hvalue
    rfl
  · rw [if_neg hvalue, dropBreakAll, List.append_nil]

/-- An element that holds only a text keeps what is read of it. -/
theorem reread_textElement (htext : IsTextTag tag reading) (attributes : List Attribute)
    (value : Text) :
    reread (.element tag attributes (textNodes value)) =
      .element tag attributes (textNodes (Builder.heldText tag (readText tag value))) := by
  rw [reread, rereadAll_textNodes, readContent, map_escapeNode_textNodes, dropBreakAll_textNodes,
    readText, Builder.heldText]
  have htags : ∀ tag ∈ rawTags ++ [text "title", text "textarea", text "script"],
      (escapedTags.contains tag = true → tag ≠ text "textarea") ∧
        (breakTags.contains tag = true ↔ tag = text "textarea") := by decide
  have hmem : tag ∈ rawTags ++ [text "title", text "textarea", text "script"] := by
    cases htext with
    | escapable htag => rcases htag with rfl | rfl <;> decide
    | raw hmem => exact List.mem_append_left _ hmem
    | script htag =>
        subst htag
        decide
  obtain ⟨hescaped, hbreak⟩ := htags tag hmem
  cases hcontains : escapedTags.contains tag with
  | true => rw [if_pos rfl, if_pos rfl, if_neg (hescaped hcontains)]
  | false =>
      rw [if_neg Bool.false_ne_true, if_neg Bool.false_ne_true]
      by_cases harea : tag = text "textarea"
      · rw [if_pos harea, if_pos (hbreak.2 harea)]
      · rw [if_neg harea, if_neg (fun h => harea (hbreak.1 h))]

/-! ## Nodes and pieces -/

/-- The tree of a text is the text. -/
theorem toMarkup_textTrees (value : Text) :
    Tree.toMarkupAll (Builder.textTrees value) = textNodes value := by
  rw [Builder.textTrees, textNodes]
  split <;> rfl

theorem toMarkupAll_eq_map (trees : List Tree) : Tree.toMarkupAll trees = trees.map Tree.toMarkup := by
  induction trees with
  | nil => rfl
  | cons tree trees ih => rw [Tree.toMarkupAll, ih, List.map_cons]

theorem toMarkupAll_append (trees more : List Tree) :
    Tree.toMarkupAll (trees ++ more) = Tree.toMarkupAll trees ++ Tree.toMarkupAll more := by
  rw [toMarkupAll_eq_map, toMarkupAll_eq_map, toMarkupAll_eq_map, List.map_append]

theorem isText_toMarkup (tree : Tree) : tree.toMarkup.isText = tree.isText := by cases tree <;> rfl

/-- No text stands next to a text. -/
def AreApart (ns : List Node) : Prop := ns.IsChain fun n m => ¬ (n.isText = true ∧ m.isText = true)

/-- Pieces among which no two texts meet are added as they are. -/
theorem addEach_of_areApart (h : AreApart (Tree.toMarkupAll pieces)) :
    Tree.addEach pieces [] = pieces := by
  refine Tree.addEach_eq_append ?_
  rw [AreApart, toMarkupAll_eq_map, List.isChain_map] at h
  exact h.imp fun tree next hapart => by rwa [isText_toMarkup, isText_toMarkup] at hapart

/-- Where nodes fit, no two texts meet. -/
theorem FitsAll.areApart : ∀ {ns : List Node}, FitsAll names ns → AreApart ns
  | [], _ => List.isChain_nil
  | [_], _ => List.isChain_singleton _
  | n :: m :: ns, ⟨_, hnext, hfits⟩ => by
      refine List.isChain_cons_cons.2 ⟨fun ⟨hn, hm⟩ => ?_, FitsAll.areApart hfits⟩
      have hapart := hnext hn
      rw [List.head?_cons, Option.any_some, hm] at hapart
      cases hapart

/-- No two texts meet when nodes are read again. -/
theorem AreApart.rereadAll : ∀ {ns : List Node}, AreApart ns → AreApart (rereadAll ns)
  | [], _ => List.isChain_nil
  | [_], _ => List.isChain_singleton _
  | n :: m :: ns, h => by
      have hcons := List.isChain_cons_cons.1 h
      refine List.isChain_cons_cons.2 ⟨?_, AreApart.rereadAll hcons.2⟩
      rw [isText_reread, isText_reread]
      exact hcons.1

theorem AreApart.dropBreakAll (h : AreApart ns) : AreApart (dropBreakAll ns) := by
  unfold Html.dropBreakAll
  split
  · next value ns =>
    rw [textNodes]
    split
    · exact h.tail
    · exact List.IsChain.imp_head (fun hx => by simpa [Node.isText] using hx) h
  · exact h

/-! ## What printed nodes begin with -/

/-- What is no text is printed with an angle bracket in front. -/
theorem head?_compact (hn : n.isText = false) (t : Text) :
    (n.compact false ++ t).head? = some '<' := by
  cases n with
  | text value => cases hn
  | comment value =>
      have hopen : text "<!--" = ['<', '!', '-', '-'] := by decide
      rw [Node.compact, printComment, hopen]
      rfl
  | element tag attributes children =>
      rw [Node.compact]
      split <;> rfl

/-- What begins with a text does so when it is read again. -/
theorem head?_rereadAll (ns : List Node) :
    (rereadAll ns).head?.any Node.isText = ns.head?.any Node.isText := by
  cases ns with
  | nil => rfl
  | cons n ns => exact isText_reread n

theorem dropBreakAll_of_head? (h : ns.head?.any Node.isText = false) : dropBreakAll ns = ns := by
  cases ns with
  | nil => rfl
  | cons n ns =>
      cases n with
      | text value => cases h
      | comment | element => rfl

namespace Builder

variable {b b' b₁ c : Builder} {o : Open} {os : List Open}

/-! ## Elements -/

/-- A start tag opens its element. -/
theorem Ready.opens (h : Ready b names) (hstack : b.stack = o :: os)
    (hcontent : contentIn names tag = some .nodes) (hstart : IsStart names tag attributes)
    (s : Text) :
    ∃ b₁, Reads b (openTag tag attributes ++ s) b₁ s ∧
      Opened b.landed b₁ (nameIn names tag) attributes := by
  have hlanded : b.landed.stack = o :: os := h.stack.trans hstack
  obtain ⟨b₁, houtcome, hopened⟩ := h.settled.start_nodes hlanded hcontent (attributes.map lowered)
  have hreads := reads_data h.reading
    (dataToken_openTag b.isInForeign hstart.isTag hstart.areWritable s) (by simp)
    (length_openTag_pos tag attributes s)
  rw [h.feed_eq (by simp) (by simp) houtcome] at hreads
  rw [hstart.kept] at hopened
  exact ⟨b₁, hreads, hopened⟩

/-- A builder is settled within an element that it has opened. -/
theorem Opened.settled_names {name : Name} (hopened : Opened b b₁ name attributes)
    (h : Settled b names) : Settled { b₁ with dropNewline := false } (name :: names) :=
  h.stack ▸ hopened.settled

/-- The end tag of an element closes it with all that has been read within. -/
theorem Opened.closes (h : Ready b names) (hstack : b.stack = o :: os)
    (hopened : Opened b.landed b₁ (nameIn names tag) attributes)
    (hcontent : contentIn names tag = some .nodes) (htag : IsTag tag)
    (hready : Ready c (nameIn names tag :: names))
    (hgrown : Grown { b₁ with dropNewline := false } c.landed pieces) (t : Text) :
    ∃ b', Reads c (closeTag tag ++ t) b' t ∧ Ready b' names ∧
      Grown b.landed b'.landed
        [.element b.landed.fresh (nameIn names tag) attributes (Tree.addEach pieces [])] := by
  have hlanded : b.landed.stack = o :: os := h.stack.trans hstack
  have hcurrent : c.landed.stack = ⟨b.landed.fresh, nameIn names tag, attributes⟩ :: o :: os := by
    rw [hgrown.stack, ← hlanded]
    exact hopened.stack
  obtain ⟨b', houtcome, hclosed⟩ := hready.settled.end_nodes hcurrent hcontent
  have hreads := reads_data hready.reading (dataToken_closeTag c.isInForeign htag t) (by simp)
    (length_closeTag_pos tag t)
  rw [hready.feed_eq (by simp) (by simp) houtcome] at hreads
  have htail : b'.stack = b.landed.stack := by
    rw [hclosed.stack, hcurrent, hlanded, List.tail_cons]
  have hsettled : Settled b' names := by
    have hnames := h.settled.stack
    rw [hlanded] at hnames
    rw [← hnames]
    have hall := hclosed.settled
    rwa [hcurrent, List.tail_cons] at hall
  refine ⟨b', hreads, hsettled.ready, ?_⟩
  rw [landed_of_ne hsettled.mode_ne]
  refine { stack := htail, trees := ?_, settled := h.settled.stack.symm ▸ hsettled }
  intro o' os' hstack'
  obtain ⟨rfl, rfl⟩ := List.cons.inj (hlanded.symm.trans hstack')
  have hparent : o.id < b.landed.fresh :=
    h.settled.numbered.stack o (by rw [hlanded]; exact List.mem_cons_self ..)
  have hfresh : b.landed.fresh ∉ Tree.idsAll b.landed.trees := fun hmem =>
    absurd (h.settled.numbered.trees _ hmem) (Nat.lt_irrefl _)
  have htrees := hgrown.trees _ _ hopened.stack
  have hroot := hopened.trees o os hlanded
  rw [hclosed.trees, htrees]
  dsimp only
  rw [hroot, Tree.appendEach_inner pieces (Nat.ne_of_gt hparent) hfresh]
  rfl

/-! ## Line breaks behind start tags -/

/-- A token that is no text is read as if no line break could be dropped. -/
theorem Reads.of_flagged {token : Token} {u : Text}
    (h : Reads { b with dropNewline := false } s b' t) (hne : s ≠ t) (hreading : b.reading = .data)
    (htoken : dataToken b.isInForeign s = (some token, u, .data))
    (hchars : ∀ value, token ≠ .chars value) : Reads b s b' t := by
  refine h.of_step hne fun n => ?_
  have hflagged : nextToken b.reading b.isInForeign s = (some token, u, .data) := by
    rw [hreading]
    exact htoken
  have hplain : nextToken { b with dropNewline := false }.reading
      { b with dropNewline := false }.isInForeign s = (some token, u, .data) := hflagged
  have hfeed : ∀ reading, feed { b with reading := reading } token =
      feed { b with dropNewline := false, reading := reading } token := by
    intro reading
    have hsame : dropFirstNewline token = some token := by
      cases token with
      | chars value => exact absurd rfl (hchars value)
      | _ => rfl
    rw [feed, feed]
    dsimp only
    rw [hsame, if_neg Bool.false_ne_true]
    split
    · rfl
    · next hdrop =>
      rw [Bool.not_eq_true] at hdrop
      rw [← hdrop]
  rw [readWithin, readWithin, hflagged, hplain]
  cases token with
  | chars value => exact absurd rfl (hchars value)
  | doctype | startTag | endTag | comment | null => exact congrArg (readWithin n · u) (hfeed .data)
  | eof => exact hfeed b.reading

/-- A printed text behind a start tag that drops a line break. -/
theorem Settled.reads_text (h : Settled { b with dropNewline := false } names)
    (hstack : b.stack = o :: os) (hdrop : b.dropNewline = true) (hne : value ≠ [])
    (hnul : nul ∉ value) (htakes : takesText names value = true)
    (hrest : ∀ d, t.head? = some d → d = '<') :
    ∃ c, Reads b (escapeText value ++ t) c t ∧ Ready c names ∧
      Grown { b with dropNewline := false } c.landed (textTrees (dropBreak value)) := by
  obtain ⟨bit, more, rfl, hbit, htoken⟩ := dataToken_escapeText b.isInForeign hne hnul hrest
  rw [List.mem_append, not_or] at hnul
  have hreading : b.reading = .data := h.calm.reading
  have hstep := reads_data hreading htoken (by simp) (length_escapeText_bit hbit more t)
  have hready := h.ready
  have hlanded := landed_of_ne h.mode_ne
  rw [feed_chars_of_dropNewline hdrop hbit] at hstep
  rw [dropBreak_append hbit]
  have hmore : takesText names more = true := (takesText_append htakes).2
  by_cases hempty : dropBreak bit = []
  · rw [if_pos hempty] at hstep
    rw [hempty, List.nil_append]
    by_cases hnone : more = []
    · subst hnone
      exact ⟨_, hstep, hready, hlanded.symm ▸ Grown.refl h⟩
    · obtain ⟨c, hadds⟩ := hready.adds_text hstack hnone hnul.2 hmore hrest
      rw [textTrees, if_neg hnone]
      exact ⟨c, hstep.trans hadds.reads, hadds.ready, hlanded ▸ hadds.grown⟩
  · rw [if_neg hempty, ← feed_of_dropNewline rfl] at hstep
    have hkept : takesText names (dropBreak bit ++ more) = true := by
      obtain ⟨lost, hlost⟩ := dropBreak_isSuffix bit
      rw [← hlost, List.append_assoc] at htakes
      exact (takesText_append htakes).2
    obtain ⟨c, hreads, hready', hgrown⟩ := hready.adds_more hstack hkept
      fun hnone b' hready' hnext hmore => hready'.adds_text hnext hnone hnul.2 hmore hrest
    rw [textTrees, if_neg (by simp [hempty])]
    exact ⟨c, hstep.trans hreads, hready', hlanded ▸ hgrown⟩

/-- Reading the content of an element behind its start tag. -/
structure Fills (b : Builder) (names : List Name) (s t : Text) (c : Builder) (pieces : List Tree) :
    Prop where
  reads : Reads b s c t
  ready : Ready c names
  grown : Grown { b with dropNewline := false } c.landed pieces

/-- Added pieces leave the open elements as they are. -/
theorem Adds.stack (hadds : Adds b names s t b' pieces) (h : Ready b names) : b'.stack = b.stack := by
  rw [← hadds.ready.stack, hadds.grown.stack, h.stack]

theorem name_nameIn (names : List Name) (tag : Text) : (nameIn names tag).name = tag := by
  rw [nameIn]
  repeat' split
  all_goals rfl

/-- A node that is no text begins with a token that is no text. -/
theorem exists_token (hn : n.isText = false) (hfits : Fits names n) (foreign : Bool) (t : Text) :
    ∃ token u, dataToken foreign (n.compact false ++ t) = (some token, u, .data) ∧
      ∀ value, token ≠ .chars value := by
  cases n with
  | text value => cases hn
  | comment value => exact ⟨_, _, dataToken_printComment foreign hfits t, by simp⟩
  | element tag attributes children =>
      obtain ⟨hstart, -⟩ := hfits
      have htoken := dataToken_openTag foreign hstart.isTag hstart.areWritable
      rw [Node.compact]
      split
      · exact ⟨_, _, htoken t, by simp⟩
      · rw [List.append_assoc, List.append_assoc]
        exact ⟨_, _, htoken _, by simp⟩

/-- The first token behind a start tag that no text follows. -/
theorem exists_token_content {children : List Node} (hfits : FitsAll names children)
    (hn : children.head?.any Node.isText = false) (htag : IsTag tag) (foreign : Bool) (t : Text) :
    ∃ token u, dataToken foreign (Node.compactAll false children ++ (closeTag tag ++ t)) =
      (some token, u, .data) ∧ ∀ value, token ≠ .chars value := by
  cases children with
  | nil => exact ⟨_, _, dataToken_closeTag foreign htag t, by simp⟩
  | cons n children =>
      rw [Node.compactAll, List.append_assoc]
      exact exists_token hn hfits.1 foreign _

/-- The end tag closes an element with all that has been read within. -/
theorem Opened.closes_reread {children : List Node} (h : Ready b names) (hstack : b.stack = o :: os)
    (hopened : Opened b.landed b₁ (nameIn names tag) attributes)
    (hcontent : contentIn names tag = some .nodes) (htag : IsTag tag)
    (hfits : FitsAll (nameIn names tag :: names) children)
    (hready : Ready c (nameIn names tag :: names))
    (hgrown : Grown { b₁ with dropNewline := false } c.landed pieces)
    (hpieces : Tree.toMarkupAll pieces =
      if breakTags.contains tag then dropBreakAll (rereadAll children) else rereadAll children)
    (t : Text) :
    ∃ b' piece, Reads c (closeTag tag ++ t) b' t ∧ Ready b' names ∧ Grown b.landed b'.landed [piece] ∧
      piece.toMarkup = reread (.element tag attributes children) := by
  obtain ⟨b', hend, hready', hgrown'⟩ := hopened.closes h hstack hcontent htag hready hgrown t
  have hapart : AreApart (Tree.toMarkupAll pieces) := by
    rw [hpieces]
    split
    · exact hfits.areApart.rereadAll.dropBreakAll
    · exact hfits.areApart.rereadAll
  refine ⟨b', _, hend, hready', hgrown', ?_⟩
  rw [addEach_of_areApart hapart, Tree.toMarkup, name_nameIn, hpieces, reread, readContent,
    escapedTags_of_nodes hcontent, if_neg Bool.false_ne_true]

/-- A printed element with nodes inside, if its content is read as it should be. -/
theorem Ready.adds_element {children : List Node} (h : Ready b names) (hstack : b.stack = o :: os)
    (hcontent : contentIn names tag = some .nodes) (hstart : IsStart names tag attributes)
    (hfits : FitsAll (nameIn names tag :: names) children) (t : Text)
    (hplain : ∀ c o os, Ready c (nameIn names tag :: names) → c.stack = o :: os →
      ∃ c' pieces, Adds c (nameIn names tag :: names)
        (Node.compactAll false children ++ (closeTag tag ++ t)) (closeTag tag ++ t) c' pieces ∧
        Tree.toMarkupAll pieces = rereadAll children)
    (htext : ∀ c o os, Settled { c with dropNewline := false } (nameIn names tag :: names) →
      c.stack = o :: os → c.dropNewline = true → children.head?.any Node.isText = true →
      ∃ c' pieces, Fills c (nameIn names tag :: names)
        (Node.compactAll false children ++ (closeTag tag ++ t)) (closeTag tag ++ t) c' pieces ∧
        Tree.toMarkupAll pieces = dropBreakAll (rereadAll children)) :
    ∃ b' piece, Adds b names
        (openTag tag attributes ++ (Node.compactAll false children ++ (closeTag tag ++ t))) t b'
        [piece] ∧ piece.toMarkup = reread (.element tag attributes children) := by
  obtain ⟨b₁, hopen, hopened⟩ := h.opens hstack hcontent hstart
    (Node.compactAll false children ++ (closeTag tag ++ t))
  have hsettled := hopened.settled_names h.settled
  have hlanded := landed_of_ne hsettled.mode_ne
  have hdrop : b₁.dropNewline = breakTags.contains tag := by
    rw [hopened.dropNewline, dropsNewline_nameIn hcontent]
  -- Only where a text comes first, the line break that the reader drops may be one of the content.
  by_cases hbreak : breakTags.contains tag = true ∧ children.head?.any Node.isText = true
  · obtain ⟨c, pieces, hfills, hpieces⟩ :=
      htext b₁ _ _ hsettled hopened.stack (hdrop.trans hbreak.1) hbreak.2
    obtain ⟨b', piece, hend, hready, hgrown, hpiece⟩ :=
      hopened.closes_reread h hstack hcontent hstart.isTag hfits hfills.ready hfills.grown
        (hpieces.trans (if_pos hbreak.1).symm) t
    exact ⟨b', piece, ⟨(hopen.trans hfills.reads).trans hend, hready, hgrown⟩, hpiece⟩
  · have hhead : breakTags.contains tag = true → children.head?.any Node.isText = false :=
      fun hcontains => Bool.eq_false_iff.2 fun hhead => hbreak ⟨hcontains, hhead⟩
    obtain ⟨c, pieces, hadds, hpieces⟩ := hplain _ _ _ hsettled.ready hopened.stack
    have hkept : Tree.toMarkupAll pieces =
        if breakTags.contains tag then dropBreakAll (rereadAll children)
        else rereadAll children := by
      rw [hpieces]
      split
      · next hcontains =>
        rw [dropBreakAll_of_head?]
        rw [head?_rereadAll, hhead hcontains]
      · rfl
    have hgrown := hadds.grown
    rw [hlanded] at hgrown
    obtain ⟨b', piece, hend, hready, hgrown, hpiece⟩ :=
      hopened.closes_reread h hstack hcontent hstart.isTag hfits hadds.ready hgrown hkept t
    have hreads := hadds.reads.trans hend
    refine ⟨b', piece, ⟨hopen.trans ?_, hready, hgrown⟩, hpiece⟩
    cases hcontains : breakTags.contains tag with
    | false =>
        have hsame : ({ b₁ with dropNewline := false } : Builder) = b₁ := by
          rw [← hcontains, ← hdrop]
        rwa [hsame] at hreads
    | true =>
        obtain ⟨token, u, htoken, hchars⟩ :=
          exists_token_content hfits (hhead hcontains) hstart.isTag b₁.isInForeign t
        refine hreads.of_flagged ?_ hsettled.calm.reading htoken hchars
        intro heq
        have hlength := congrArg List.length heq
        simp only [List.length_append, length_closeTag] at hlength
        omega

/-! ## Nodes -/

/-- Printed nodes that do not begin with a text begin with an angle bracket. -/
theorem head?_compactAll (hn : ns.head?.any Node.isText = false)
    (hrest : ∀ d, t.head? = some d → d = '<') :
    ∀ d, (Node.compactAll false ns ++ t).head? = some d → d = '<' := by
  cases ns with
  | nil => exact hrest
  | cons n ns =>
      rw [Node.compactAll, List.append_assoc, head?_compact hn]
      rintro d ⟨⟩
      rfl

/-- A printed element without nodes inside. -/
theorem Ready.adds_leaf {children : List Node} {content : Content} (h : Ready b names)
    (hstack : b.stack = o :: os) (hfits : Fits names (.element tag attributes children))
    (hcontent : contentIn names tag = some content) (hnodes : content ≠ .nodes) (t : Text) :
    ∃ b' piece, Adds b names ((Node.element tag attributes children).compact false ++ t) t b'
      [piece] ∧ piece.toMarkup = reread (.element tag attributes children) := by
  have hlanded : b.landed.stack = o :: os := h.stack.trans hstack
  obtain ⟨hstart, hfits⟩ := hfits
  rw [hcontent] at hfits
  cases content with
  | nodes => exact absurd rfl hnodes
  | void =>
      have hname := (h.settled.start_void hlanded hcontent attributes).2.1
      have hkept : attributes.map lowered = attributes := by
        have hkept := hstart.kept
        rwa [hname] at hkept
      obtain ⟨b', hadds⟩ :=
        h.adds_void hstack hcontent hstart.isTag hstart.areWritable t
      rw [hkept] at hadds
      subst hfits
      rw [Node.compact, if_pos (isVoid_of_void hcontent)]
      refine ⟨b', _, hadds, ?_⟩
      rw [Tree.toMarkup, reread, readContent]
      split
      · rfl
      · split <;> rfl
  | text reading =>
      obtain ⟨value, rfl, hheld⟩ := hfits
      have htext := isTextTag_of_contentIn hcontent
      have hname := (h.settled.start_text hlanded hcontent attributes).2.1
      have hkept : attributes.map lowered = attributes := by
        have hkept := hstart.kept
        rwa [hname] at hkept
      obtain ⟨b', hadds⟩ := h.adds_textElement hstack hcontent hstart.isTag hstart.areWritable
        (nul_not_mem_readText tag hheld.noNul)
        (fun hread => by rw [readText_eq_nil hread]; exact printedText_nil tag)
        (splitBy_printedText htext hheld t)
      rw [hkept] at hadds
      rw [Node.compact, if_neg (by simp [isVoid_of_isTextTag htext]), compactAll_textNodes,
        List.append_assoc, List.append_assoc]
      refine ⟨b', _, hadds, ?_⟩
      rw [reread_textElement htext, Tree.toMarkup, toMarkup_textTrees]
      rfl

mutual

/-- A printed node is read, in front of any tag. -/
theorem Ready.adds_node : ∀ {n : Node} {b : Builder} {names : List Name} {o : Open} {os : List Open}
    {t : Text}, Ready b names → b.stack = o :: os → (regionOf names).isSome = true →
    Fits names n → (n.isText = true → ∀ d, t.head? = some d → d = '<') →
    ∃ b' piece, Adds b names (n.compact false ++ t) t b' [piece] ∧ piece.toMarkup = reread n
  | .text value, _, _, _, _, _, h, hstack, _, ⟨hne, hnul, htakes⟩, hrest => by
      obtain ⟨b', hadds⟩ := h.adds_text hstack hne hnul htakes (hrest rfl)
      exact ⟨b', _, hadds, rfl⟩
  | .comment value, _, _, _, _, t, h, hstack, hregion, hfits, _ => by
      obtain ⟨b', hadds⟩ := h.adds_comment hstack hregion hfits t
      exact ⟨b', _, hadds, rfl⟩
  | .element tag attributes children, _, names, _, _, t, h, hstack, _, hfits, _ => by
      cases hcontent : contentIn names tag with
      | none => simp [Fits, hcontent] at hfits
      | some content =>
          by_cases hnodes : content = .nodes
          · subst hnodes
            obtain ⟨hstart, hfits⟩ := hfits
            rw [hcontent] at hfits
            have hregion := isSome_regionOf hcontent
            have hclose : ∀ d, (closeTag tag ++ t).head? = some d → d = '<' := by
              rw [closeTag_eq]
              rintro d ⟨⟩
              rfl
            rw [Node.compact, if_neg (by simp [isVoid_of_nodes hcontent]),
              isRawText_of_nodes hcontent, List.append_assoc, List.append_assoc]
            exact h.adds_element hstack hcontent hstart hfits t
              (fun c o os hready hstack => hready.adds_nodes hstack hregion hfits hclose)
              (fun c o os hsettled hstack hdrop htext =>
                hsettled.fills_nodes hstack hregion hdrop htext hfits hclose)
          · exact h.adds_leaf hstack hfits hcontent hnodes t

/-- Printed nodes are read one after the other. -/
theorem Ready.adds_nodes : ∀ {ns : List Node} {b : Builder} {names : List Name} {o : Open}
    {os : List Open} {t : Text}, Ready b names → b.stack = o :: os →
    (regionOf names).isSome = true → FitsAll names ns → (∀ d, t.head? = some d → d = '<') →
    ∃ b' pieces, Adds b names (Node.compactAll false ns ++ t) t b' pieces ∧
      Tree.toMarkupAll pieces = rereadAll ns
  | [], b, _, _, _, t, h, _, _, _, _ => ⟨b, [], Adds.refl h t, rfl⟩
  | n :: ns, _, _, _, _, _, h, hstack, hregion, ⟨hfits, hapart, hfitsAll⟩, hrest => by
      rw [Node.compactAll, List.append_assoc]
      obtain ⟨b', piece, hadds, hpiece⟩ := h.adds_node hstack hregion hfits
        fun htext => head?_compactAll (hapart htext) hrest
      obtain ⟨b'', pieces, hadds', hpieces⟩ := hadds.ready.adds_nodes
        ((hadds.stack h).trans hstack) hregion hfitsAll hrest
      exact ⟨b'', piece :: pieces, hadds.trans hadds',
        by rw [Tree.toMarkupAll, rereadAll, hpiece, hpieces]⟩

/-- Printed nodes behind a start tag that drops a line break, if a text comes first. -/
theorem Settled.fills_nodes : ∀ {ns : List Node} {b : Builder} {names : List Name} {o : Open}
    {os : List Open} {t : Text}, Settled { b with dropNewline := false } names →
    b.stack = o :: os → (regionOf names).isSome = true → b.dropNewline = true →
    ns.head?.any Node.isText = true → FitsAll names ns → (∀ d, t.head? = some d → d = '<') →
    ∃ b' pieces, Fills b names (Node.compactAll false ns ++ t) t b' pieces ∧
      Tree.toMarkupAll pieces = dropBreakAll (rereadAll ns)
  | [], _, _, _, _, _, _, _, _, _, hhead, _, _ => by cases hhead
  | n :: ns, _, _, _, _, _, h, hstack, hregion, hdrop, hhead, ⟨hfits, hapart, hfitsAll⟩, hrest => by
      cases n with
      | comment | element => cases hhead
      | text value =>
          obtain ⟨hne, hnul, htakes⟩ := hfits
          rw [Node.compactAll, List.append_assoc]
          obtain ⟨c, hreads, hready, hgrown⟩ := h.reads_text hstack hdrop hne hnul htakes
            (head?_compactAll (hapart rfl) hrest)
          have hnext : c.stack = _ := hready.stack.symm.trans (hgrown.stack.trans hstack)
          obtain ⟨b', pieces, hadds, hpieces⟩ := hready.adds_nodes hnext hregion hfitsAll hrest
          refine ⟨b', _, ⟨hreads.trans hadds.reads, hadds.ready, hgrown.trans hadds.grown⟩, ?_⟩
          rw [toMarkupAll_append, toMarkup_textTrees, hpieces]
          rfl

end

end Builder

end Viewloom.Html
