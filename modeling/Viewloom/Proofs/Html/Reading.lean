import Viewloom.Proofs.Html.Processing

/-!
# Reading nodes

A text is read token by token. Between two nodes a state is ready for the next one, up to blank text of a
table that is held back until the next tag.
-/

namespace Viewloom.Html.Builder

variable {b b' b'' c : Builder} {names : List Name} {tag s t : Text} {o : Open} {os : List Open}
  {token : Token} {attributes : List Attribute} {pieces more : List Tree}

/-! ## Steps -/

/-- Reading a text leads from one state to another, with the rest of the text still to be read. -/
def Reads (b : Builder) (s : Text) (b' : Builder) (t : Text) : Prop :=
  ∃ k, k + t.length ≤ s.length ∧ (k = 0 → s = t) ∧
    ∀ n, b.readWithin (n + k) s = b'.readWithin n t

theorem Reads.refl (b : Builder) (s : Text) : Reads b s b s :=
  ⟨0, by simp, fun _ => rfl, fun _ => rfl⟩

/-- Readings follow one another. -/
theorem Reads.trans {u : Text} (h : Reads b s b' t) (h' : Reads b' t b'' u) : Reads b s b'' u := by
  obtain ⟨k, hk, hzero, hread⟩ := h
  obtain ⟨k', hk', hzero', hread'⟩ := h'
  refine ⟨k' + k, by omega, fun hsum => ?_, fun n => ?_⟩
  · rw [hzero (by omega), hzero' (by omega)]
  · rw [← Nat.add_assoc, hread, hread']

/-- Where the first step is the same, the whole way is. -/
theorem Reads.of_step (h : Reads b s b' t) (hne : s ≠ t)
    (hstep : ∀ n, c.readWithin (n + 1) s = b.readWithin (n + 1) s) : Reads c s b' t := by
  obtain ⟨k, hk, hzero, hread⟩ := h
  obtain ⟨k, rfl⟩ := Nat.exists_eq_succ_of_ne_zero fun h => hne (hzero h)
  refine ⟨k + 1, hk, by simp, fun n => ?_⟩
  rw [← Nat.add_assoc, hstep, Nat.add_assoc]
  exact hread n

/-- One token is read and processed. -/
theorem reads_token {reading : Reading}
    (htoken : nextToken b.reading b.isInForeign s = (some token, t, reading)) (heof : token ≠ .eof)
    (hlength : t.length < s.length) : Reads b s (feed { b with reading := reading } token) t := by
  refine ⟨1, by omega, by simp, fun n => ?_⟩
  rw [readWithin, htoken]
  cases token with
  | eof => exact absurd rfl heof
  | doctype | startTag | endTag | comment | chars | null => rfl

/-- A token of ordinary text is read and processed. -/
theorem reads_data (hreading : b.reading = .data)
    (htoken : dataToken b.isInForeign s = (some token, t, .data)) (heof : token ≠ .eof)
    (hlength : t.length < s.length) : Reads b s (b.feed token) t := by
  have hnext : nextToken b.reading b.isInForeign s = (some token, t, .data) := by
    rw [hreading]
    exact htoken
  have hstep := reads_token hnext heof hlength
  rwa [← hreading] at hstep

/-- A token that is done with at once takes one round. -/
theorem process_of_done (h : b.outcome token = .done b') : b.process token = b' := by
  rw [process, Nat.add_comm, processWithin, h]

/-- A token that is looked at again takes two rounds. -/
theorem process_of_again (h : b.outcome token = .again c token) (h' : c.outcome token = .done b') :
    b.process token = b' := by
  have hrounds : 16 + 4 * (b.stack.length + b.templateModes.length) =
      14 + 4 * (b.stack.length + b.templateModes.length) + 1 + 1 := by omega
  rw [process, hrounds, processWithin, h]
  dsimp only
  rw [processWithin, h']

theorem feed_of_dropNewline (h : b.dropNewline = false) (token : Token) :
    b.feed token = b.process token := by
  rw [feed, h, if_neg Bool.false_ne_true]

/-! ## States that are ready for the next node -/

/-- The state when the blank text of a table that is held back has been added. -/
def landed (b : Builder) : Builder := if b.mode = .inTableText then b.flushTableText else b

/-- A builder that waits for the next token of a text, with some elements open. -/
structure Ready (b : Builder) (names : List Name) : Prop where
  settled : Settled b.landed names
  stack : b.landed.stack = b.stack
  reading : b.reading = .data
  dropNewline : b.dropNewline = false
  waiting : b.mode = .inTableText →
    regionOf names = some .table ∧ b.tableText.all isBlankRun = true

theorem landed_of_ne (h : b.mode ≠ .inTableText) : b.landed = b := by rw [landed, if_neg h]

theorem ite_ne {mode mode' mode'' : Mode} {p : Prop} [Decidable p] (h : mode ≠ mode'')
    (h' : mode' ≠ mode'') : (if p then mode else mode') ≠ mode'' := by
  split
  · exact h
  · exact h'

theorem modeOf_ne (htemplates : b.templateModes = []) (os : List Open) :
    b.modeOf os ≠ .inTableText := by
  induction os with
  | nil => simp [modeOf]
  | cons o os ih =>
      have hselect : selectMode os ≠ .inTableText := by
        have := isSelectMode_selectMode os
        intro heq
        rw [heq] at this
        cases this
      rw [modeOf, htemplates, List.headD_nil]
      repeat' with_reducible apply ite_ne
      all_goals first | exact ih | exact hselect | exact Mode.noConfusion

theorem Settled.mode_ne (h : Settled b names) : b.mode ≠ .inTableText := by
  intro heq
  rcases h.mode with hmode | ⟨hmode, -⟩
  · exact modeOf_ne rfl _ (hmode.symm.trans heq)
  · rw [heq] at hmode
    cases hmode

/-- A settled builder is ready for the next node. -/
theorem Settled.ready (h : Settled b names) : Ready b names := by
  have hlanded := landed_of_ne h.mode_ne
  exact {
    settled := hlanded.symm ▸ h
    stack := by rw [hlanded]
    reading := h.calm.reading
    dropNewline := h.dropNewline
    waiting := fun hmode => absurd hmode h.mode_ne }

/-- A token that is no text adds first what has been held back. -/
theorem Ready.feed_eq (h : Ready b names) (hchars : ∀ value, token ≠ .chars value)
    (hnull : token ≠ .null) (houtcome : b.landed.outcome token = .done b') : b.feed token = b' := by
  rw [feed_of_dropNewline h.dropNewline]
  by_cases hmode : b.mode = .inTableText
  · obtain ⟨hregion, -⟩ := h.waiting hmode
    have hlanded : b.landed = b.flushTableText := by rw [landed, if_pos hmode]
    have hhtml : b.isForeign token = false := by
      obtain ⟨within, -, rest, hnames⟩ := exists_of_table hregion
      have hstack := h.settled.stack
      rw [h.stack, hnames] at hstack
      cases hs : b.stack with
      | nil => rw [hs] at hstack; cases hstack
      | cons o os =>
          rw [hs, List.map_cons] at hstack
          refine isForeign_of_html hs ?_ token
          rw [(List.cons.inj hstack).1]
          rfl
    have hagain : b.outcome token = .again b.flushTableText token := by
      rw [outcome_eq_byMode hhtml, byMode, hmode]
      cases token with
      | chars value => exact absurd rfl (hchars value)
      | null => exact absurd rfl hnull
      | doctype | startTag | endTag | comment | eof => rfl
    rw [hlanded] at houtcome
    exact process_of_again hagain houtcome
  · rw [landed_of_ne hmode] at houtcome
    exact process_of_done houtcome

/-! ## Growing step by step -/

/-- What grows in two steps grows by both. -/
theorem Grown.trans (h : Grown b b' pieces) (h' : Grown b' b'' more) :
    Grown b b'' (pieces ++ more) where
  stack := h'.stack.trans h.stack
  trees := by
    intro o os hstack
    rw [h'.trees o os (h.stack.trans hstack), h.trees o os hstack, Tree.appendEach, Tree.appendEach,
      Tree.appendEach, List.foldl_append]
  settled := h.stack ▸ h'.settled

theorem Grown.refl (h : Settled b names) : Grown b b [] where
  stack := rfl
  trees := fun _ _ _ => rfl
  settled := h.stack.symm ▸ h

/-! ## Texts -/

/-- A table holds a text back. -/
def holdBack (b : Builder) (mode : Mode) (values : List Text) : Builder :=
  { b with mode := .inTableText, returnMode := mode, tableText := values }

theorem landed_holdBack {mode : Mode} {value : Text} {values : List Text}
    (hvalues : (value :: values).all isBlankRun = true) :
    (b.holdBack mode (value :: values)).landed =
      (values.reverse.foldl insertText { b with mode := mode, returnMode := mode, tableText := [] }).insertText
        value := by
  have hall : (value :: values).reverse.all isBlankRun = true := by rw [List.all_reverse, hvalues]
  have hmode : (b.holdBack mode (value :: values)).mode = .inTableText := rfl
  rw [landed, if_pos hmode, flushTableText]
  refine (if_pos hall).trans ?_
  rw [holdBack, List.reverse_cons, List.foldl_append]
  rfl

/-- Blank text of a table that is held back will grow the table by itself. -/
theorem ready_holdBack {mode : Mode} {value : Text} {values : List Text} (c : Builder)
    (hc : Settled c names) (hsame : values.reverse.foldl insertText
      { b with mode := mode, returnMode := mode, tableText := [] } = c)
    (hstack : c.stack = o :: os) (hblank : (value :: values).all isBlankRun = true)
    (hregion : regionOf names = some .table) (hkept : b.stack = c.stack)
    (hreading : b.reading = .data) (hdrop : b.dropNewline = false) :
    Ready (b.holdBack mode (value :: values)) names ∧
      Grown c (b.holdBack mode (value :: values)).landed [.text value] := by
  have hlanded : (b.holdBack mode (value :: values)).landed = c.insertText value := by
    rw [landed_holdBack hblank, hsame]
  have hgrown := hc.grown_insertText hstack value
  rw [hlanded]
  refine ⟨?_, hgrown⟩
  exact {
    settled := by
      rw [hlanded, ← hc.stack]
      exact hgrown.settled
    stack := by
      rw [hlanded, hgrown.stack]
      exact hkept.symm
    reading := hreading
    dropNewline := hdrop
    waiting := fun _ => ⟨hregion, hblank⟩ }

/-- Characters that stand directly in a table are held back with those before them. -/
theorem outcome_inTableText (hstack : b.stack = o :: os) (hspace : o.name.space = .html)
    (hmode : b.mode = .inTableText) (value : Text) : b.outcome (.chars value) =
      .done (b.holdBack b.returnMode (value :: b.tableText)) := by
  have hmodes : b.byMode (.chars value) = b.inTableText (.chars value) := by rw [byMode, hmode]
  have hrule : b.inTableText (.chars value) = .done { b with tableText := value :: b.tableText } := rfl
  rw [outcome_eq_byMode (isForeign_of_html hstack hspace _), hmodes, hrule, holdBack, ← hmode]

/-- The first text between two tags of a table. -/
theorem Settled.outcome_chars_table (h : Settled b names) (hstack : b.stack = o :: os)
    (hregion : regionOf names = some .table) (value : Text) :
    b.outcome (.chars value) = .again (b.holdBack b.mode []) (.chars value) := by
  obtain ⟨within, hwithin, rest, rfl⟩ := exists_of_table hregion
  have hcurrent : (b.currentIs fun n => n.isFoster || n == Name.html (text "template")) = true := by
    rw [currentIs_eq _ h.stack, innermost, List.head?_cons, Option.any_some, Bool.or_eq_true]
    exact .inl (List.contains_iff_mem.2 hwithin)
  rw [h.outcome_html hstack, byMode]
  simp only [List.mem_cons, List.not_mem_nil, or_false] at hwithin
  rcases hwithin with rfl | rfl | rfl | rfl | rfl <;> rw [h.mode_eq rfl rfl] <;>
    exact (if_pos hcurrent).trans (by rw [holdBack, h.mode_eq rfl rfl])

/-- A blank text directly in a table grows the table by itself. -/
theorem Ready.feed_chars_table (h : Ready b names) (hstack : b.stack = o :: os)
    (hregion : regionOf names = some .table) {value : Text} (hblank : isBlankRun value = true) :
    Ready (b.feed (.chars value)) names ∧
      Grown b.landed (b.feed (.chars value)).landed [.text value] := by
  have hspace : o.name.space = .html := by
    obtain ⟨within, -, rest, hnames⟩ := exists_of_table hregion
    have hall := h.settled.stack
    rw [h.stack, hnames, hstack, List.map_cons] at hall
    rw [(List.cons.inj hall).1]
    rfl
  have hlandedStack : b.landed.stack = o :: os := h.stack.trans hstack
  rw [feed_of_dropNewline h.dropNewline]
  by_cases hmode : b.mode = .inTableText
  · have hlanded : b.tableText.reverse.foldl insertText
        { b with mode := b.returnMode, returnMode := b.returnMode, tableText := [] } = b.landed := by
      have hall : b.tableText.reverse.all isBlankRun = true := by
        rw [List.all_reverse]
        exact (h.waiting hmode).2
      rw [landed, if_pos hmode, flushTableText]
      exact (if_pos hall).symm
    have hvalues : (value :: b.tableText).all isBlankRun = true := by
      rw [List.all_cons, hblank, (h.waiting hmode).2]
      rfl
    rw [process_of_done (outcome_inTableText hstack hspace hmode value)]
    exact ready_holdBack b.landed h.settled hlanded hlandedStack hvalues hregion h.stack.symm
      h.reading h.dropNewline
  · have hlanded := landed_of_ne hmode
    have hsettled := h.settled
    rw [hlanded] at hsettled ⊢
    let emptied : Builder := { b with mode := b.mode, returnMode := b.mode, tableText := [] }
    have hemptied : Settled emptied names :=
      hsettled.of_similar { Similar.refl b with } h.dropNewline
    have hheldStack : (b.holdBack b.mode []).stack = o :: os := hstack
    have hheld : (b.holdBack b.mode []).outcome (.chars value) =
        .done (b.holdBack b.mode [value]) :=
      outcome_inTableText hheldStack hspace rfl value
    have hvalues : [value].all isBlankRun = true := by
      rw [List.all_cons, hblank]
      rfl
    rw [process_of_again (hsettled.outcome_chars_table hstack hregion value) hheld]
    obtain ⟨hready, hgrown⟩ := ready_holdBack emptied hemptied rfl hstack hvalues hregion rfl
      h.reading h.dropNewline
    exact ⟨hready, hgrown.stack, hgrown.trees, hgrown.settled⟩

/-- A text that may stand where it is read is added, now or with the next tag. -/
theorem Ready.feed_chars (h : Ready b names) (hstack : b.stack = o :: os) {value : Text}
    (hvalue : takesText names value = true) :
    Ready (b.feed (.chars value)) names ∧
      Grown b.landed (b.feed (.chars value)).landed [.text value] := by
  by_cases htable : regionOf names = some .table
  · rw [takesText, htable] at hvalue
    exact h.feed_chars_table hstack htable hvalue
  · have hmode : b.mode ≠ .inTableText := fun hmode => htable (h.waiting hmode).1
    have hlanded := landed_of_ne hmode
    have hsettled := h.settled
    have hregion : (regionOf names).isSome = true := by
      rw [takesText] at hvalue
      cases hnone : regionOf names with
      | none => rw [hnone] at hvalue; cases hvalue
      | some region => rfl
    have hblank : regionOf names = some .columns → isBlankRun value = true := by
      intro hcolumns
      rw [takesText, hcolumns] at hvalue
      exact hvalue
    rw [hlanded] at hsettled ⊢
    obtain ⟨b', houtcome, hgrown⟩ := hsettled.outcome_chars hstack hregion htable hblank
    have hnext : Settled b' names := hsettled.stack ▸ hgrown.settled
    rw [feed_of_dropNewline h.dropNewline, process_of_done houtcome, landed_of_ne hnext.mode_ne]
    exact ⟨hnext.ready, hgrown⟩

end Viewloom.Html.Builder
