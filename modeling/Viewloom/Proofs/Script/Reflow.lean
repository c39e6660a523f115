import Viewloom.Module.Compose
import Viewloom.Proofs.Script.Children

/-!
# Lines laid out anew

An emitted expression is indented line by line. What stands in tags and between them keeps its shape,
since no line ends in an expression. The quoted values are laid out with the rest: the lines in them are
indented, too.
-/

namespace Viewloom.Script

variable {must : Bool} {items : List Item} {width : Nat} {d : Char} {s t stop x : Text}

/-! ## Hanging lines -/

/-- Whether a line ends where a text begins. -/
def beginsBreak : Text → Bool
  | [] => false
  | d :: s => d == '\n' || d == '\r' && s.head? == some '\n'

/-- The blanks in front of what stands on a line, if the line is not empty. -/
def hangingBlanks (width : Nat) (s : Text) : Text :=
  if beginsBreak s then [] else List.replicate width ' '

/-- A text whose lines are indented, apart from the first one and the empty ones, and end without
returns. -/
def hang (width : Nat) : Text → Text
  | [] => []
  | d :: s =>
    if d = '\n' then '\n' :: (hangingBlanks width s ++ hang width s)
    else if d = '\r' ∧ s.head? = some '\n' then hang width s
    else d :: hang width s

theorem hang_newline (width : Nat) (s : Text) :
    hang width ('\n' :: s) = '\n' :: (hangingBlanks width s ++ hang width s) := rfl

/-- A carriage return in front of a line feed is dropped. -/
theorem hang_return (hs : s.head? = some '\n') : hang width ('\r' :: s) = hang width s := by
  rw [hang, if_neg (by decide), if_pos ⟨rfl, hs⟩]

theorem hang_other (hd : d ≠ '\n') (hs : d = '\r' → s.head? ≠ some '\n') :
    hang width (d :: s) = d :: hang width s := by
  rw [hang, if_neg hd, if_neg fun h => hs h.1 h.2]

theorem hang_cons (hd : isInline d = true) : hang width (d :: s) = d :: hang width s := by
  rw [isInline, Bool.and_eq_true, bne_iff_ne, bne_iff_ne] at hd
  exact hang_other hd.1 fun heq => absurd heq hd.2

/-- One character stays, or is a terminator with blanks behind it, or is dropped. -/
theorem exists_hang_cons (width : Nat) (d : Char) (s : Text) :
    ∃ p, hang width (d :: s) = p ++ hang width s ∧ ∀ e ∈ p, e = d ∨ e = ' ' := by
  by_cases hnewline : d = '\n'
  · subst hnewline
    refine ⟨'\n' :: hangingBlanks width s, rfl, fun e he => ?_⟩
    rcases List.mem_cons.1 he with rfl | he
    · exact .inl rfl
    · unfold hangingBlanks at he
      split at he
      · cases he
      · exact .inr (List.eq_of_mem_replicate he)
  by_cases hreturn : d = '\r' ∧ s.head? = some '\n'
  · obtain ⟨rfl, hs⟩ := hreturn
    exact ⟨[], hang_return hs, by simp⟩
  · exact ⟨[d], hang_other hnewline fun heq hs => hreturn ⟨heq, hs⟩, by simp⟩

/-- What holds no line terminator stays as it is. -/
theorem hang_append {p : Text} (hp : p.all isInline = true) :
    hang width (p ++ s) = p ++ hang width s := by
  induction p with
  | nil => rfl
  | cons d p ih =>
      simp only [List.all_cons, Bool.and_eq_true] at hp
      rw [List.cons_append, hang_cons hp.1, ih hp.2, List.cons_append]

/-- An expression on one line stays as it is, up to the brace behind it. -/
theorem hang_braces {p e : Text} (width : Nat) (hp : p.all isInline = true)
    (he : e.all isInline = true) (s : Text) :
    hang width (p ++ (e ++ '\x7d' :: s)) = p ++ (e ++ '\x7d' :: hang width s) := by
  rw [hang_append hp, hang_append he, hang_cons rfl]

/-- A text is laid out by itself in front of a character that is part of no line terminator. -/
theorem hang_append_cons (hd : isInline d = true) :
    hang width (t ++ d :: s) = hang width t ++ d :: hang width s := by
  have hne := hd
  rw [isInline, Bool.and_eq_true, bne_iff_ne, bne_iff_ne] at hne
  have hhead (t : Text) : (t ++ d :: s).head? = some '\n' ↔ t.head? = some '\n' := by
    cases t with
    | nil => simpa using hne.1
    | cons => rfl
  have hbreak (t : Text) : beginsBreak (t ++ d :: s) = beginsBreak t := by
    cases t with
    | nil => simp [beginsBreak, hne]
    | cons e t =>
        rw [Bool.eq_iff_iff]
        simp only [List.cons_append, beginsBreak, Bool.or_eq_true, Bool.and_eq_true, beq_iff_eq, hhead]
  induction t with
  | nil => exact hang_cons hd
  | cons e t ih =>
      simp only [List.cons_append, hang, hangingBlanks, hbreak, hhead, ih]
      split
      · simp
      split <;> rfl

/-- What a hung text begins with, the text begins with, but for line breaks. -/
theorem head?_hang (hd : d ≠ '\n') (h : (hang width s).head? = some d) : s.head? = some d := by
  induction s with
  | nil => cases h
  | cons e s ih =>
      unfold hang at h
      split at h
      · exact absurd (by simpa using h) hd.symm
      split at h
      · next hreturn =>
          rw [ih h] at hreturn
          exact absurd (Option.some.inj hreturn.2) hd
      · simpa using h

/-- What is told of a text that is laid out anew. -/
def Item.hang (width : Nat) : Item → Item
  | required path => required path
  | quoted source => quoted (Script.hang width source)

/-- A quoted value hangs between its quotes. -/
theorem hang_inQuotes (value : Text) : hang width (inQuotes value) = inQuotes (hang width value) := by
  rw [inQuotes, hang_cons rfl, hang_append_cons rfl]
  rfl

/-! ## Escaped values -/

theorem escapeAttribute_cons (d : Char) (s : Text) : Markup.escapeAttribute (d :: s) =
    Markup.escapeAttributeChar d ++ Markup.escapeAttribute s := List.flatMap_cons

/-- An escaped text begins with a line break exactly if the text does. -/
theorem head?_escapeAttribute (s : Text) :
    (Markup.escapeAttribute s).head? = some '\n' ↔ s.head? = some '\n' := by
  cases s with
  | nil => rfl
  | cons d s =>
      rw [escapeAttribute_cons, Markup.escapeAttributeChar]
      split
      · next hd =>
          have hamp : some '&' ≠ some '\n' := by decide
          exact iff_of_false hamp (by simp [hd])
      split
      · next hd =>
          have hamp : some '&' ≠ some '\n' := by decide
          exact iff_of_false hamp (by simp [hd])
      · rfl

/-- The blanks behind a line break do not depend on escapes. -/
theorem hangingBlanks_escapeAttribute (width : Nat) (s : Text) :
    hangingBlanks width (Markup.escapeAttribute s) = hangingBlanks width s := by
  have hbreak : beginsBreak (Markup.escapeAttribute s) = beginsBreak s := by
    cases s with
    | nil => rfl
    | cons d s =>
        rw [escapeAttribute_cons, Markup.escapeAttributeChar, Bool.eq_iff_iff]
        split
        · next hd => exact iff_of_false Bool.false_ne_true (by simp [hd, beginsBreak])
        split
        · next hd => exact iff_of_false Bool.false_ne_true (by simp [hd, beginsBreak])
        · simp [beginsBreak, head?_escapeAttribute]
  rw [hangingBlanks, hbreak, hangingBlanks]

theorem escapeAttribute_hangingBlanks (width : Nat) (s : Text) :
    Markup.escapeAttribute (hangingBlanks width s) = hangingBlanks width s := by
  have hblanks (n : Nat) : Markup.escapeAttribute (List.replicate n ' ') = List.replicate n ' ' := by
    induction n with
    | zero => rfl
    | succ n ih =>
        rw [List.replicate_succ, escapeAttribute_cons, ih]
        rfl
  unfold hangingBlanks
  split
  · rfl
  · exact hblanks width

/-- A value that is escaped is laid out as the value itself. -/
theorem hang_escapeAttribute (width : Nat) (s : Text) :
    hang width (Markup.escapeAttribute s) = Markup.escapeAttribute (hang width s) := by
  induction s with
  | nil => rfl
  | cons d s ih =>
      by_cases hnewline : d = '\n'
      · subst hnewline
        have happend (t t' : Text) : Markup.escapeAttribute (t ++ t') =
            Markup.escapeAttribute t ++ Markup.escapeAttribute t' := List.flatMap_append
        have hself (s : Text) : Markup.escapeAttribute ('\n' :: s) =
            '\n' :: Markup.escapeAttribute s := rfl
        rw [hself, hang_newline, hang_newline, hself, happend, hangingBlanks_escapeAttribute,
          escapeAttribute_hangingBlanks, ih]
      by_cases hreturn : d = '\r'
      · subst hreturn
        have hself (s : Text) : Markup.escapeAttribute ('\r' :: s) =
            '\r' :: Markup.escapeAttribute s := rfl
        rw [hself]
        by_cases hs : s.head? = some '\n'
        · rw [hang_return hs, hang_return ((head?_escapeAttribute s).2 hs), ih]
        · rw [hang_other hnewline fun _ => hs, hself,
            hang_other hnewline fun _ => mt (head?_escapeAttribute s).1 hs, ih]
      · have hd : isInline d = true := by simp [isInline, hnewline, hreturn]
        have hchar : (Markup.escapeAttributeChar d).all isInline = true := by
          unfold Markup.escapeAttributeChar
          split
          · rfl
          split
          · rfl
          · simp [hd]
        rw [escapeAttribute_cons, hang_append hchar, hang_cons hd, escapeAttribute_cons, ih]

/-! ## Tags and what stands between them -/

theorem isInline_of_isInert (hd : isInert d = true) : isInline d = true := by
  rw [isInline, Bool.and_eq_true, bne_iff_ne, bne_iff_ne]
  exact ⟨ne_of_isInert hd (by decide), ne_of_isInert hd (by decide)⟩

theorem all_isInline_of_isInert (hs : s.all isInert = true) : s.all isInline = true := by
  rw [List.all_eq_true]
  intro d hd
  exact isInline_of_isInert (List.all_eq_true.1 hs d hd)

/-- What ends a name in a tag does so when it hangs. -/
theorem endsTagName_hang (hs : endsTagName s = true) : endsTagName (hang width s) = true := by
  cases s with
  | nil => rfl
  | cons d s =>
      unfold hang
      split
      · rfl
      split
      · next hreturn =>
          obtain ⟨s, rfl⟩ := List.head?_eq_some_iff.1 hreturn.2
          rfl
      · exact hs

/-- A character that is no blank comes into no text when it hangs. -/
theorem not_mem_hang {e : Char} (he : e ≠ ' ') (hs : e ∉ s) : e ∉ hang width s := by
  induction s with
  | nil => exact hs
  | cons d s ih =>
      obtain ⟨p, heq, hp⟩ := exists_hang_cons width d s
      rw [List.mem_cons, not_or] at hs
      rw [heq, List.mem_append, not_or]
      refine ⟨fun hmem => ?_, ih hs.2⟩
      rcases hp e hmem with heq | heq
      · exact hs.1 heq
      · exact he heq

/-- A piece of a tag that hangs is a piece with its items hung. -/
theorem Piece.hang {p : Text} (width : Nat) (hp : Piece must items p) (s : Text) :
    ∃ p', Script.hang width (p ++ s) = p' ++ Script.hang width s ∧
      Piece must (items.map (Item.hang width)) p' := by
  cases hp with
  | flag hname => exact ⟨p, hang_append (all_isInline_of_isInert hname.1), .flag hname⟩
  | @quoted name value hname hvalue =>
      refine ⟨name ++ '=' :: inQuotes (Script.hang width value), ?_, ?_⟩
      · rw [List.append_assoc, hang_append (all_isInline_of_isInert hname.1), List.cons_append,
          hang_cons rfl, inQuotes, List.cons_append, hang_cons rfl, List.append_assoc]
        simp only [List.singleton_append, hang_append_cons (show isInline '"' = true from rfl)]
        simp [inQuotes]
      · simp only [List.map_cons, List.map_nil, Item.hang, hang_inQuotes]
        exact .quoted hname (not_mem_hang (by decide) hvalue)
  | @braces name e hname he =>
      have hinline : (name ++ ['=', '\x7b']).all isInline = true := by
        rw [List.all_append, all_isInline_of_isInert hname.1]
        rfl
      have hbraces := hang_braces width hinline he.inline s
      exact ⟨_, by simpa using hbraces, .braces hname he⟩
  | @spread e he =>
      have hinline : ('\x7b' :: text "...").all isInline = true := rfl
      have hbraces := hang_braces width hinline he.inline s
      exact ⟨_, by simpa using hbraces, .spread he⟩

/-- An opening that hangs is an opening with its items hung. -/
theorem Opening.hang (width : Nat) (h : Opening must stop items s) :
    Opening must (Script.hang width stop) (items.map (Item.hang width)) (Script.hang width s) := by
  induction h with
  | stop => exact .stop
  | blank _ ih =>
      rw [hang_cons rfl]
      exact ih.blank
  | @piece _ _ _ s hp hs _ ih =>
      obtain ⟨p', heq, hp'⟩ := hp.hang width s
      rw [heq, List.map_append]
      exact ih.piece hp' (endsTagName_hang hs)

theorem Remark.append_blanks (h : Remark stop t) : Remark stop (hangingBlanks width s ++ t) := by
  have hblanks (n : Nat) : Remark stop (List.replicate n ' ' ++ t) := by
    induction n with
    | zero => exact h
    | succ n ih => exact .char (fun heq => absurd heq (by decide)) ih
  unfold hangingBlanks
  split
  · exact h
  · exact hblanks width

/-- A comment that hangs is a comment. -/
theorem Remark.hang (h : Remark stop s) : Remark (Script.hang width stop) (Script.hang width s) := by
  induction h with
  | stop => exact .stop
  | @char d s hd hs ih =>
      by_cases hnewline : d = '\n'
      · subst hnewline
        exact .char (fun heq => absurd heq (by decide)) ih.append_blanks
      by_cases hreturn : d = '\r' ∧ s.head? = some '\n'
      · obtain ⟨rfl, hhead⟩ := hreturn
        rwa [hang_return hhead]
      · rw [hang_other hnewline fun heq hhead => hreturn ⟨heq, hhead⟩]
        exact .char (fun heq hhead => hd heq (head?_hang (by decide) hhead)) ih

/-- Text without ends can stand in front of children. -/
theorem Children.append_chars {p : Text} (hp : ∀ e ∈ p, endsElementText e = false)
    (h : Children must items stop s) : Children must items stop (p ++ s) := by
  induction p with
  | nil => exact h
  | cons e p ih =>
      refine .char (hp e (by simp)) (ih ?_)
      intro d hd
      exact hp d (by simp [hd])

mutual

/-- Children that hang are children with their items hung. -/
theorem Children.hang {items : List Item} {stop s : Text} : Children must items stop s →
    Children must (items.map (Item.hang width)) (Script.hang width stop) (Script.hang width s)
  | .stop => .stop
  | @Children.char _ _ _ s d hd hs => by
    obtain ⟨p, heq, hp⟩ := exists_hang_cons width d s
    rw [heq]
    apply (Children.hang hs).append_chars
    intro e he
    rcases hp e he with rfl | rfl
    · exact hd
    · decide
  | @Children.comment _ _ _ b s hremark hs => by
    have hbody : Remark ('*' :: '/' :: '\x7d' :: Script.hang width s) (Script.hang width b) :=
      hremark.hang
    exact .comment hbody (Children.hang hs)
  | .braces he hbegins hs => by
    rw [hang_cons rfl, hang_append he.inline, hang_cons rfl]
    exact .braces he hbegins (Children.hang hs)
  | .element ho hs => by
    rw [hang_cons rfl, List.map_append]
    exact .element (Element.hang ho) (Children.hang hs)
  | @Children.framed _ _ _ _ before after s o hframing ho hs => by
    have hinline := hframing.inline
    rw [List.all_append, Bool.and_eq_true] at hinline
    have ho := Element.hang ho
    rw [hang_append hinline.2, hang_cons rfl] at ho
    rw [hang_cons rfl, hang_append hinline.1, hang_cons rfl, List.map_append]
    exact .framed hframing ho (Children.hang hs)

/-- An element that hangs is an element with its items hung. -/
theorem Element.hang {items : List Item} {rest o : Text} : Element must items rest o →
    Element must (items.map (Item.hang width)) (Script.hang width rest) (Script.hang width o)
  | .closed htag hs hopening => by
    rw [hang_append (all_isInline_of_isInert htag.2.1)]
    exact .closed htag (endsTagName_hang hs) (hopening.hang width)
  | @Element.whole _ _ _ rest tag s i htag hs hopening hi => by
    have hinline := all_isInline_of_isInert htag.2.1
    have hclose : Script.hang width ('<' :: '/' :: (tag ++ '>' :: rest)) =
        '<' :: '/' :: (tag ++ '>' :: Script.hang width rest) := by
      rw [hang_cons rfl, hang_cons rfl, hang_append hinline, hang_cons rfl]
    have hchildren := Children.hang hi
    rw [hclose] at hchildren
    have hopening := hopening.hang width
    rw [hang_cons rfl] at hopening
    rw [hang_append hinline, List.map_append]
    exact .whole htag (endsTagName_hang hs) hopening hchildren

end

/-! ## Longer rests -/

theorem endsTagName_append (hne : s ≠ []) (hs : endsTagName s = true) :
    endsTagName (s ++ x) = true := by
  cases s with
  | nil => exact absurd rfl hne
  | cons d s => exact hs

theorem Opening.ne_nil (h : Opening must stop items s) (hstop : stop ≠ []) : s ≠ [] := by
  have hlength := h.length_le
  rw [← List.length_pos_iff] at hstop ⊢
  omega

/-- An opening stays one in front of more text. -/
theorem Opening.append (h : Opening must stop items s) (hstop : stop ≠ []) (x : Text) :
    Opening must (stop ++ x) items (s ++ x) := by
  induction h with
  | stop => exact .stop
  | blank _ ih => exact ih.blank
  | piece hp hs h ih =>
      rw [List.append_assoc]
      exact ih.piece hp (endsTagName_append (h.ne_nil hstop) hs)

theorem Remark.append {d : Char} (h : Remark (d :: stop) s) (x : Text) :
    Remark (d :: stop ++ x) (s ++ x) := by
  induction h with
  | stop => exact .stop
  | @char e s hd hs ih =>
      refine .char ?_ ih
      intro heq
      cases s with
      | nil => cases hs
      | cons => exact hd heq

mutual

/-- Children stay children in front of more text. -/
theorem Children.append {items : List Item} {stop s : Text} (x : Text) : Children must items stop s →
    Children must items (stop ++ x) (s ++ x)
  | .stop => .stop
  | .char hd hs => .char hd (Children.append x hs)
  | .comment hremark hs => .comment (hremark.append x) (Children.append x hs)
  | .braces he hbegins hs => by
    simpa using Children.braces he hbegins (Children.append x hs)
  | .element ho hs => .element (Element.append x ho) (Children.append x hs)
  | @Children.framed _ _ _ _ before after s o hframing ho hs => by
    have ho := Element.append x ho
    rw [List.append_assoc, List.cons_append] at ho
    simpa using Children.framed hframing ho (Children.append x hs)

/-- An element stays one in front of more text. -/
theorem Element.append {items : List Item} {rest o : Text} (x : Text) : Element must items rest o →
    Element must items (rest ++ x) (o ++ x)
  | .closed htag hs hopening => by
    rw [List.append_assoc]
    exact .closed htag (endsTagName_append (hopening.ne_nil (by rintro ⟨⟩)) hs)
      (hopening.append (by rintro ⟨⟩) x)
  | .whole htag hs hopening hi => by
    have hi := Children.append x hi
    rw [List.append_assoc]
    refine .whole htag (endsTagName_append (hopening.ne_nil (by rintro ⟨⟩)) hs)
      (hopening.append (by rintro ⟨⟩) x) ?_
    simpa using hi

end

/-! ## Indented lines -/

open Viewloom.Module (indentLine indentBlock)

/-- Lines that are closed and indented, but for the indentation of the first one. -/
def hangLines (width : Nat) : List Text → Text
  | [] => []
  | [last] => last
  | line :: rest =>
    Text.dropReturn line ++
      '\n' :: List.intercalate ['\n'] ((Text.closeLines rest).map (indentLine width))

/-- The pieces of a text that begins with a character. -/
theorem splitOnP_newline_cons (d : Char) (s : Text) :
    ∃ line rest, List.splitOnP (· == '\n') s = line :: rest ∧
      List.splitOnP (· == '\n') (d :: s) =
        if d = '\n' then [] :: line :: rest else (d :: line) :: rest := by
  obtain ⟨line, rest, h⟩ := List.exists_cons_of_ne_nil (List.splitOnP_ne_nil (· == '\n') s)
  refine ⟨line, rest, h, ?_⟩
  simp only [List.splitOnP_cons_eq_if_modifyHead, h, List.modifyHead_cons, beq_iff_eq]

/-- A text that does not end in a line break has no empty last line. -/
theorem getLast?_splitOnP (hne : s ≠ []) (hs : s.getLast? ≠ some '\n') :
    (List.splitOnP (· == '\n') s).getLast? ≠ some [] := by
  induction s with
  | nil => exact absurd rfl hne
  | cons d s ih =>
      obtain ⟨line, rest, h, hd⟩ := splitOnP_newline_cons d s
      cases s with
      | nil =>
          have hd' : d ≠ '\n' := by simpa using hs
          simp [List.splitOnP_cons_eq_if_modifyHead, hd']
      | cons e s =>
          have ih := ih (by simp) (by simpa [List.getLast?_cons] using hs)
          rw [h] at ih
          rw [hd]
          cases rest with
          | nil =>
              split <;> simp_all
          | cons => split <;> simpa [List.getLast?_cons] using ih

/-- A text begins with a line break exactly if its first line is empty and not its last. -/
theorem head?_eq_newline_iff {line : Text} {rest : List Text}
    (h : List.splitOnP (· == '\n') s = line :: rest) :
    s.head? = some '\n' ↔ line = [] ∧ rest ≠ [] := by
  cases s with
  | nil =>
      obtain ⟨rfl, rfl⟩ := List.cons.inj h
      simp
  | cons d s =>
      obtain ⟨line', rest', -, hd⟩ := splitOnP_newline_cons d s
      rw [hd] at h
      split at h
      · next hnewline =>
          obtain ⟨rfl, rfl⟩ := List.cons.inj h
          simp [hnewline]
      · next hnewline =>
          obtain ⟨rfl, rfl⟩ := List.cons.inj h
          simpa using hnewline

theorem dropReturn_cons {d : Char} {line : Text} (h : d = '\r' → line ≠ []) :
    Text.dropReturn (d :: line) = d :: Text.dropReturn line := by
  rw [Text.dropReturn]
  rintro rfl rfl
  exact h rfl rfl

/-- A line ends where a text begins, if the first line of the text is empty and is not the last one. -/
theorem beginsBreak_iff {line : Text} {rest : List Text}
    (h : List.splitOnP (· == '\n') s = line :: rest) :
    beginsBreak s = true ↔ Text.dropReturn line = [] ∧ rest ≠ [] := by
  cases s with
  | nil =>
      obtain ⟨rfl, rfl⟩ := List.cons.inj h
      simp [beginsBreak]
  | cons d s =>
      obtain ⟨line', rest', hs, hd⟩ := splitOnP_newline_cons d s
      have hhead := head?_eq_newline_iff hs
      rw [hd] at h
      split at h
      · next hnewline =>
          obtain ⟨rfl, rfl⟩ := List.cons.inj h
          simp [beginsBreak, hnewline, Text.dropReturn]
      · next hnewline =>
          obtain ⟨rfl, rfl⟩ := List.cons.inj h
          have hbreak : beginsBreak (d :: s) = true ↔ d = '\r' ∧ s.head? = some '\n' := by
            simp [beginsBreak, hnewline]
          rw [hbreak, hhead]
          by_cases hreturn : d = '\r' ∧ line' = []
          · obtain ⟨rfl, rfl⟩ := hreturn
            simp [Text.dropReturn]
          · rw [dropReturn_cons fun hd hline => hreturn ⟨hd, hline⟩]
            simpa [← and_assoc] using fun heq hline => absurd ⟨heq, hline⟩ hreturn

/-- A line is indented by the blanks that hang in front of it. -/
theorem indentLine_eq {line : Text} (hbreak : beginsBreak s = true ↔ line = []) :
    indentLine width line = hangingBlanks width s ++ line := by
  unfold indentLine hangingBlanks
  split
  · next hline => simp [hline, hbreak.2 hline]
  · next hline => rw [if_neg fun h => hline (hbreak.1 h)]

/-- Lines of which the last is not empty are indented. -/
theorem indentBlock_eq (width : Nat) (hne : s ≠ []) (hs : s.getLast? ≠ some '\n') :
    indentBlock width s = hangingBlanks width s ++ hangLines width (List.splitOnP (· == '\n') s) := by
  have hlast := getLast?_splitOnP hne hs
  rw [indentBlock, Text.lines]
  match hlines : List.splitOnP (· == '\n') s with
  | [] => exact absurd hlines (List.splitOnP_ne_nil _ s)
  | [last] =>
      have hlast : last ≠ [] := by simpa [hlines] using hlast
      have hbreak : beginsBreak s = true ↔ last = [] := by simp [beginsBreak_iff hlines, hlast]
      simpa [Text.closeLines, hlast, hangLines] using indentLine_eq hbreak
  | line :: next :: rest =>
      have hnext : (next :: rest).getLast? ≠ some [] := by
        simpa [hlines, List.getLast?_cons] using hlast
      have hbreak : beginsBreak s = true ↔ Text.dropReturn line = [] := by simp [beginsBreak_iff hlines]
      obtain ⟨first, more, hmore⟩ : ∃ first more,
          (Text.closeLines (next :: rest)).map (indentLine width) = first :: more := by
        cases rest with
        | nil =>
            have hnext : next ≠ [] := by simpa using hnext
            exact ⟨indentLine width next, [], by simp [Text.closeLines, hnext]⟩
        | cons => exact ⟨_, _, rfl⟩
      simp only [Text.closeLines, List.map_cons, hmore, List.intercalate_cons_cons, hangLines,
        indentLine_eq hbreak]
      simp

/-- Hanging a text is indenting its lines. -/
theorem hangLines_eq (hs : s.getLast? ≠ some '\n') :
    hangLines width (List.splitOnP (· == '\n') s) = hang width s := by
  induction s with
  | nil => rfl
  | cons d s ih =>
      cases s with
      | nil =>
          have hd : d ≠ '\n' := by simpa using hs
          rw [hang_other hd fun _ => by simp]
          simp [List.splitOnP_cons_eq_if_modifyHead, hd, hangLines, hang]
      | cons e s =>
          have hlast : (e :: s).getLast? ≠ some '\n' := by simpa [List.getLast?_cons] using hs
          have ih := ih hlast
          have hblock := indentBlock_eq width (List.cons_ne_nil e s) hlast
          obtain ⟨line, rest, h, hsplit⟩ := splitOnP_newline_cons d (e :: s)
          have hhead := head?_eq_newline_iff h
          rw [indentBlock, Text.lines] at hblock
          rw [h] at ih hblock
          rw [hsplit]
          split
          · next hd =>
              rw [hd, hang_newline, ← ih, ← hblock]
              rfl
          · next hd =>
              cases rest with
              | nil =>
                  rw [hang_other hd fun _ hs => (hhead.1 hs).2 rfl, ← ih]
                  rfl
              | cons next rest =>
                  simp only [hangLines] at ih ⊢
                  by_cases hreturn : d = '\r' ∧ line = []
                  · obtain ⟨rfl, rfl⟩ := hreturn
                    rw [hang_return (hhead.2 ⟨rfl, by simp⟩), ← ih]
                    rfl
                  · rw [dropReturn_cons fun hd hline => hreturn ⟨hd, hline⟩,
                      hang_other hd fun heq hs => hreturn ⟨heq, (hhead.1 hs).1⟩, ← ih]
                    rfl

/-- An indented text is the text laid out anew behind some blanks. -/
theorem indentBlock_eq_hang (hne : s ≠ []) (hs : s.getLast? ≠ some '\n') :
    indentBlock width s = hangingBlanks width s ++ hang width s := by
  rw [indentBlock_eq width hne hs, hangLines_eq hs]

end Viewloom.Script
