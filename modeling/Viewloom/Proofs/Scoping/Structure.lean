import Viewloom.Proofs.Scoping.Pieces

/-!
# Scoping follows the rules of a stylesheet

Each item of a stylesheet takes the scanner from one state between items to the next. Only an at-rule
behind a comment is taken for a rule, and its block for declarations.
-/

namespace Viewloom.Css

/-! ## At-rules -/

theorem isApart_cons_of_ne {slash p : Piece} (h : p ≠ slash) (ps : List Piece) :
    isApart slash (p :: ps) = isApart slash ps := by
  simp [isApart, h]

theorem isApart_map_char {slash : Piece} {s : Text} (h : ∀ c ∈ s, .char c ≠ slash) (ps : List Piece) :
    isApart slash (s.map Piece.char ++ ps) = isApart slash ps := by
  induction s with
  | nil => rfl
  | cons c s ih =>
      rw [List.map_cons, List.cons_append, isApart_cons_of_ne (h c (by simp)),
        ih fun d hd => h d (by simp [hd])]

/-- A point of a name is no structural character, quote, backslash or slash. -/
theorem isNamePoint_ne {c : Char} (h : isNamePoint c = true) :
    isStructural c = false ∧ isQuote c = false ∧ c ≠ '\\' ∧ c ≠ '/' := by
  revert h
  refine of_ascii (p := fun c => isNamePoint c = true →
    isStructural c = false ∧ isQuote c = false ∧ c ≠ '\\' ∧ c ≠ '/') ?_ ?_ c
  · decide +kernel
  · intro c hc _
    have hne : ∀ d : Char, d.toNat < 128 → c ≠ d := by
      rintro d hd rfl
      omega
    simp [isStructural, isQuote, hne]

namespace AtRule

variable (rule : AtRule)

/-- The at-sign and the name of an at-rule are pieces as well. -/
def phrase : Phrase isStructural where
  pieces := .char '@' :: rule.name.map Piece.char ++ rule.prelude.pieces
  sound := by
    have hpoints := List.all_eq_true.1 rule.points
    simp only [List.cons_append, List.all_cons, List.all_append, Bool.and_eq_true, rule.prelude.sound]
    refine ⟨rfl, List.all_eq_true.2 ?_, trivial⟩
    simp only [List.mem_map]
    rintro _ ⟨c, hc, rfl⟩
    obtain ⟨hmark, hquote, hbackslash, -⟩ := isNamePoint_ne (hpoints c hc)
    simp [Piece.isSound, hmark, hquote, hbackslash]
  apart := by
    have hpoints := List.all_eq_true.1 rule.points
    rw [List.cons_append, isApart_cons_of_ne (by simp), isApart_map_char, rule.prelude.apart]
    intro c hc
    simpa using (isNamePoint_ne (hpoints c hc)).2.2.2

theorem text_phrase : rule.phrase.text = rule.text := by
  have hname : (rule.name.map Piece.char).flatMap Piece.text = rule.name := by
    induction rule.name with
    | nil => rfl
    | cons c s ih => simp [Piece.text, ih]
  simp only [Phrase.text, phrase, text, textOf, List.flatMap_cons, List.cons_append,
    List.flatMap_append, hname]
  rfl

theorem isLegible_phrase :
    rule.phrase.isLegible isStructural = rule.prelude.isLegible isStructural := by
  have hchars : (rule.name.map Piece.char).all (Piece.isLegible isStructural) = true := by
    simp [Piece.isLegible]
  simp only [Phrase.isLegible, phrase, List.cons_append, List.all_cons, List.all_append, hchars]
  rw [isApart_cons_of_ne (by simp), isApart_map_char (by simp)]
  rfl

end AtRule

/-- White space is blank, and no structural character, quote or slash. -/
theorem marks_of_isSpace {c : Char} (h : isSpace c = true) :
    isStructural c = false ∧ isQuote c = false ∧ c ≠ '/' ∧ Unicode.isBlank c = true := by
  simp only [isSpace, Bool.or_eq_true, beq_iff_eq] at h
  rcases h with (((rfl | rfl) | rfl) | rfl) | rfl <;> decide +kernel

section Reading

variable {blocks : List Block} {s : Text}

theorem marksOf_eq_false {c : Char} (h : isStructural c = false) : marksOf blocks c = false := by
  cases hmark : marksOf blocks c with
  | false => rfl
  | true => rw [isStructural_of_marksOf hmark] at h; cases h

/-- A legible selector is copied inside of declarations and collected outside of them. -/
theorem scopeFrom_selector (T : Text) {selector : Selector}
    (hlegible : selector.isLegible isStructural = true) (hs : s.head? ≠ some '*') :
    scopeFrom .plain blocks T (selector.text ++ s) =
      if isDeclaring blocks then selector.text ++ scopeFrom .plain blocks T s
      else scopeFrom .plain blocks (T ++ selector.text) s :=
  scopeFrom_phrase T (fun c hc => by simp [isSelectorMark, hc]) hlegible hs

/-- The head of an at-rule is copied inside of declarations and collected outside of them. -/
theorem scopeFrom_head (T : Text) {head : AtRule}
    (hlegible : head.prelude.isLegible isStructural = true) (hs : s.head? ≠ some '*') :
    scopeFrom .plain blocks T (head.text ++ s) =
      if isDeclaring blocks then head.text ++ scopeFrom .plain blocks T s
      else scopeFrom .plain blocks (T ++ head.text) s := by
  rw [← head.text_phrase]
  exact scopeFrom_phrase T (fun _ hc => hc) (by rw [head.isLegible_phrase, hlegible]) hs

/-- White space is copied inside of declarations and collected outside of them. -/
theorem scopeFrom_space (T : Text) {c : Char} (h : isSpace c = true) :
    scopeFrom .plain blocks T (c :: s) =
      if isDeclaring blocks then c :: scopeFrom .plain blocks T s
      else scopeFrom .plain blocks (T ++ [c]) s := by
  obtain ⟨hmark, hquote, hslash, -⟩ := marks_of_isSpace h
  exact scopeFrom_char T (marksOf_eq_false hmark) hquote fun hc => absurd hc hslash

/-- A comment is copied inside of declarations and collected outside of them. -/
theorem scopeFrom_comment (T : Text) {body : Text} (h : isOpen body = true) :
    scopeFrom .plain blocks T ((Piece.comment body).text ++ s) =
      if isDeclaring blocks then (Piece.comment body).text ++ scopeFrom .plain blocks T s
      else scopeFrom .plain blocks (T ++ (Piece.comment body).text) s :=
  scopeFrom_piece T (p := .comment body) h rfl (by simp)

/-! ## Within declarations -/

theorem braced_append (before inner t : Text) :
    braced before inner ++ t = before ++ '{' :: (inner ++ '}' :: t) := by
  simp [braced]

mutual

/-- Within declarations an item is copied. -/
theorem scopeFrom_print_declaring (T : Text) : ∀ {item : Item}, item.isLegible = true →
    ∀ (blocks : List Block) (s : Text),
      scopeFrom .plain (.declarations :: blocks) T (item.print id ++ s) =
        item.print id ++ scopeFrom .plain (.declarations :: blocks) T s
  | .blank c h, _, blocks, s => scopeFrom_space T h
  | .comment body h, _, blocks, s => scopeFrom_comment T h
  | .rule selector declarations, legible, blocks, s => by
      rw [Item.isLegible, Bool.and_eq_true] at legible
      rw [Item.print, braced_append, braced_append, id, scopeFrom_selector T legible.1 (by simp),
        isDeclaring, if_pos rfl, scopeFrom_open, scopeFrom_declarations T legible.2]
  | .statement head, legible, blocks, s => by
      have hsemi : scopeFrom .plain (.declarations :: blocks) T (';' :: s) =
          ';' :: scopeFrom .plain (.declarations :: blocks) T s :=
        scopeFrom_char T rfl rfl (by simp)
      rw [Item.print, List.append_assoc, List.append_assoc, scopeFrom_head T legible (by simp),
        isDeclaring, if_pos rfl, List.singleton_append, hsemi, List.singleton_append]
  | .block head h content, legible, blocks, s => by
      simp only [Item.isLegible, Bool.and_eq_true] at legible
      rw [Item.print, braced_append, braced_append, scopeFrom_head T legible.1.2 (by simp),
        isDeclaring, if_pos rfl, scopeFrom_open, scopeFrom_declarations T legible.2]
  | .group head h items, legible, blocks, s => by
      simp only [Item.isLegible, Bool.and_eq_true] at legible
      rw [Item.print, braced_append, braced_append, scopeFrom_head T legible.1.2 (by simp),
        isDeclaring, if_pos rfl, scopeFrom_open, scopeFrom_printAll_declaring T legible.2, scopeFrom_close]

/-- Inside of declarations legible items are copied. -/
theorem scopeFrom_printAll_declaring (T : Text) : ∀ {items : List Item},
    Item.isLegibleAll items = true → ∀ (blocks : List Block) (s : Text),
      scopeFrom .plain (.declarations :: blocks) T (Item.printAll id items ++ s) =
        Item.printAll id items ++ scopeFrom .plain (.declarations :: blocks) T s
  | [], _, _, _ => rfl
  | item :: items, legible, blocks, s => by
      rw [Item.isLegibleAll, Bool.and_eq_true] at legible
      rw [Item.printAll, List.append_assoc, List.append_assoc,
        scopeFrom_print_declaring T legible.1, scopeFrom_printAll_declaring T legible.2]

end

/-! ## Between items -/

/-- Blanks and comments; the flag tells whether there is a comment among them. -/
inductive Gap : Bool → Text → Prop where
  | nil : Gap false []
  | space {commented : Bool} {T : Text} (gap : Gap commented T) {c : Char} (h : isSpace c = true) :
      Gap commented (T ++ [c])
  | comment {commented : Bool} {T : Text} (gap : Gap commented T) {body : Text}
      (h : isOpen body = true) : Gap true (T ++ (Piece.comment body).text)

variable {commented : Bool} {T : Text}

theorem trimStart_cons {c : Char} (h : Unicode.isBlank c = true) (t : Text) :
    Text.trimStart (c :: t) = Text.trimStart t := by
  simp [Text.trimStart, h]

/-- Blanks are trimmed away, and comments are not. -/
theorem Gap.trimStart (gap : Gap commented T) (t : Text) :
    if commented then (Text.trimStart (T ++ t)).head? = some '/'
    else Text.trimStart (T ++ t) = Text.trimStart t := by
  induction gap generalizing t with
  | nil => rfl
  | @space commented T gap c h ih =>
      have hblank := (marks_of_isSpace h).2.2.2
      specialize ih (c :: t)
      rw [trimStart_cons hblank] at ih
      rwa [List.append_assoc, List.singleton_append]
  | @comment commented T gap body h ih =>
      specialize ih ((Piece.comment body).text ++ t)
      rw [if_pos rfl, List.append_assoc]
      cases commented with
      | true => exact ih
      | false =>
          rw [if_neg (by simp)] at ih
          rw [ih]
          rfl

theorem scopeSelector_space {c : Char} (h : isSpace c = true) (t : Text) :
    scopeSelector (c :: t) = c :: scopeSelector t := by
  simp only [isSpace, Bool.or_eq_true, beq_iff_eq] at h
  unfold scopeSelector
  rcases h with (((rfl | rfl) | rfl) | rfl) | rfl <;>
    simp [scopeSelectorAt, isQuote, namesClass, bracketDepth]

theorem scopeSelector_comment {body : Text} (h : isOpen body = true) (t : Text) :
    scopeSelector ((Piece.comment body).text ++ t) = (Piece.comment body).text ++ scopeSelector t := by
  have htext : ∀ u, (Piece.comment body).text ++ u = '/' :: '*' :: (body ++ '*' :: '/' :: u) := by
    simp [Piece.text]
  rw [htext, htext, scopeSelector, scopeSelectorAt, splitComment_end h]
  simp [scopeSelector]

/-- The gap in front of a selector is copied. -/
theorem Gap.scopeSelector (gap : Gap commented T) (t : Text) :
    Css.scopeSelector (T ++ t) = T ++ Css.scopeSelector t := by
  induction gap generalizing t with
  | nil => rfl
  | space _ h ih => rw [List.append_assoc, ih, List.singleton_append, scopeSelector_space h]; simp
  | comment _ h ih => rw [List.append_assoc, ih, scopeSelector_comment h, List.append_assoc]

theorem trimStart_solid {c : Char} (h : Unicode.isBlank c = false) (t : Text) :
    Text.trimStart (c :: t) = c :: t := by
  simp [Text.trimStart, h]

theorem solid_of_isQuote {c : Char} (h : isQuote c = true) :
    Unicode.isBlank c = false ∧ c ≠ '@' := by
  simp only [isQuote, Bool.or_eq_true, beq_iff_eq] at h
  rcases h with rfl | rfl <;> decide

/-- A selector does not begin with the sign of an at-rule. -/
theorem head?_trimStart_selector {ps : List Piece}
    (hsound : ps.all (Piece.isSound isSelectorMark) = true) :
    (Text.trimStart (textOf ps)).head? ≠ some '@' := by
  induction ps with
  | nil => simp [textOf, Text.trimStart]
  | cons p ps ih =>
      simp only [List.all_cons, Bool.and_eq_true] at hsound
      have htext : textOf (p :: ps) = p.text ++ textOf ps := rfl
      rw [htext]
      cases p with
      | char c =>
          have hc : c ≠ '@' := by
            rintro rfl
            exact absurd hsound.1 (by decide)
          rw [Piece.text, List.singleton_append]
          by_cases hblank : Unicode.isBlank c = true
          · rw [trimStart_cons hblank]
            exact ih hsound.2
          · rw [trimStart_solid (by simpa using hblank)]
            simpa using hc
      | escape c =>
          rw [Piece.text, List.cons_append, trimStart_solid (by decide)]
          simp
      | quoted quote body =>
          obtain ⟨hblank, hat⟩ := solid_of_isQuote quote.2
          rw [Piece.text, List.cons_append, List.cons_append, trimStart_solid hblank]
          simpa using hat
      | comment body =>
          rw [Piece.text, List.cons_append, List.cons_append, trimStart_solid (by decide)]
          simp

/-- Behind a gap an at-rule is recognized exactly if the gap holds no comment. -/
theorem Gap.isAtRule (gap : Gap commented T) (t : Text) :
    Css.isAtRule (T ++ t) = (!commented && Css.isAtRule t) := by
  have htrim := gap.trimStart t
  cases commented with
  | true => simpa [Css.isAtRule] using by rw [htrim]; decide
  | false => simpa [Css.isAtRule] using by rw [htrim]

/-- Behind any gap a selector is scoped and opens declarations. -/
theorem Gap.scopePrelude_selector (gap : Gap commented T) (selector : Selector) :
    scopePrelude (T ++ selector.text) = T ++ Css.scopeSelector selector.text ∧
      blockOf (T ++ selector.text) = .declarations := by
  have hrule : Css.isAtRule selector.text = false := by
    simpa [Css.isAtRule, Phrase.text] using head?_trimStart_selector selector.sound
  simp [scopePrelude, blockOf, gap.isAtRule, hrule, gap.scopeSelector]

theorem AtRule.trimStart_text (head : AtRule) : Text.trimStart head.text = head.text := by
  rw [AtRule.text, List.cons_append, trimStart_solid (by decide)]

theorem AtRule.isAtRule_text (head : AtRule) : isAtRule head.text = true := by
  rw [isAtRule, head.trimStart_text]
  rfl

/-- The name of an at-rule is read up to its first character that is no letter, digit or hyphen. -/
theorem AtRule.atRuleName_text (head : AtRule) : atRuleName head.text =
    Text.lowerAscii (head.name.takeWhile fun c => c.isAlphanum || c == '-') := by
  have hstop : head.prelude.text.takeWhile (fun c => c.isAlphanum || c == '-') = [] := by
    have hends := head.ends
    cases htext : head.prelude.text with
    | nil => rfl
    | cons c s =>
        simp only [htext, List.head?_cons, Option.all_some, isNamePoint] at hends
        simp only [List.takeWhile_cons]
        grind
  rw [atRuleName, head.trimStart_text, AtRule.text, List.cons_append, List.tail_cons,
    List.takeWhile_append, hstop]
  split
  · next h => rw [List.append_nil, (List.takeWhile_prefix _).eq_of_length h]
  · rfl

/-- The head of an at-rule is read as such unless a comment stands before it. -/
theorem Gap.scopePrelude_head (gap : Gap commented T) {head : AtRule} (h : head.isRead = true) :
    scopePrelude (T ++ head.text) =
        T ++ (if commented then Css.scopeSelector head.text else head.text) ∧
      blockOf (T ++ head.text) =
        if commented then .declarations else if head.isGrouping then .rules else .declarations := by
  rw [AtRule.isRead, beq_iff_eq, ← head.atRuleName_text] at h
  have htrim := gap.trimStart head.text
  cases commented with
  | true => simp [scopePrelude, blockOf, gap.isAtRule, gap.scopeSelector]
  | false =>
      have hname : atRuleName (T ++ head.text) = atRuleName head.text := by
        rw [atRuleName, htrim]
        rfl
      simp [scopePrelude, blockOf, gap.isAtRule, head.isAtRule_text, hname, h]

end Reading

/-! ## What scoping makes of a stylesheet -/

mutual

/-- What scoping makes of an item, given whether a comment stands before it. -/
def Item.scoped (commented : Bool) : Item → Text
  | .blank c _ => [c]
  | .comment body _ => (Piece.comment body).text
  | .rule selector declarations => braced (scopeSelector selector.text) declarations.text
  | .statement head => head.text ++ [';']
  | .block head _ content =>
    braced (if commented then scopeSelector head.text else head.text) content.text
  | .group head _ items =>
    if commented then braced (scopeSelector head.text) (printAll id items)
    else braced head.text (scopedAll false items)

def Item.scopedAll (commented : Bool) : List Item → Text
  | [] => []
  | item :: items => item.scoped commented ++ scopedAll (item.commentsNext commented) items

end

section Rules

variable {blocks : List Block} {commented : Bool} {T s : Text}

theorem ne_of_isDeclaring (h : isDeclaring blocks = false) (rest : List Block) :
    blocks ≠ .declarations :: rest := by
  rintro rfl
  cases h

/-- Outside of declarations a brace scopes what is collected and opens the kind of block it names.
-/
theorem scopeFrom_block (h : isDeclaring blocks = false) :
    scopeFrom .plain blocks T ('{' :: s) =
      scopePrelude T ++ '{' :: scopeFrom .plain (blockOf T :: blocks) [] s := by
  rw [scopeFrom]
  · rfl
  · exact ne_of_isDeclaring h

/-- Outside of declarations a semicolon ends what is collected and leaves it as it is. -/
theorem scopeFrom_semicolon (h : isDeclaring blocks = false) :
    scopeFrom .plain blocks T (';' :: s) = T ++ ';' :: scopeFrom .plain blocks [] s := by
  rw [scopeFrom]
  · rfl
  · exact ne_of_isDeclaring h

/-- What waits for a brace is left over at the end of a block. -/
theorem scopeFrom_end (h : isDeclaring blocks = false) (hs : s = [] ∨ ∃ t, s = '}' :: t) :
    scopeFrom .plain blocks T s = T ++ scopeFrom .plain blocks [] s := by
  rcases hs with rfl | ⟨t, rfl⟩
  · simp
  · rw [scopeFrom, scopeFrom]
    · rfl
    · exact ne_of_isDeclaring h
    · exact ne_of_isDeclaring h

/-- A rule behind a gap is written as its scoped form, and the rest is scoped from there. -/
theorem scopeFrom_rule (gap : Gap commented T) (h : isDeclaring blocks = false)
    {selector : Selector} {declarations : Declarations}
    (legible : (Item.rule selector declarations).isLegible = true) :
    scopeFrom .plain blocks T ((Item.rule selector declarations).print id ++ s) =
      T ++ (Item.rule selector declarations).scoped commented ++ scopeFrom .plain blocks [] s := by
  rw [Item.isLegible, Bool.and_eq_true] at legible
  obtain ⟨hprelude, hblock⟩ := gap.scopePrelude_selector selector
  rw [Item.print, braced_append, id, scopeFrom_selector T legible.1 (by simp), h, if_neg (by simp),
    scopeFrom_block h, hprelude, hblock, scopeFrom_declarations [] legible.2, Item.scoped,
    List.append_assoc, List.append_assoc, braced_append]

/-- A statement is written as it is, and the rest is scoped from there. -/
theorem scopeFrom_statement (commented : Bool) (h : isDeclaring blocks = false) {head : AtRule}
    (legible : (Item.statement head).isLegible = true) :
    scopeFrom .plain blocks T ((Item.statement head).print id ++ s) =
      T ++ (Item.statement head).scoped commented ++ scopeFrom .plain blocks [] s := by
  rw [Item.print, List.append_assoc, scopeFrom_head T legible (by simp), h, if_neg (by simp),
    List.singleton_append, scopeFrom_semicolon h, Item.scoped]
  simp

/-- A block of an at-rule that groups no rules is written as its scoped form. -/
theorem scopeFrom_atBlock (gap : Gap commented T) (hd : isDeclaring blocks = false) {head : AtRule}
    {h : head.isGrouping = false} {content : Declarations}
    (legible : (Item.block head h content).isLegible = true) :
    scopeFrom .plain blocks T ((Item.block head h content).print id ++ s) =
      T ++ (Item.block head h content).scoped commented ++ scopeFrom .plain blocks [] s := by
  simp only [Item.isLegible, Bool.and_eq_true] at legible
  obtain ⟨hprelude, hblock⟩ := gap.scopePrelude_head legible.1.1
  have hdeclarations : blockOf (T ++ head.text) = .declarations := by simp [hblock, h]
  rw [Item.print, braced_append, scopeFrom_head T legible.1.2 (by simp), hd, if_neg (by simp),
    scopeFrom_block hd, hprelude, hdeclarations, scopeFrom_declarations [] legible.2, Item.scoped,
    List.append_assoc, List.append_assoc, braced_append]

/-- The items of a grouping at-rule are gone through, unless they are taken for declarations. -/
theorem scopeFrom_group (gap : Gap commented T) (hd : isDeclaring blocks = false) {head : AtRule}
    {h : head.isGrouping = true} {items : List Item}
    (legible : (Item.group head h items).isLegible = true)
    (hitems : scopeFrom .plain (.rules :: blocks) [] (Item.printAll id items ++ '}' :: s) =
      Item.scopedAll false items ++ scopeFrom .plain (.rules :: blocks) [] ('}' :: s)) :
    scopeFrom .plain blocks T ((Item.group head h items).print id ++ s) =
      T ++ (Item.group head h items).scoped commented ++ scopeFrom .plain blocks [] s := by
  simp only [Item.isLegible, Bool.and_eq_true] at legible
  obtain ⟨hprelude, hblock⟩ := gap.scopePrelude_head legible.1.1
  have hclose : scopeFrom .plain (.rules :: blocks) [] ('}' :: s) =
      '}' :: scopeFrom .plain blocks [] s := rfl
  rw [Item.print, braced_append, scopeFrom_head T legible.1.2 (by simp), hd, if_neg (by simp),
    scopeFrom_block hd, hprelude, hblock, Item.scoped, List.append_assoc, List.append_assoc]
  cases commented with
  | true =>
      rw [if_pos rfl, if_pos rfl, if_pos rfl, scopeFrom_printAll_declaring [] legible.2,
        scopeFrom_close, braced_append]
  | false =>
      rw [if_neg Bool.false_ne_true, if_neg Bool.false_ne_true, if_neg Bool.false_ne_true, if_pos h,
        hitems, hclose, braced_append]

/-- The scanner goes through the items of a block, in which there are rules. -/
theorem scopeFrom_printAll : ∀ {items : List Item}, Item.isLegibleAll items = true →
    ∀ {commented : Bool} {T : Text}, Gap commented T →
      ∀ {blocks : List Block}, isDeclaring blocks = false →
        ∀ {s : Text}, (s = [] ∨ ∃ t, s = '}' :: t) →
          scopeFrom .plain blocks T (Item.printAll id items ++ s) =
            T ++ Item.scopedAll commented items ++ scopeFrom .plain blocks [] s
  | [], _, _, _, _, _, h, _, hs => by
      rw [Item.printAll, Item.scopedAll, List.append_nil, List.nil_append]
      exact scopeFrom_end h hs
  -- Blanks and comments are held back, and every other item uses up what has been held back.
  | .blank c hc :: items, legible, commented, T, gap, blocks, h, s, hs => by
      rw [Item.isLegibleAll, Bool.and_eq_true] at legible
      rw [Item.printAll, Item.print, List.append_assoc, List.singleton_append,
        scopeFrom_space T hc, h, if_neg (by simp), scopeFrom_printAll legible.2 (gap.space hc) h hs]
      simp [Item.scopedAll, Item.scoped, Item.commentsNext]
  | .comment body hbody :: items, legible, commented, T, gap, blocks, h, s, hs => by
      rw [Item.isLegibleAll, Bool.and_eq_true] at legible
      rw [Item.printAll, Item.print, List.append_assoc, scopeFrom_comment T hbody, h,
        if_neg (by simp), scopeFrom_printAll legible.2 (gap.comment hbody) h hs]
      simp [Item.scopedAll, Item.scoped, Item.commentsNext]
  | .rule selector declarations :: items, legible, commented, T, gap, blocks, h, s, hs => by
      rw [Item.isLegibleAll, Bool.and_eq_true] at legible
      rw [Item.printAll, List.append_assoc, scopeFrom_rule gap h legible.1,
        scopeFrom_printAll legible.2 .nil h hs]
      simp [Item.scopedAll, Item.commentsNext]
  | .statement head :: items, legible, commented, T, gap, blocks, h, s, hs => by
      rw [Item.isLegibleAll, Bool.and_eq_true] at legible
      rw [Item.printAll, List.append_assoc, scopeFrom_statement commented h legible.1,
        scopeFrom_printAll legible.2 .nil h hs]
      simp [Item.scopedAll, Item.commentsNext]
  | .block head _ content :: items, legible, commented, T, gap, blocks, h, s, hs => by
      rw [Item.isLegibleAll, Bool.and_eq_true] at legible
      rw [Item.printAll, List.append_assoc, scopeFrom_atBlock gap h legible.1,
        scopeFrom_printAll legible.2 .nil h hs]
      simp [Item.scopedAll, Item.commentsNext]
  | .group head _ inner :: items, legible, commented, T, gap, blocks, h, s, hs => by
      rw [Item.isLegibleAll, Bool.and_eq_true] at legible
      have hlegible : Item.isLegibleAll inner = true := by
        simp only [Item.isLegible, Bool.and_eq_true] at legible
        exact legible.1.2
      have hrules : isDeclaring (.rules :: blocks) = false := rfl
      have hinner := scopeFrom_printAll hlegible .nil hrules
        (s := '}' :: (Item.printAll id items ++ s)) (Or.inr ⟨_, rfl⟩)
      rw [Item.printAll, List.append_assoc, scopeFrom_group gap h legible.1 hinner,
        scopeFrom_printAll legible.2 .nil h hs]
      simp [Item.scopedAll, Item.commentsNext]

/-- What scoping makes of a whole stylesheet. -/
theorem scopeStylesheet_printAll {sheet : List Item} (legible : Item.isLegibleAll sheet = true) :
    scopeStylesheet (Item.printAll id sheet) = Item.scopedAll false sheet := by
  rw [scopeStylesheet, scopeTokens_tokens]
  have hempty : isDeclaring [] = false := rfl
  simpa using scopeFrom_printAll legible .nil hempty (Or.inl rfl)

end Rules

/-! ## Where the rules are recognized -/

mutual

/-- Behind a comment an at-rule has nothing that scoping would have to tell from a rule. -/
def Item.Recognized (commented : Bool) : Item → Prop
  | .block head _ _ => commented = true → scopeSelector head.text = head.text
  | .group head _ items =>
    if commented then
      scopeSelector head.text = head.text ∧ printAll id items = printAll scopeSelector items
    else RecognizedAll false items
  | _ => True

def Item.RecognizedAll (commented : Bool) : List Item → Prop
  | [] => True
  | item :: items => item.Recognized commented ∧ RecognizedAll (item.commentsNext commented) items

end

theorem head?_splitName (s : Text) : (splitName s).2.head?.all (fun c => !isNameChar c) = true := by
  fun_induction splitName s <;> simp_all

/-- A name that is not scoped yet is told from the scoped one, if no character of a name follows it. -/
theorem scopeClassName_eq_of_append {s x y : Text}
    (hx : x.head?.all (fun c => !isNameChar c) = true) (h : scopeClassName s ++ y = s ++ x) :
    scopeClassName s = s := by
  unfold scopeClassName at h ⊢
  split at h
  · next hscoped => rw [if_pos hscoped]
  · next hscoped =>
    have hprefix : classScope <+: s ++ x := ⟨s ++ y, by rw [← List.append_assoc, h]⟩
    exact absurd ( List.isPrefixOf_iff_prefix.2 (prefix_of_append hx hprefix)) hscoped

/-- In front of a brace a selector is told from the scoped one. -/
theorem scopeSelectorAt_eq_of_append {depth : Nat} {s x y : Text}
    (h : scopeSelectorAt depth s ++ '{' :: x = s ++ '{' :: y) :
    scopeSelectorAt depth s = s ∧ x = y := by
  induction depth, s using scopeSelectorAt.induct with
  | case1 => simpa [scopeSelectorAt] using h
  | case2 depth s ih =>
      have hs := splitComment_append s
      rw [scopeSelectorAt] at h ⊢
      generalize splitComment s = p at hs ih h ⊢
      subst hs
      obtain ⟨hrest, hxy⟩ := ih (by simpa using h)
      exact ⟨by rw [hrest, List.cons_append, List.cons_append], hxy⟩
  | case3 depth c s hslash hc ih =>
      have hs := splitQuoted_append c s
      rw [scopeSelectorAt, if_pos hc] at h ⊢
      · generalize splitQuoted c s = p at hs ih h ⊢
        subst hs
        obtain ⟨hrest, hxy⟩ := ih (by simpa using h)
        exact ⟨by rw [hrest, List.cons_append], hxy⟩
      · exact hslash
      · exact hslash
  | case4 depth c s hslash hc hname ih =>
      have hs := splitName_append s
      have hend := head?_splitName s
      rw [scopeSelectorAt, if_neg hc, if_pos hname] at h ⊢
      · generalize splitName s = p at hs hend ih h ⊢
        subst hs
        -- The name ends in the text as well, so a scope written before it would show.
        have hbehind : (p.2 ++ '{' :: y).head?.all (fun c => !isNameChar c) = true := by
          cases hp : p.2 with
          | nil =>
              rw [List.nil_append, List.head?_cons]
              decide +kernel
          | cons d t => simpa [hp] using hend
        have hclass : scopeClassName p.1 = p.1 :=
          scopeClassName_eq_of_append (y := scopeSelectorAt depth p.2 ++ '{' :: x) hbehind
            (by simpa using h)
        rw [hclass] at h ⊢
        obtain ⟨hrest, hxy⟩ := ih (by simpa using h)
        exact ⟨by rw [hrest, List.cons_append], hxy⟩
      · exact hslash
      · exact hslash
  | case5 depth c s hslash hc hname ih =>
      rw [scopeSelectorAt, if_neg hc, if_neg hname] at h ⊢
      · obtain ⟨hrest, hxy⟩ := ih (by simpa using h)
        exact ⟨by rw [hrest], hxy⟩
      · exact hslash
      · exact hslash

/-- In front of a brace a selector is told from its scoped form. -/
theorem scopeSelector_append_eq_iff {s x y : Text} :
    scopeSelector s ++ '{' :: x = s ++ '{' :: y ↔ scopeSelector s = s ∧ x = y := by
  constructor
  · exact scopeSelectorAt_eq_of_append
  · rintro ⟨hs, rfl⟩
    rw [hs]

theorem braced_append_eq_iff {before x y s t : Text} :
    braced before x ++ s = braced before y ++ t ↔ x ++ '}' :: s = y ++ '}' :: t := by
  rw [braced_append, braced_append, List.append_cancel_left_eq, List.cons.injEq,
    and_iff_right rfl]

mutual

/-- An item is told from the scoped one, whatever follows. -/
theorem print_eq_of_append : ∀ {item : Item} {x y : Text},
    item.print id ++ x = item.print scopeSelector ++ y →
      item.print id = item.print scopeSelector ∧ x = y
  | .blank _ _, _, _, h => ⟨rfl, List.append_cancel_left h⟩
  | .comment _ _, _, _, h => ⟨rfl, List.append_cancel_left h⟩
  | .statement _, _, _, h => ⟨rfl, List.append_cancel_left h⟩
  | .block _ _ _, _, _, h => ⟨rfl, List.append_cancel_left h⟩
  | .rule selector declarations, x, y, h => by
      rw [Item.print, Item.print, braced_append, braced_append, id] at h
      obtain ⟨hselector, hrest⟩ := scopeSelector_append_eq_iff.1 h.symm
      rw [Item.print, Item.print, hselector]
      exact ⟨rfl, by simpa using hrest.symm⟩
  | .group head _ items, x, y, h => by
      rw [Item.print, Item.print, braced_append_eq_iff] at h
      obtain ⟨hitems, hrest⟩ := printAll_eq_of_append h
      rw [Item.print, Item.print, hitems]
      exact ⟨rfl, by simpa using hrest⟩

/-- Items that agree with their scoped form in front of some text are their scoped form. -/
theorem printAll_eq_of_append : ∀ {items : List Item} {x y : Text},
    Item.printAll id items ++ x = Item.printAll scopeSelector items ++ y →
      Item.printAll id items = Item.printAll scopeSelector items ∧ x = y
  | [], _, _, h => ⟨rfl, h⟩
  | item :: items, x, y, h => by
      rw [Item.printAll, Item.printAll, List.append_assoc, List.append_assoc] at h
      obtain ⟨hitem, hitems⟩ := print_eq_of_append h
      obtain ⟨hrest, hxy⟩ := printAll_eq_of_append hitems
      rw [Item.printAll, Item.printAll, hitem, hrest]
      exact ⟨rfl, hxy⟩

end

mutual

/-- An item is written as its scoped form exactly if it is recognized. -/
theorem scoped_append_eq_iff : ∀ {item : Item} {commented : Bool} {x y : Text},
    item.scoped commented ++ x = item.print scopeSelector ++ y ↔ item.Recognized commented ∧ x = y
  | .blank _ _, _, _, _ => by simp [Item.scoped, Item.print, Item.Recognized]
  | .comment _ _, _, _, _ => by simp [Item.scoped, Item.print, Item.Recognized]
  | .statement _, _, _, _ => by simp [Item.scoped, Item.print, Item.Recognized]
  | .rule _ _, _, _, _ => by simp [Item.scoped, Item.print, Item.Recognized]
  | .block head _ content, true, x, y => by
      rw [Item.scoped, Item.print, if_pos rfl, braced_append, braced_append,
        scopeSelector_append_eq_iff]
      simp [Item.Recognized]
  | .block head _ content, false, x, y => by simp [Item.scoped, Item.print, Item.Recognized]
  | .group head _ items, true, x, y => by
      rw [Item.scoped, Item.print, if_pos rfl, braced_append, braced_append,
        scopeSelector_append_eq_iff, Item.Recognized, if_pos rfl, and_assoc]
      refine and_congr_right fun _ => ⟨fun h => ?_, ?_⟩
      · obtain ⟨hitems, hrest⟩ := printAll_eq_of_append h
        exact ⟨hitems, by simpa using hrest⟩
      · rintro ⟨hitems, rfl⟩
        rw [hitems]
  | .group head _ items, false, x, y => by
      rw [Item.scoped, Item.print, if_neg (by simp), braced_append_eq_iff, scopedAll_append_eq_iff,
        Item.Recognized, if_neg (by simp), List.cons.injEq, and_iff_right rfl]

/-- Items are written as their scoped form exactly if each of them is recognized where it stands. -/
theorem scopedAll_append_eq_iff : ∀ {items : List Item} {commented : Bool} {x y : Text},
    Item.scopedAll commented items ++ x = Item.printAll scopeSelector items ++ y ↔
      Item.RecognizedAll commented items ∧ x = y
  | [], _, _, _ => by simp [Item.scopedAll, Item.printAll, Item.RecognizedAll]
  | item :: items, commented, x, y => by
      rw [Item.scopedAll, Item.printAll, List.append_assoc, List.append_assoc,
        scoped_append_eq_iff, scopedAll_append_eq_iff, Item.RecognizedAll, and_assoc]

end

/-- A stylesheet in which escapes look like nothing else is scoped by its rules, at every depth, exactly
if no at-rule with something to scope in it stands behind a comment. -/
theorem scopeStylesheet_printAll_iff {sheet : List Item} (legible : Item.isLegibleAll sheet = true) :
    scopeStylesheet (Item.printAll id sheet) = Item.printAll scopeSelector sheet ↔
      Item.RecognizedAll false sheet := by
  have h : Item.scopedAll false sheet ++ [] = Item.printAll scopeSelector sheet ++ [] ↔
      Item.RecognizedAll false sheet ∧ [] = [] := scopedAll_append_eq_iff
  simpa [scopeStylesheet_printAll legible] using h

/-- A rule in two at-rules behind a statement, with a comment, a string and an escape. -/
def nestedSheet : List Item :=
  [.statement ⟨text "import", ⟨[.char ' ', .quoted ⟨'"', rfl⟩ (text "a;b")], by decide, by decide⟩,
      by decide, by decide⟩,
    .blank '\n' rfl,
    .group ⟨text "media", ⟨(text " print ").map .char, by decide, by decide⟩, by decide, by decide⟩
      (by decide)
      [.blank ' ' rfl,
        .group ⟨text "supports", ⟨(text " (c:d)").map .char, by decide, by decide⟩, by decide,
            by decide⟩ (by decide)
          [.comment (text " .e ") (by decide),
            .rule
              ⟨.comment (text "@") :: (text ".f").map .char ++ .escape ':' :: (text "g > .h").map .char,
                by decide, by decide⟩
              ⟨⟨(text "i: .j").map .char, by decide, by decide⟩, by decide⟩]]]

theorem scopeStylesheet_printAll_iff_nestedSheet : Item.isLegibleAll nestedSheet = true ∧
    scopeStylesheet (Item.printAll id nestedSheet) = Item.printAll scopeSelector nestedSheet ∧
      Item.printAll scopeSelector nestedSheet =
        text "@import \"a;b\";\n@media print \x7b @supports (c:d)\x7b" ++
          text "/* .e *//*@*/.__af-f\\:g > .__af-h\x7bi: .j\x7d\x7d\x7d" := by
  have legible : Item.isLegibleAll nestedSheet = true := by decide +kernel
  refine ⟨legible, (scopeStylesheet_printAll_iff legible).2 ?_, by decide +kernel⟩
  simp [nestedSheet, Item.RecognizedAll, Item.Recognized, Item.commentsNext]

/-- Behind a comment the rules of an at-rule are not scoped. -/
example : scopeStylesheet (text "/**/@media print\x7b.a\x7b\x7d\x7d.b\x7b\x7d") =
    text "/**/@media print\x7b.a\x7b\x7d\x7d.__af-b\x7b\x7d" := by
  decide +kernel

end Viewloom.Css
