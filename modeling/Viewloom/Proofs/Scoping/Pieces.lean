import Viewloom.Proofs.Scoping.Grammar

/-!
# Pieces of stylesheets are read as pieces

Where no escape looks like something else, the scanner passes over the pieces of a prelude and finds its
end, and it leaves declarations as they are, however their braces are nested.
-/

namespace Viewloom.Css

/-! ## Strings and comments -/

/-- A comment ends at the first mark that can end it. -/
theorem splitComment_end {body : Text} (h : isOpen body = true) (s : Text) :
    splitComment (body ++ '*' :: '/' :: s) = (body ++ ['*', '/'], s) := by
  induction body using isOpen.induct with
  | case1 => rfl
  | case2 => simp [isOpen] at h
  | case3 c body hend ih =>
      rw [isOpen] at h
      · rw [List.cons_append, splitComment, ih h]
        · rfl
        · intro t hc ht
          cases body with
          | nil => simp at ht
          | cons d body =>
              obtain ⟨rfl, -⟩ := List.cons.inj ht
              exact hend body hc rfl
      · exact hend

/-- A quoted text ends at its own quote. -/
theorem splitQuoted_end {quote : Char} {body : Text} (hquote : quote ≠ '\\')
    (h : isBody quote body = true) (s : Text) :
    splitQuoted quote (body ++ quote :: s) = (body ++ [quote], s) := by
  induction body using isBody.induct with
  | case1 =>
      rw [List.nil_append, splitQuoted, if_pos rfl]
      · rfl
      · exact fun hq => absurd hq hquote
      · exact fun _ _ hq => absurd hq hquote
  | case2 => simp [isBody] at h
  | case3 c body ih =>
      rw [isBody] at h
      rw [List.cons_append, List.cons_append, splitQuoted, ih h]
      rfl
  | case4 c body hnil hcons ih =>
      have hc : c ≠ '\\' := ne_backslash hnil hcons
      rw [isBody, Bool.and_eq_true, bne_iff_ne] at h
      · rw [List.cons_append, splitQuoted, if_neg h.1, ih h.2]
        · rfl
        · exact fun hb => absurd hb hc
        · exact fun _ _ hb => absurd hb hc
      · exact hnil
      · exact hcons

theorem ne_backslash_of_isQuote {c : Char} (h : isQuote c = true) : c ≠ '\\' := by
  rintro rfl
  exact absurd h (by decide)

/-- No character inside of a quoted text is structural. -/
theorem quiet_quoted (quote : Quote) {body : Text} (h : isBody quote.1 body = true) :
    Quiet .plain (Piece.quoted quote body).text ∧
      Phase.plain.run (Piece.quoted quote body).text = .plain := by
  obtain ⟨quiet, closed⟩ := run_splitQuoted quote (body ++ quote.1 :: ['\n'])
  simp only [splitQuoted_end (ne_backslash_of_isQuote quote.2) h] at quiet closed
  have hopen : Phase.plain.step quote.1 = .quoted quote := by simp [Phase.step, quote.2]
  have hcode : (Phase.plain.isCode && isStructural quote.1) = false := by
    rcases quote with ⟨c, hc⟩
    simp only [isQuote, Bool.or_eq_true, beq_iff_eq] at hc
    rcases hc with rfl | rfl <;> rfl
  have htext : (Piece.quoted quote body).text = quote.1 :: (body ++ [quote.1]) := rfl
  rw [htext, Phase.run_cons, hopen]
  exact ⟨⟨hcode, hopen ▸ quiet⟩, by simpa using closed⟩

/-- No character inside of a comment is structural. -/
theorem quiet_comment {body : Text} (h : isOpen body = true) :
    Quiet .plain (Piece.comment body).text ∧ Phase.plain.run (Piece.comment body).text = .plain := by
  obtain ⟨quiet, closed⟩ := run_splitComment (body ++ '*' :: '/' :: ['\n'])
  simp only [splitComment_end h] at quiet closed
  have hopen : (Phase.plain.step '/').step '*' = .comment := rfl
  have htext : (Piece.comment body).text = '/' :: '*' :: (body ++ ['*', '/']) := rfl
  rw [htext, Phase.run_cons, Phase.run_cons, hopen]
  exact ⟨⟨rfl, rfl, hopen ▸ quiet⟩, by simpa using closed⟩

/-- The characters that count in a block. -/
def marksOf (blocks : List Block) : Char → Bool := if isDeclaring blocks then isBrace else isStructural

theorem isBrace_of_marksOf {blocks : List Block} {c : Char} (h : marksOf blocks c = false) :
    isBrace c = false := by
  unfold marksOf at h
  split at h
  · exact h
  · simp only [isStructural, Bool.or_eq_false_iff] at h
    simp [isBrace, h.1]

/-! ## Pieces -/

section Copying

variable {blocks : List Block} {s : Text}

/-- A character that counts for nothing is copied within declarations and joins the prelude outside
of them. -/
theorem scopeFrom_char (T : Text) {c : Char} (hmark : marksOf blocks c = false)
    (hquote : isQuote c = false) (hnext : c = '/' → s.head? ≠ some '*') :
    scopeFrom .plain blocks T (c :: s) =
      if isDeclaring blocks then c :: scopeFrom .plain blocks T s
      else scopeFrom .plain blocks (T ++ [c]) s := by
  have hstep : ∀ U, scopeFrom (Phase.plain.step c) blocks U s = scopeFrom .plain blocks U s := by
    intro U
    by_cases hc : c = '/'
    · subst hc
      exact scopeFrom_slash blocks U (hnext rfl)
    · simp [Phase.step, hquote, hc]
  have hbrace := isBrace_of_marksOf hmark
  simp only [isBrace, Bool.or_eq_false_iff, beq_eq_false_iff_ne] at hbrace
  rcases declaring_cases blocks with ⟨rest, rfl⟩ | ⟨hdeclaring, hblocks⟩
  · simp [scopeFrom, hbrace, hstep, isDeclaring]
  · have hsemi : c ≠ ';' := by
      rintro rfl
      simp [marksOf, hdeclaring, isStructural] at hmark
    rw [scopeFrom]
    · simp [hbrace, hsemi, hstep, hdeclaring]
    · exact hblocks

/-- So is a piece, if it is not followed by what would make it the opening of a comment. -/
theorem scopeFrom_piece (T : Text) {p : Piece} (hsound : p.isSound (marksOf blocks) = true)
    (hlegible : p.isLegible (marksOf blocks) = true)
    (hnext : p = .char '/' ∨ p = .escape '/' → s.head? ≠ some '*') :
    scopeFrom .plain blocks T (p.text ++ s) =
      if isDeclaring blocks then p.text ++ scopeFrom .plain blocks T s
      else scopeFrom .plain blocks (T ++ p.text) s := by
  cases p with
  | char c =>
      simp only [Piece.isSound, Bool.not_eq_true', Bool.or_eq_false_iff] at hsound
      refine scopeFrom_char T hsound.1.1 hsound.1.2 fun hc => hnext (Or.inl ?_)
      rw [hc]
  | escape c =>
      simp only [Piece.isLegible, Bool.not_eq_true', Bool.or_eq_false_iff] at hlegible
      have hbackslash : marksOf blocks '\\' = false := by
        unfold marksOf
        split <;> rfl
      have hafter : ∀ U, scopeFrom .plain blocks U (c :: s) =
          if isDeclaring blocks then c :: scopeFrom .plain blocks U s
          else scopeFrom .plain blocks (U ++ [c]) s := fun U =>
        scopeFrom_char U hlegible.1 hlegible.2 fun hc => hnext (Or.inr (by rw [hc]))
      rw [Piece.text, List.cons_append, List.cons_append, List.nil_append,
        scopeFrom_char T hbackslash rfl (by simp), hafter, hafter]
      split <;> simp
  | quoted quote body =>
      obtain ⟨quiet, closed⟩ := quiet_quoted quote hsound
      exact scopeFrom_append quiet (Or.inl closed) blocks T
  | comment body =>
      obtain ⟨quiet, closed⟩ := quiet_comment hsound
      exact scopeFrom_append quiet (Or.inl closed) blocks T

/-- A text of pieces begins with no star if neither the pieces nor what follows do. -/
theorem head?_textOf {ps : List Piece} (hps : ps.head? ≠ some (.char '*'))
    (hs : s.head? ≠ some '*') : (textOf ps ++ s).head? ≠ some '*' := by
  cases ps with
  | nil => exact hs
  | cons p ps =>
      cases p with
      | char c => simpa [textOf, Piece.text] using hps
      | escape c => simp [textOf, Piece.text]
      | quoted quote body =>
          rcases quote with ⟨c, hc⟩
          simp only [isQuote, Bool.or_eq_true, beq_iff_eq] at hc
          rcases hc with rfl | rfl <;> simp [textOf, Piece.text]
      | comment body => simp [textOf, Piece.text]

/-- Pieces stand apart if no slash is followed by a star. -/
theorem isApart_cons {slash p : Piece} {ps : List Piece} (h : isApart slash (p :: ps) = true) :
    (p = slash → ps.head? ≠ some (.char '*')) ∧ isApart slash ps = true := by
  simp only [isApart, Bool.and_eq_true, Bool.not_eq_true', Bool.and_eq_false_iff,
    beq_eq_false_iff_ne] at h
  exact ⟨fun hp => h.1.resolve_left (fun hne => hne hp), h.2⟩

/-- A piece that no asterisk makes the opening of a comment. -/
theorem head?_of_isApart {p : Piece} {ps : List Piece} (hslash : isApart (.char '/') (p :: ps) = true)
    (hescape : isApart (.escape '/') (p :: ps) = true) (hs : s.head? ≠ some '*') :
    p = .char '/' ∨ p = .escape '/' → (textOf ps ++ s).head? ≠ some '*' := by
  rintro (hp | hp)
  · exact head?_textOf ((isApart_cons hslash).1 hp) hs
  · exact head?_textOf ((isApart_cons hescape).1 hp) hs

/-- Pieces without marks are copied or join the prelude. -/
theorem scopeFrom_pieces (T : Text) {ps : List Piece}
    (hsound : ps.all (Piece.isSound (marksOf blocks)) = true)
    (hlegible : ps.all (Piece.isLegible (marksOf blocks)) = true)
    (hslash : isApart (.char '/') ps = true) (hescape : isApart (.escape '/') ps = true)
    (hs : s.head? ≠ some '*') :
    scopeFrom .plain blocks T (textOf ps ++ s) =
      if isDeclaring blocks then textOf ps ++ scopeFrom .plain blocks T s
      else scopeFrom .plain blocks (T ++ textOf ps) s := by
  induction ps generalizing T with
  | nil => split <;> simp [textOf]
  | cons p ps ih =>
      simp only [List.all_cons, Bool.and_eq_true] at hsound hlegible
      have htext : textOf (p :: ps) = p.text ++ textOf ps := rfl
      rw [htext, List.append_assoc, scopeFrom_piece T hsound.1 hlegible.1
        (head?_of_isApart hslash hescape hs)]
      have hrest := fun U => ih U hsound.2 hlegible.2 (isApart_cons hslash).2 (isApart_cons hescape).2
      split <;> simp_all

/-! ## Preludes and declarations -/

theorem isStructural_of_marksOf {c : Char} (h : marksOf blocks c = true) :
    isStructural c = true := by
  unfold marksOf at h
  split at h
  · simp only [isBrace] at h
    simp [isStructural, h]
  · exact h

/-- Pieces that hold no mark of a kind hold none of fewer marks. -/
theorem all_isSound_mono {marks marks' : Char → Bool}
    (hmarks : ∀ c, marks' c = true → marks c = true) {ps : List Piece}
    (h : ps.all (Piece.isSound marks) = true) : ps.all (Piece.isSound marks') = true := by
  refine List.all_eq_true.2 fun p hp => ?_
  have hsound := List.all_eq_true.1 h p hp
  cases p with
  | char c =>
      have hmark := hmarks c
      simp only [Piece.isSound] at hsound ⊢
      grind
  | _ => exact hsound

/-- Pieces that are legible beside some marks are so beside fewer. -/
theorem all_isLegible_mono {marks marks' : Char → Bool}
    (hmarks : ∀ c, marks' c = true → marks c = true) {ps : List Piece}
    (h : ps.all (Piece.isLegible marks) = true) : ps.all (Piece.isLegible marks') = true := by
  refine List.all_eq_true.2 fun p hp => ?_
  have hlegible := List.all_eq_true.1 h p hp
  cases p with
  | escape c =>
      have hmark := hmarks c
      simp only [Piece.isLegible] at hlegible ⊢
      grind
  | _ => rfl

/-- Preludes are copied within declarations. -/
theorem scopeFrom_phrase (T : Text) {marks : Char → Bool}
    (hmarks : ∀ c, isStructural c = true → marks c = true) {phrase : Phrase marks}
    (hlegible : phrase.isLegible isStructural = true) (hs : s.head? ≠ some '*') :
    scopeFrom .plain blocks T (phrase.text ++ s) =
      if isDeclaring blocks then phrase.text ++ scopeFrom .plain blocks T s
      else scopeFrom .plain blocks (T ++ phrase.text) s := by
  simp only [Phrase.isLegible, Bool.and_eq_true] at hlegible
  exact scopeFrom_pieces T
    (all_isSound_mono (fun c hc => hmarks c (isStructural_of_marksOf hc)) phrase.sound)
    (all_isLegible_mono (fun c hc => isStructural_of_marksOf hc) hlegible.1)
    phrase.apart hlegible.2 hs

/-- A brace inside of declarations opens further declarations. -/
theorem scopeFrom_open (T : Text) :
    scopeFrom .plain (.declarations :: blocks) T ('{' :: s) =
      '{' :: scopeFrom .plain (.declarations :: .declarations :: blocks) T s := by
  simp [scopeFrom, Phase.isCode]

/-- A closing brace inside of declarations closes them. -/
theorem scopeFrom_close (T : Text) :
    scopeFrom .plain (.declarations :: blocks) T ('}' :: s) = '}' :: scopeFrom .plain blocks T s := by
  simp [scopeFrom, Phase.isCode]

/-- Braces among declarations open and close blocks of declarations. -/
theorem scopeFrom_balanced (T : Text) {depth : Nat} {ps : List Piece}
    (hbalanced : isBalanced depth ps = true)
    (hsound : ps.all (Piece.isSound fun _ => false) = true)
    (hlegible : ps.all (Piece.isLegible isBrace) = true)
    (hslash : isApart (.char '/') ps = true) (hescape : isApart (.escape '/') ps = true)
    (hs : s.head? ≠ some '*') :
    scopeFrom .plain (List.replicate (depth + 1) .declarations ++ blocks) T (textOf ps ++ s) =
      textOf ps ++ scopeFrom .plain (.declarations :: blocks) T s := by
  -- The induction follows the braces: the depth is the number of blocks that these pieces have opened.
  induction depth, ps using isBalanced.induct with
  | case1 => simp [textOf]
  | case2 => simp [isBalanced] at hbalanced
  | case3 depth ps ih =>
      simp only [List.all_cons, Bool.and_eq_true] at hsound hlegible
      rw [isBalanced] at hbalanced
      have hrest := ih hbalanced hsound.2 hlegible.2 (isApart_cons hslash).2 (isApart_cons hescape).2
      have htext : ∀ t, textOf (.char '{' :: ps) ++ t = '{' :: (textOf ps ++ t) := fun _ => rfl
      rw [htext, htext, ← hrest, List.replicate_succ, List.cons_append, scopeFrom_open]
      rfl
  | case4 => simp [isBalanced] at hbalanced
  | case5 depth ps ih =>
      simp only [List.all_cons, Bool.and_eq_true] at hsound hlegible
      have hrest := ih hbalanced hsound.2 hlegible.2 (isApart_cons hslash).2 (isApart_cons hescape).2
      have htext : ∀ t, textOf (.char '}' :: ps) ++ t = '}' :: (textOf ps ++ t) := fun _ => rfl
      rw [htext, htext, ← hrest, List.replicate_succ, List.cons_append, scopeFrom_close]
  | case6 depth p ps hopen hnone hclose ih =>
      simp only [List.all_cons, Bool.and_eq_true] at hsound hlegible
      rw [isBalanced] at hbalanced
      · have hrest := ih hbalanced hsound.2 hlegible.2 (isApart_cons hslash).2
          (isApart_cons hescape).2
        have hp : p.isSound isBrace = true := by
          cases p with
          | char c =>
              have hc : isBrace c = false := by
                simp only [isBrace, Bool.or_eq_false_iff, beq_eq_false_iff_ne]
                refine ⟨fun h => hopen (by rw [h]), fun h => ?_⟩
                cases depth with
                | zero => exact hnone rfl (by rw [h])
                | succ depth => exact hclose depth rfl (by rw [h])
              simpa [Piece.isSound, hc] using hsound.1
          | _ => exact hsound.1
        have htext : textOf (p :: ps) = p.text ++ textOf ps := rfl
        rw [htext, List.append_assoc, List.append_assoc, ← hrest, List.replicate_succ,
          List.cons_append]
        exact scopeFrom_piece T hp hlegible.1 (head?_of_isApart hslash hescape hs)
      · exact hopen
      · exact hnone
      · exact hclose

/-- A block of declarations is copied. -/
theorem scopeFrom_declarations (T : Text) {declarations : Declarations}
    (hlegible : declarations.isLegible isBrace = true) :
    scopeFrom .plain (.declarations :: blocks) T (declarations.text ++ '}' :: s) =
      declarations.text ++ '}' :: scopeFrom .plain blocks T s := by
  simp only [Phrase.isLegible, Bool.and_eq_true] at hlegible
  have hcopy := @scopeFrom_balanced blocks ('}' :: s) T 0 declarations.pieces declarations.balanced
    declarations.sound hlegible.1 declarations.apart hlegible.2 (by simp)
  rw [scopeFrom_close] at hcopy
  exact hcopy

end Copying

end Viewloom.Css
