import Viewloom.Css.Stylesheet

/-!
# Lexical phases of stylesheets

A stylesheet is read character by character. The phase tells whether the next character stands in
code, in a comment or in a string. Scoping by phases is scoping by tokens.
-/

namespace Viewloom.Css

abbrev Quote := { c : Char // isQuote c = true }

/-- What the next character belongs to. A slash may begin a comment, and an asterisk may end one. -/
inductive Phase where
  | plain
  | slash
  | comment
  | star
  | quoted (quote : Quote)
  | escaped (quote : Quote)
  deriving DecidableEq

namespace Phase

/-- Where the scanner stands behind a character. -/
def step : Phase → Char → Phase
  | plain, c => if h : isQuote c then quoted ⟨c, h⟩ else if c = '/' then slash else plain
  | slash, c =>
    if c = '*' then comment
    else if h : isQuote c then quoted ⟨c, h⟩
    else if c = '/' then slash
    else plain
  | comment, c => if c = '*' then star else comment
  | star, c => if c = '/' then plain else if c = '*' then star else comment
  | quoted q, c => if c = '\\' then escaped q else if c = q.1 then plain else quoted q
  | escaped q, _ => quoted q

def run (phase : Phase) (s : Text) : Phase := s.foldl step phase

/-- Whether braces and semicolons count here. -/
def isCode : Phase → Bool
  | plain => true
  | slash => true
  | _ => false

@[simp] theorem run_nil (phase : Phase) : phase.run [] = phase := rfl

@[simp] theorem run_cons (phase : Phase) (c : Char) (s : Text) :
    phase.run (c :: s) = (phase.step c).run s := rfl

@[simp] theorem run_append (phase : Phase) (s t : Text) :
    phase.run (s ++ t) = (phase.run s).run t := List.foldl_append ..

/-- Behind a star a comment goes on unless a slash follows. -/
theorem step_star {c : Char} (h : c ≠ '/') : star.step c = comment.step c := by
  simp [step, h]

/-- Behind a slash the text goes on unless a star follows. -/
theorem step_slash {c : Char} (h : c ≠ '*') : slash.step c = plain.step c := by
  simp [step, h]

end Phase

/-- Whether a character outside of comments and strings opens or closes something. -/
def isStructural (c : Char) : Bool := c == '{' || c == '}' || c == ';'

/-- A text in which no brace and no semicolon counts. -/
def Quiet : Phase → Text → Prop
  | _, [] => True
  | phase, c :: s => (phase.isCode && isStructural c) = false ∧ Quiet (phase.step c) s

/-- Two texts in a row are quiet if the first is and the second is behind it. -/
theorem quiet_append {phase : Phase} {s t : Text} :
    Quiet phase (s ++ t) ↔ Quiet phase s ∧ Quiet (phase.run s) t := by
  induction s generalizing phase with
  | nil => simp [Quiet]
  | cons c s ih => simp [Quiet, ih, and_assoc]

/-- Scopes what follows a phase within the open blocks. -/
def scopeFrom (phase : Phase) : List Block → Text → Text → Text
  | _, prelude, [] => prelude
  | .declarations :: blocks, prelude, c :: s =>
    if phase.isCode && c == '{' then
      '{' :: scopeFrom .plain (.declarations :: .declarations :: blocks) prelude s
    else if phase.isCode && c == '}' then '}' :: scopeFrom .plain blocks prelude s
    else c :: scopeFrom (phase.step c) (.declarations :: blocks) prelude s
  | blocks, prelude, c :: s =>
    if phase.isCode && c == '{' then
      scopePrelude prelude ++ '{' :: scopeFrom .plain (blockOf prelude :: blocks) [] s
    else if phase.isCode && c == '}' then prelude ++ '}' :: scopeFrom .plain blocks.tail [] s
    else if phase.isCode && c == ';' then prelude ++ ';' :: scopeFrom .plain blocks [] s
    else scopeFrom (phase.step c) blocks (prelude ++ [c]) s

/-- Whether the innermost block holds declarations. -/
def isDeclaring : List Block → Bool
  | .declarations :: _ => true
  | _ => false

/-- The innermost open block is one of declarations or nothing is declared. -/
theorem declaring_cases (blocks : List Block) :
    (∃ rest, blocks = .declarations :: rest) ∨
      (isDeclaring blocks = false ∧ ∀ rest, blocks ≠ .declarations :: rest) := by
  cases blocks with
  | nil => exact Or.inr ⟨rfl, by simp⟩
  | cons block rest =>
      cases block with
      | declarations => exact Or.inl ⟨rest, rfl⟩
      | rules => exact Or.inr ⟨rfl, by simp⟩

@[simp] theorem scopeFrom_nil (phase : Phase) (blocks : List Block) (prelude : Text) :
    scopeFrom phase blocks prelude [] = prelude := by
  unfold scopeFrom
  rfl

/-- Within declarations a quiet text is copied. -/
theorem scopeFrom_declaring {phase : Phase} {blocks : List Block} {v : Text}
    (declaring : isDeclaring blocks = true) (quiet : Quiet phase v) (prelude s : Text) :
    scopeFrom phase blocks prelude (v ++ s) = v ++ scopeFrom (phase.run v) blocks prelude s := by
  induction v generalizing phase with
  | nil => rfl
  | cons c v ih =>
      obtain ⟨hc, hv⟩ := quiet
      match blocks, declaring with
      | .declarations :: blocks, _ =>
          simp only [isStructural, Bool.and_eq_false_iff, Bool.or_eq_false_iff] at hc
          rw [List.cons_append, scopeFrom, if_neg (by grind), if_neg (by grind), ih hv]
          rfl

/-- Outside of declarations a quiet text joins the prelude. -/
theorem scopeFrom_prelude {phase : Phase} {blocks : List Block} {v : Text}
    (declaring : isDeclaring blocks = false) (quiet : Quiet phase v) (prelude s : Text) :
    scopeFrom phase blocks prelude (v ++ s) = scopeFrom (phase.run v) blocks (prelude ++ v) s := by
  induction v generalizing phase prelude with
  | nil => simp
  | cons c v ih =>
      obtain ⟨hc, hv⟩ := quiet
      simp only [isStructural, Bool.and_eq_false_iff, Bool.or_eq_false_iff] at hc
      have hblocks : ∀ rest, blocks ≠ .declarations :: rest := by
        rintro rest rfl
        simp [isDeclaring] at declaring
      rw [List.cons_append, scopeFrom, if_neg (by grind), if_neg (by grind), if_neg (by grind),
        ih hv]
      · simp
      · exact hblocks

/-! ## Tokens and phases -/

/-- A comment split off a text begins as the text does. -/
theorem head?_splitComment (s : Text) : (splitComment s).1.head? = s.head? := by
  unfold splitComment
  split <;> rfl

/-- An asterisk is forgotten if no slash follows it. -/
theorem run_star {v : Text} (hv : v ≠ []) (h : v.head? ≠ some '/') :
    Phase.star.run v = Phase.comment.run v := by
  cases v with
  | nil => exact absurd rfl hv
  | cons d v => rw [Phase.run_cons, Phase.run_cons, Phase.step_star (by simpa using h)]

theorem quiet_star {v : Text} (h : v.head? ≠ some '/') : Quiet .star v ↔ Quiet .comment v := by
  cases v with
  | nil => exact Iff.rfl
  | cons d v => rw [Quiet, Quiet, Phase.step_star (by simpa using h)]; rfl

/-- A comment is closed, unless it runs to the end of the text. -/
theorem run_splitComment (s : Text) :
    Quiet .comment (splitComment s).1 ∧
      (Phase.comment.run (splitComment s).1 = .plain ∨ (splitComment s).2 = []) := by
  induction s using splitComment.induct with
  | case1 => exact ⟨trivial, Or.inr rfl⟩
  | case2 s => exact ⟨by simp [splitComment, Quiet, Phase.isCode, Phase.step], Or.inl rfl⟩
  | case3 c s hs ih =>
      rw [splitComment]
      · simp only [Quiet, Phase.run_cons, Phase.step, Phase.isCode, Bool.false_and, true_and]
        split
        · next hc =>
          have hhead : (splitComment s).1.head? ≠ some '/' := by
            rw [head?_splitComment]
            intro h
            obtain ⟨t, rfl⟩ := List.head?_eq_some_iff.1 h
            exact hs t hc rfl
          refine ⟨(quiet_star hhead).2 ih.1, ?_⟩
          cases s with
          | nil => exact Or.inr rfl
          | cons d s =>
              have hne : (splitComment (d :: s)).1 ≠ [] := by
                intro h
                simpa [h] using head?_splitComment (d :: s)
              rw [run_star hne hhead]
              exact ih.2
        · exact ih
      · exact hs

theorem ne_backslash {c : Char} {s : Text} (hnil : c = '\\' → s = [] → False)
    (hcons : ∀ d t, c = '\\' → s = d :: t → False) : c ≠ '\\' := by
  intro hc
  cases s with
  | nil => exact hnil hc rfl
  | cons d t => exact hcons d t hc rfl

/-- A string is closed, unless it runs to the end of the text. -/
theorem run_splitQuoted (q : Quote) (s : Text) :
    Quiet (.quoted q) (splitQuoted q.1 s).1 ∧
      ((Phase.quoted q).run (splitQuoted q.1 s).1 = .plain ∨ (splitQuoted q.1 s).2 = []) := by
  have hq : q.1 ≠ '\\' := fun h => absurd q.2 (by rw [h]; decide)
  induction s using splitQuoted.induct q.1 with
  | case1 => exact ⟨trivial, Or.inr rfl⟩
  | case2 => exact ⟨by simp [splitQuoted, Quiet, Phase.isCode], Or.inr rfl⟩
  | case3 c s ih => simpa [splitQuoted, Quiet, Phase.isCode, Phase.step] using ih
  | case4 s hne hs => simp_all [splitQuoted, Quiet, Phase.isCode, Phase.step]
  | case5 c s hne hs hc ih =>
      rw [splitQuoted, if_neg hc]
      · have hc' : c ≠ '\\' := ne_backslash hne hs
        simpa [Quiet, Phase.isCode, Phase.step, hc, hc'] using ih
      · simpa using hne
      · simpa using hs

/-- A comment or a string is copied within declarations, and joins the prelude outside of them. -/
theorem scopeTokens_cons (blocks : List Block) (prelude : Text) {token : Token}
    (h : ∀ c, token ≠ .char c) (rest : List Token) :
    scopeTokens blocks prelude (token :: rest) =
      if isDeclaring blocks then token.text ++ scopeTokens blocks prelude rest
      else scopeTokens blocks (prelude ++ token.text) rest := by
  rcases declaring_cases blocks with ⟨rest, rfl⟩ | ⟨hd, hblocks⟩
  · cases token with
    | char c => exact absurd rfl (h c)
    | comment v => rfl
    | quoted v => rfl
  · rw [scopeTokens, hd]
    · rfl
    · exact hblocks
    · exact h _
    · exact h _
    · exact h _

/-- Inside of declarations only braces change what is open, and every character is copied. -/
theorem scopeTokens_char_declaring (blocks : List Block) (prelude : Text) (c : Char)
    (rest : List Token) :
    scopeTokens (.declarations :: blocks) prelude (.char c :: rest) =
      if c = '{' then
        '{' :: scopeTokens (.declarations :: .declarations :: blocks) prelude rest
      else if c = '}' then '}' :: scopeTokens blocks prelude rest
      else c :: scopeTokens (.declarations :: blocks) prelude rest := by
  by_cases h₁ : c = '{'
  · subst h₁
    rfl
  by_cases h₂ : c = '}'
  · subst h₂
    rfl
  rw [scopeTokens, if_neg h₁, if_neg h₂]
  · rfl
  · simpa using h₁
  · simpa using h₂

/-- Outside of declarations a prelude is collected up to a brace or a semicolon, and scoped where a
block opens. -/
theorem scopeTokens_char {blocks : List Block}
    (hblocks : ∀ rest, blocks ≠ .declarations :: rest) (prelude : Text) (c : Char)
    (rest : List Token) :
    scopeTokens blocks prelude (.char c :: rest) =
      if c = '{' then
        scopePrelude prelude ++ '{' :: scopeTokens (blockOf prelude :: blocks) [] rest
      else if c = '}' then prelude ++ '}' :: scopeTokens blocks.tail [] rest
      else if c = ';' then prelude ++ ';' :: scopeTokens blocks [] rest
      else scopeTokens blocks (prelude ++ [c]) rest := by
  by_cases h₁ : c = '{'
  · subst h₁
    rw [scopeTokens]
    · rfl
    · exact hblocks
  by_cases h₂ : c = '}'
  · subst h₂
    rw [scopeTokens]
    · rfl
    · exact hblocks
  by_cases h₃ : c = ';'
  · subst h₃
    rw [scopeTokens]
    · rfl
    · exact hblocks
  rw [scopeTokens, if_neg h₁, if_neg h₂, if_neg h₃]
  · rfl
  · exact hblocks
  · simpa using h₁
  · simpa using h₂
  · simpa using h₃

/-- A text that is quiet and closed is scoped like a token. -/
theorem scopeFrom_append {phase : Phase} {v s : Text} (quiet : Quiet phase v)
    (closed : phase.run v = .plain ∨ s = []) (blocks : List Block) (prelude : Text) :
    scopeFrom phase blocks prelude (v ++ s) =
      if isDeclaring blocks then v ++ scopeFrom .plain blocks prelude s
      else scopeFrom .plain blocks (prelude ++ v) s := by
  have hphase : ∀ p, scopeFrom (phase.run v) blocks p s = scopeFrom .plain blocks p s := by
    intro p
    rcases closed with h | rfl
    · rw [h]
    · simp
  split
  · next h => rw [scopeFrom_declaring h quiet, hphase]
  · next h => rw [scopeFrom_prelude (by simpa using h) quiet, hphase]

/-- A slash is forgotten if no asterisk follows it. -/
theorem scopeFrom_slash (blocks : List Block) (prelude : Text) {s : Text}
    (h : s.head? ≠ some '*') :
    scopeFrom .slash blocks prelude s = scopeFrom .plain blocks prelude s := by
  cases s with
  | nil => simp
  | cons c s =>
      have hstep := Phase.step_slash (c := c) (by simpa using h)
      rcases declaring_cases blocks with ⟨rest, rfl⟩ | ⟨-, hblocks⟩
      · rw [scopeFrom, scopeFrom, hstep]
        rfl
      · rw [scopeFrom, scopeFrom, hstep]
        · rfl
        · exact hblocks
        · exact hblocks

/-- Scoping by phases is scoping by tokens. -/
theorem scopeTokens_tokens (blocks : List Block) (prelude s : Text) :
    scopeTokens blocks prelude (tokens s) = scopeFrom .plain blocks prelude s := by
  -- A comment and a quoted text are passed at once by the one and in phases by the other, and nothing
  -- in them counts for either.
  induction s using tokens.induct generalizing blocks prelude with
  | case1 => simp [tokens, scopeTokens]
  | case2 s ih =>
      obtain ⟨quiet, closed⟩ := run_splitComment s
      have hrest : '/' :: '*' :: s =
          ('/' :: '*' :: (splitComment s).1) ++ (splitComment s).2 := by
        simp [splitComment_append]
      rw [tokens, scopeTokens_cons _ _ (by simp), hrest, scopeFrom_append]
      · simp only [ih, Token.text]
      · simpa [Quiet, Phase.isCode, Phase.step, isQuote, isStructural] using quiet
      · simpa [Phase.step, isQuote] using closed
  | case3 c s hs hc ih =>
      obtain ⟨quiet, closed⟩ := run_splitQuoted ⟨c, hc⟩ s
      have hrest : c :: s = (c :: (splitQuoted c s).1) ++ (splitQuoted c s).2 := by
        simp [splitQuoted_append]
      have hphase : Phase.plain.step c = .quoted ⟨c, hc⟩ := by simp [Phase.step, hc]
      rw [tokens, if_pos hc, scopeTokens_cons _ _ (by simp), hrest, scopeFrom_append]
      · simp only [ih, Token.text]
      · refine ⟨?_, hphase ▸ quiet⟩
        simp only [isQuote, Bool.or_eq_true, beq_iff_eq] at hc
        rcases hc with rfl | rfl <;> rfl
      · simpa [hphase] using closed
      · exact hs
  | case4 c s hs hc ih =>
      have hnext : ∀ (blocks : List Block) (prelude : Text),
          scopeFrom (Phase.plain.step c) blocks prelude s =
            scopeTokens blocks prelude (tokens s) := by
        intro blocks prelude
        rw [ih]
        simp only [Phase.step, hc]
        split
        · contradiction
        · split
          · next h =>
            refine scopeFrom_slash _ _ fun hstar => ?_
            obtain ⟨t, rfl⟩ := List.head?_eq_some_iff.1 hstar
            exact hs t h rfl
          · rfl
      rw [tokens, if_neg hc]
      · rcases declaring_cases blocks with ⟨rest, rfl⟩ | ⟨-, hblocks⟩
        · rw [scopeFrom, hnext, scopeTokens_char_declaring, ← ih, ← ih]
          simp [Phase.isCode]
        · rw [scopeFrom, hnext, scopeTokens_char hblocks, ← ih, ← ih, ← ih]
          · simp [Phase.isCode]
          · exact hblocks
      · exact hs

end Viewloom.Css
