import Viewloom.Proofs.Scoping.Idempotence

/-!
# Scoping only inserts

A scoped stylesheet is the stylesheet with the class scope put in behind some dots. None of them
stands in a block that is read as declarations.

## Implementation notes

Outside of declarations the scanner holds text back until a brace or a semicolon decides what it is.
The output for what is held back is therefore an unknown of the induction, beside the output for what
is still to be read.
-/

namespace Viewloom.Css

/-- What the scanner knows in front of a character. -/
structure Scan where
  phase : Phase
  blocks : List Block
  prelude : Text

namespace Scan

/-- The scanner at the beginning of a stylesheet. -/
def start : Scan := ⟨.plain, [], []⟩

/-- Goes on behind a character. -/
def step (scan : Scan) (c : Char) : Scan :=
  if isDeclaring scan.blocks then
    if scan.phase.isCode && c == '{' then ⟨.plain, .declarations :: scan.blocks, scan.prelude⟩
    else if scan.phase.isCode && c == '}' then ⟨.plain, scan.blocks.tail, scan.prelude⟩
    else ⟨scan.phase.step c, scan.blocks, scan.prelude⟩
  else if scan.phase.isCode && c == '{' then ⟨.plain, blockOf scan.prelude :: scan.blocks, []⟩
  else if scan.phase.isCode && c == '}' then ⟨.plain, scan.blocks.tail, []⟩
  else if scan.phase.isCode && c == ';' then ⟨.plain, scan.blocks, []⟩
  else ⟨scan.phase.step c, scan.blocks, scan.prelude ++ [c]⟩

/-- What is put out at a character. -/
def flush (scan : Scan) (c : Char) : Text :=
  if isDeclaring scan.blocks then [c]
  else if scan.phase.isCode && c == '{' then scopePrelude scan.prelude ++ [c]
  else if scan.phase.isCode && (c == '}' || c == ';') then scan.prelude ++ [c]
  else []

/-- The output for a text that follows. -/
def output (scan : Scan) (s : Text) : Text := scopeFrom scan.phase scan.blocks scan.prelude s

/-- A character is written by what its step flushes, and the rest from the state behind it. -/
theorem output_cons (scan : Scan) (c : Char) (s : Text) :
    scan.output (c :: s) = scan.flush c ++ (scan.step c).output s := by
  obtain ⟨phase, blocks, prelude⟩ := scan
  unfold output flush step
  rcases declaring_cases blocks with ⟨rest, rfl⟩ | ⟨hd, hblocks⟩
  · rw [scopeFrom]
    simp only [isDeclaring, if_true, List.tail_cons]
    grind
  · rw [scopeFrom, hd]
    · grind
    · exact hblocks

/-- Blocks within declarations hold declarations, and all others hold rules. -/
def IsNested (scan : Scan) : Prop :=
  ∃ inner outer, scan.blocks = List.replicate inner .declarations ++ List.replicate outer .rules ∧
    (inner ≠ 0 → scan.prelude = [])

variable {scan : Scan}

/-- Among declarations inside of rules something is declared exactly if declarations are open. -/
theorem isDeclaring_replicate (inner outer : Nat) :
    isDeclaring (List.replicate inner .declarations ++ List.replicate outer .rules) = true ↔
      inner ≠ 0 := by
  cases inner with
  | zero => cases outer <;> simp [isDeclaring, List.replicate_succ]
  | succ inner => simp [isDeclaring, List.replicate_succ]

/-- Inside of declarations no prelude is collected. -/
theorem IsNested.prelude_eq_nil (h : scan.IsNested) (declaring : isDeclaring scan.blocks = true) :
    scan.prelude = [] := by
  obtain ⟨inner, outer, hblocks, hprelude⟩ := h
  rw [hblocks, isDeclaring_replicate] at declaring
  exact hprelude declaring

/-- Outside of declarations no block of declarations is open. -/
theorem IsNested.not_mem (h : scan.IsNested) (declaring : isDeclaring scan.blocks = false) :
    Block.declarations ∉ scan.blocks := by
  obtain ⟨inner, outer, hblocks, -⟩ := h
  cases inner with
  | zero => simp [hblocks]
  | succ inner =>
      rw [hblocks, (isDeclaring_replicate (inner + 1) outer).2 (by simp)] at declaring
      cases declaring

theorem isNested_start : start.IsNested := ⟨0, 0, rfl, fun _ => rfl⟩

/-- Every character keeps the open blocks nested: declarations inside, rules outside. -/
theorem IsNested.step (h : scan.IsNested) (c : Char) : (scan.step c).IsNested := by
  obtain ⟨phase, blocks, prelude⟩ := scan
  obtain ⟨inner, outer, rfl, hprelude⟩ := h
  unfold Scan.step
  cases inner with
  | zero =>
      have hd : ¬ isDeclaring (List.replicate 0 .declarations ++ List.replicate outer .rules) = true :=
        fun h => (isDeclaring_replicate 0 outer).1 h rfl
      rw [if_neg hd]
      split
      · cases hblock : blockOf prelude with
        | rules => exact ⟨0, outer + 1, by simp [List.replicate_succ], fun _ => rfl⟩
        | declarations => exact ⟨1, outer, by simp, fun _ => rfl⟩
      split
      · exact ⟨0, outer - 1, by simp, fun _ => rfl⟩
      split
      · exact ⟨0, outer, rfl, fun _ => rfl⟩
      · exact ⟨0, outer, rfl, fun hne => absurd rfl hne⟩
  | succ inner =>
      have hempty : prelude = [] := hprelude (by simp)
      subst hempty
      rw [if_pos ((isDeclaring_replicate (inner + 1) outer).2 (by simp))]
      split
      · exact ⟨inner + 2, outer, by simp [List.replicate_succ], fun _ => rfl⟩
      split
      · exact ⟨inner, outer, by simp [List.replicate_succ], fun _ => rfl⟩
      · exact ⟨inner + 1, outer, rfl, fun _ => rfl⟩

end Scan

/-- A text that the scanner goes through, with the class scope put in behind some of its dots. No such
dot stands in a block that holds declarations. -/
inductive InsertedFrom : Scan → Text → Text → Prop where
  | nil (scan : Scan) : InsertedFrom scan [] []
  | cons {scan : Scan} (c : Char) {s t : Text} (h : InsertedFrom (scan.step c) s t) :
      InsertedFrom scan (c :: s) (c :: t)
  | dot {scan : Scan} (outside : Block.declarations ∉ scan.blocks) {s t : Text}
      (h : InsertedFrom (scan.step '.') s t) :
      InsertedFrom scan ('.' :: s) ('.' :: classScope ++ t)

/-- Insertion into a text with one more character ends with that character, or with the class scope
behind that dot. -/
theorem Inserted.exists_concat {s t : Text} {c : Char} (h : Inserted (s ++ [c]) t) :
    ∃ u, Inserted s u ∧ (t = u ++ [c] ∨ c = '.' ∧ t = u ++ '.' :: classScope) := by
  generalize hs : s ++ [c] = s' at h
  induction h generalizing s with
  | nil => simp at hs
  | @cons d s' t h ih =>
      cases s with
      | nil =>
          obtain ⟨rfl, rfl⟩ := List.cons.inj hs
          cases h
          exact ⟨[], .nil, .inl rfl⟩
      | cons e s =>
          obtain ⟨rfl, hrest⟩ := List.cons.inj hs
          obtain ⟨u, hu, ht⟩ := ih hrest
          exact ⟨e :: u, .cons e hu, by simpa using ht⟩
  | @dot s' t h ih =>
      cases s with
      | nil =>
          obtain ⟨rfl, rfl⟩ := List.cons.inj hs
          cases h
          exact ⟨[], .nil, .inr ⟨rfl, by simp⟩⟩
      | cons e s =>
          obtain ⟨rfl, hrest⟩ := List.cons.inj hs
          obtain ⟨u, hu, ht⟩ := ih hrest
          exact ⟨'.' :: classScope ++ u, .dot hu, by simpa using ht⟩

/-- What is put out at a character is what has been held back and that character, or the character is
held back as well. -/
theorem Scan.flush_cases {scan : Scan} (h : scan.IsNested) (c : Char) :
    (∃ held, Inserted scan.prelude held ∧ scan.flush c = held ++ [c] ∧ (scan.step c).prelude = []) ∨
      (Block.declarations ∉ scan.blocks ∧ scan.flush c = [] ∧
        (scan.step c).prelude = scan.prelude ++ [c]) := by
  cases hd : isDeclaring scan.blocks with
  | true =>
      have hprelude := h.prelude_eq_nil hd
      refine .inl ⟨[], by rw [hprelude]; exact .nil, by simp [Scan.flush, hd], ?_⟩
      unfold Scan.step
      grind
  | false =>
      by_cases hbrace : (scan.phase.isCode && c == '{') = true
      · exact .inl ⟨scopePrelude scan.prelude, inserted_scopePrelude _, by simp [Scan.flush, hd, hbrace],
          by simp [Scan.step, hd, hbrace]⟩
      by_cases hends : (scan.phase.isCode && (c == '}' || c == ';')) = true
      · refine .inl ⟨scan.prelude, .refl _, by simp [Scan.flush, hd, hbrace, hends], ?_⟩
        unfold Scan.step
        grind
      · refine .inr ⟨h.not_mem hd, by simp [Scan.flush, hd, hbrace, hends], ?_⟩
        unfold Scan.step
        grind

/-- The output is an insertion into what has been held back, and then one into what follows. -/
theorem exists_insertedFrom (s : Text) {scan : Scan} (h : scan.IsNested) :
    ∃ held t, scan.output s = held ++ t ∧ Inserted scan.prelude held ∧ InsertedFrom scan s t := by
  induction s generalizing scan with
  | nil => exact ⟨scan.prelude, [], by simp [Scan.output], .refl _, .nil scan⟩
  | cons c s ih =>
      obtain ⟨held, t, houtput, hheld, ht⟩ := ih (h.step c)
      rw [scan.output_cons, houtput]
      rcases scan.flush_cases h c with ⟨put, hput, hflush, hprelude⟩ | ⟨outside, hflush, hprelude⟩
      · rw [hprelude] at hheld
        cases hheld
        exact ⟨put, c :: t, by simp [hflush], hput, .cons c ht⟩
      · rw [hprelude] at hheld
        obtain ⟨put, hput, rfl | ⟨rfl, rfl⟩⟩ := hheld.exists_concat
        · exact ⟨put, c :: t, by simp [hflush], hput, .cons c ht⟩
        · exact ⟨put, '.' :: classScope ++ t, by simp [hflush], hput, .dot outside ht⟩

/-- Whatever a text holds, scoping it puts the class scope in behind some of the dots that stand outside
of declarations, and changes nothing else. -/
theorem insertedFrom_scopeStylesheet (css : Text) :
    InsertedFrom .start css (scopeStylesheet css) := by
  obtain ⟨held, t, houtput, hheld, ht⟩ := exists_insertedFrom css Scan.isNested_start
  cases hheld
  have hscoped : scopeStylesheet css = t := by
    rw [scopeStylesheet, scopeTokens_tokens]
    exact houtput
  rwa [hscoped]

/-- A stray brace, an escape at the end of a prelude, and a comment and a block that are not closed. -/
example : scopeStylesheet (text "\x7d.a\\\x7b.b:.c;\x7b.d\x7d\x7d.e \x7b /* .f") =
    text "\x7d.__af-a\\\x7b.b:.c;\x7b.d\x7d\x7d.__af-e \x7b /* .f" := by
  decide +kernel

end Viewloom.Css
