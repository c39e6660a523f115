import Viewloom.Script.Parser

/-!
# Readings of scripts

What the results of a parser satisfy. Where a script need not be a module, a reading only says what
holds if the parser has a result; where it must be one, the parser has to have a result as well. Both
are stated at once, with a flag that tells them apart.
-/

namespace Viewloom.Script

open Viewloom.Script.Parser

variable {α β : Type} {must : Bool}

/-- Every result of a parser satisfies a condition, together with the source behind it. A parser that
must succeed has a result. -/
def Reads (must : Bool) (p : Parser α) (s : Source) (Q : α → Source → Prop) : Prop :=
  match p s with
  | some (a, u) => Q a u
  | none => must = false

/-- The same for the source behind a gap. -/
def Skips (must : Bool) (x : Text) (P : Source → Prop) : Prop :=
  match Source.ofText x with
  | some u => P u
  | none => must = false

namespace Source

/-- The next name, as far as it is spelled without escapes. -/
def word (s : Source) : Text :=
  match readName s.rest with
  | some (name, _) => if name.isEscaped then [] else name.word
  | none => []

/-- The next punctuator, if the next token is one. -/
def mark (s : Source) : Text :=
  match readPunctuator s.rest with
  | some (mark, _) => mark
  | none => []

end Source

/-- What is skipped to meets every weaker condition. -/
theorem Skips.mono {x : Text} {P P' : Source → Prop} (h : Skips must x P)
    (hP : ∀ u, Source.ofText x = some u → P u → P' u) : Skips must x P' := by
  unfold Skips at *
  cases hx : Source.ofText x with
  | none => simpa only [hx] using h
  | some u =>
      simp only [hx] at h
      exact hP u hx h

namespace Reads

variable {p : Parser α} {f : α → Parser β} {s : Source} {Q R : α → Source → Prop}

/-- What is read meets every weaker condition. -/
theorem mono (h : Reads must p s Q) (hQ : ∀ a u, Q a u → R a u) : Reads must p s R := by
  unfold Reads at *
  cases hp : p s with
  | none => simpa only [hp] using h
  | some found =>
      simp only [hp] at h
      exact hQ _ _ h

/-- A reader that gives a result reads what holds of the result. -/
theorem of_eq {a : α} {u : Source} (h : p s = some (a, u)) (hQ : Q a u) : Reads must p s Q := by
  simpa only [Reads, h] using hQ

/-- Nothing is said of a parser that may fail if every result will do. -/
theorem of_forall (h : ∀ a u, Q a u) : Reads false p s Q := by
  unfold Reads
  split
  · exact h _ _
  · rfl

/-- What is read meets two conditions if it meets each of them. -/
theorem and (h : Reads must p s Q) (h' : Reads must p s R) :
    Reads must p s fun a u => Q a u ∧ R a u := by
  unfold Reads at *
  cases hp : p s with
  | none => simpa only [hp] using h
  | some found =>
      simp only [hp] at h h'
      exact ⟨h, h'⟩

@[simp]
theorem pure_iff {a : α} : Reads must (pure a) s Q ↔ Q a s := Iff.rfl

/-- Two readers in a row read what the second reads behind the first. -/
@[simp]
theorem bind_iff {Q : β → Source → Prop} :
    Reads must (p >>= f) s Q ↔ Reads must p s fun a u => Reads must (f a) u Q := by
  have hbind : (p >>= f) s = match p s with
    | some (a, u) => f a u
    | none => none := rfl
  unfold Reads
  rw [hbind]
  cases p s with
  | none => exact Iff.rfl
  | some found => exact Iff.rfl

/-- A reader may fail only where nothing need be read. -/
@[simp]
theorem fail_iff : Reads must (fail : Parser α) s Q ↔ must = false := Iff.rfl

/-- A choice of two readers reads what the chosen one reads. -/
@[simp]
theorem ite_iff {condition : Prop} [Decidable condition] {q : Parser α} :
    Reads must (if condition then p else q) s Q ↔
      (condition → Reads must p s Q) ∧ (¬ condition → Reads must q s Q) := by
  split <;> simp_all

/-- A required condition holds, or nothing need be read. -/
@[simp]
theorem require_iff {condition : Bool} {Q : Unit → Source → Prop} :
    Reads must (Parser.require condition) s Q ↔
      (condition = true → Q () s) ∧ (condition = false → must = false) := by
  cases condition <;> simp [Parser.require]

theorem require {condition : Bool} {Q : Unit → Source → Prop} (h : condition = true)
    (hQ : Q () s) : Reads must (Parser.require condition) s Q := by
  simp [h, hQ]

/-- A result that is there is read, or nothing need be read. -/
@[simp]
theorem ofOption_iff {found : Option α} :
    Reads must (Parser.ofOption found) s Q ↔
      (∀ a, found = some a → Q a s) ∧ (found = none → must = false) := by
  cases found <;> simp [Parser.ofOption]

theorem ofOption {found : Option α} {a : α} (h : found = some a) (hQ : Q a s) :
    Reads must (Parser.ofOption found) s Q := by
  simp [h, hQ]

/-! ## Looking ahead -/

@[simp]
theorem source_iff {Q : Source → Source → Prop} : Reads must source s Q ↔ Q s s := Iff.rfl

@[simp]
theorem nextChar_iff {Q : Option Char → Source → Prop} :
    Reads must nextChar s Q ↔ Q s.rest.head? s := Iff.rfl

@[simp]
theorem hasBreak_iff {Q : Bool → Source → Prop} :
    Reads must hasBreak s Q ↔ Q s.hasBreak s := Iff.rfl

@[simp]
theorem nextWord_iff {Q : Text → Source → Prop} : Reads must nextWord s Q ↔ Q s.word s := by
  simp only [Reads, nextWord, Source.word]
  cases readName s.rest <;> rfl

@[simp]
theorem atWord_iff {word : Text} {Q : Bool → Source → Prop} :
    Reads must (atWord word) s Q ↔ Q (s.word == word) s := by
  simp [atWord]

@[simp]
theorem nextMark_iff {Q : Text → Source → Prop} : Reads must nextMark s Q ↔ Q s.mark s := by
  simp only [Reads, nextMark, Source.mark]
  cases readPunctuator s.rest <;> rfl

@[simp]
theorem atMark_iff {mark : Text} {Q : Bool → Source → Prop} :
    Reads must (atMark mark) s Q ↔ Q (s.mark == mark) s := by
  simp [atMark]

/-- A test of what comes next leaves it to be read. -/
theorem peek {read : Text → Option (α × Text)} {test : α → Bool} {a : α} {x : Text}
    {Q : Bool → Source → Prop} (h : read s.rest = some (a, x)) (hQ : Q (test a) s) :
    Reads must (Parser.peek read test) s Q := by
  have hpeek : Parser.peek read test s = some (test a, s) := by simp only [Parser.peek, h]
  exact of_eq hpeek hQ

/-! ## Tokens -/

/-- A token is read with the gap behind it, or nothing need be read. -/
theorem token_iff {read : Text → Option (α × Text)} :
    Reads must (Parser.token read) s Q ↔
      (∀ a x, read s.rest = some (a, x) → Skips must x (Q a)) ∧
        (read s.rest = none → must = false) := by
  simp only [Reads, Skips, Parser.token]
  cases read s.rest with
  | none => simp
  | some found =>
      obtain ⟨a, x⟩ := found
      cases hx : Source.ofText x <;> simp [hx]

/-- A token is read off, and then the gap behind it. -/
theorem token {read : Text → Option (α × Text)} {a : α} {x : Text}
    (h : read s.rest = some (a, x)) (hQ : Skips must x (Q a)) :
    Reads must (Parser.token read) s Q := by
  rw [token_iff, h]
  simpa using hQ

/-- A raw token is read with nothing skipped behind it. -/
theorem rawToken {read : Text → Option (α × Text)} {a : α} {x : Text}
    (h : read s.rest = some (a, x)) (hQ : Q a (Source.raw x)) :
    Reads must (Parser.rawToken read) s Q :=
  of_eq (by simp only [Parser.rawToken, h, Option.map_some]) hQ

theorem rawChar {wanted : Char} {x : Text} {Q : Unit → Source → Prop} (h : s.rest = wanted :: x)
    (hQ : Q () (Source.raw x)) : Reads must (Parser.rawChar wanted) s Q :=
  rawToken (by simp [h, Text.stripStart]) hQ

/-- A mark is read with the gap behind it. -/
theorem mark {mark x : Text} {Q : Unit → Source → Prop} (h : readPunctuator s.rest = some (mark, x))
    (hQ : Skips must x (Q ())) : Reads must (Parser.mark mark) s Q := by
  rw [Parser.mark, bind_iff]
  exact token h (hQ.mono fun u _ hu => require (beq_self_eq_true mark) hu)

/-- A word is read with the gap behind it. -/
theorem word {word x : Text} {Q : Unit → Source → Prop}
    (h : readName s.rest = some (⟨word, false⟩, x)) (hQ : Skips must x (Q ())) :
    Reads must (Parser.word word) s Q := by
  rw [Parser.word, bind_iff]
  exact token h (hQ.mono fun u _ hu => require (beq_self_eq_true _) hu)

@[simp]
theorem skipGap_iff {Q : Unit → Source → Prop} :
    Reads must skipGap s Q ↔ Skips must s.rest (Q ()) := by
  simp only [Reads, Skips, skipGap]
  cases Source.ofText s.rest <;> rfl

/-- A mark that may be there is read exactly if it comes next. -/
@[simp]
theorem skipMark_iff {mark : Text} {Q : Bool → Source → Prop} :
    Reads must (skipMark mark) s Q ↔
      (s.mark = mark → Reads must (Parser.mark mark) s fun _ u => Q true u) ∧
        (s.mark ≠ mark → Q false s) := by
  simp [skipMark]

/-- A word that may be there is read exactly if it comes next. -/
@[simp]
theorem skipWord_iff {word : Text} {Q : Bool → Source → Prop} :
    Reads must (skipWord word) s Q ↔
      (s.word = word → Reads must (Parser.word word) s fun _ u => Q true u) ∧
        (s.word ≠ word → Q false s) := by
  simp [skipWord]

/-- What stands behind a word is looked at, and nothing is taken. -/
@[simp]
theorem behindWord_iff :
    Reads must (behindWord p) s Q ↔
      Reads must (Parser.token readName) s fun _ u => Reads must p u fun a _ => Q a s := by
  simp only [Reads, behindWord]
  cases Parser.token readName s with
  | none => simp
  | some found =>
      obtain ⟨name, u⟩ := found
      cases hp : p u <;> simp [hp]

end Reads

/-! ## Gaps -/

/-- Whether a gap may hold a character outside of comments. -/
def isBlank (c : Char) : Bool := isLineEnd c || isSpace c

/-- All blanks. -/
def blanks : Text :=
  [' ', '\t', '\n', '\r'] ++ ([0xb, 0xc, 0x2028, 0x2029] ++
    wideSpaces.flatMap fun (first, last) => List.range' first (last + 1 - first)).map Char.ofNat

theorem mem_blanks_of_isBlank {c : Char} (h : isBlank c = true) : c ∈ blanks := by
  have hcode {n : Nat} (hn : n ∈ [0xb, 0xc, 0x2028, 0x2029] ++
      wideSpaces.flatMap fun r => List.range' r.1 (r.2 + 1 - r.1))
      (heq : c.toNat = n) : c ∈ blanks := by
    refine List.mem_append_right _ (List.mem_map.2 ⟨n, hn, ?_⟩)
    rw [← heq, Char.ofNat_toNat]
  simp only [isBlank, isLineEnd, isSpace, Bool.or_eq_true, beq_iff_eq, Bool.and_eq_true] at h
  rcases h with (((rfl | rfl) | h) | h) | (((rfl | rfl) | h) | h) | ⟨-, h⟩
  · decide
  · decide
  · exact hcode (by simp) h
  · exact hcode (by simp) h
  · decide
  · decide
  · exact hcode (by simp) h
  · exact hcode (by simp) h
  · obtain ⟨r, hr, hn⟩ := Unicode.exists_range_of_inRanges h
    refine hcode (List.mem_append_right _ (List.mem_flatMap.2 ⟨r, hr, ?_⟩)) rfl
    rw [List.mem_range'_1]
    omega

/-- No blank meets a condition that the list of blanks does not meet. -/
theorem isBlank_eq_false {p : Char → Bool} (hp : blanks.all (fun c => !p c) = true) {c : Char}
    (h : p c = true) : isBlank c = false := by
  rw [← Bool.not_eq_true]
  intro hblank
  simpa [h] using List.all_eq_true.1 hp c (mem_blanks_of_isBlank hblank)

/-- Whether no gap stands in front of a text. -/
def isSolid : Text → Bool
  | [] => true
  | c :: _ => !isBlank c && c != '/'

/-- A gap in front of a solid text is over. -/
theorem scanGap_of_isSolid {source s : Text} {started hasBreak : Bool} {comments : List Comment}
    (h : isSolid s = true) :
    scanGap .between source started hasBreak comments s =
      some ⟨hasBreak, comments.reverse, s⟩ := by
  cases s with
  | nil => simp [scanGap]
  | cons c s =>
      simp only [isSolid, isBlank, Bool.and_eq_true, Bool.not_eq_true', Bool.or_eq_false_iff,
        bne_iff_ne, ne_eq] at h
      rw [scanGap.eq_def]
      simp [h]

theorem scanGap_blank {c : Char} {s : Text} {hasBreak : Bool} (h : isBlank c = true) :
    scanGap .between [] false hasBreak [] (c :: s) =
      scanGap .between [] false (isLineEnd c || hasBreak) [] s := by
  rw [scanGap.eq_def]
  cases hc : isLineEnd c with
  | true => simp [breakLast, hc]
  | false =>
      have hspace : isSpace c = true := by simpa [isBlank, hc] using h
      simp [hc, hspace]

/-- Blanks in front of a solid text are a gap, with a break if one of them ends a line. -/
theorem scanGap_append {b s : Text} {hasBreak : Bool} (hb : b.all isBlank = true)
    (hs : isSolid s = true) :
    scanGap .between [] false hasBreak [] (b ++ s) =
      some ⟨b.any isLineEnd || hasBreak, [], s⟩ := by
  induction b generalizing hasBreak with
  | nil => simp [scanGap_of_isSolid hs]
  | cons c b ih =>
      simp only [List.all_cons, Bool.and_eq_true] at hb
      rw [List.cons_append, scanGap_blank hb.1, ih hb.2]
      simp [Bool.or_comm, Bool.or_left_comm]

namespace Source

/-- A source of blanks and a solid text begins at the text. -/
theorem ofText_append {b x : Text} (hb : b.all isBlank = true) (hx : isSolid x = true) :
    ofText (b ++ x) = some ⟨x, b.any isLineEnd, []⟩ := by
  simp [ofText, gap, scanGap_append hb hx]

theorem ofText_of_isSolid {x : Text} (hx : isSolid x = true) : ofText x = some ⟨x, false, []⟩ :=
  ofText_append (b := []) rfl hx

end Source

/-- Blanks in front of a solid text are skipped. -/
theorem skips_append {b x : Text} {P : Source → Prop} (hb : b.all isBlank = true)
    (hx : isSolid x = true) (h : P ⟨x, b.any isLineEnd, []⟩) : Skips must (b ++ x) P := by
  rw [Skips, Source.ofText_append hb hx]
  exact h

theorem skips_of_isSolid {x : Text} {P : Source → Prop} (hx : isSolid x = true)
    (h : P ⟨x, false, []⟩) : Skips must x P :=
  skips_append (b := []) rfl hx h

end Viewloom.Script
