import Viewloom.Proofs.Script.Reading
import Viewloom.Template.Print

/-!
# Tokens in front of a rest

A word, a punctuator and a string literal are read off whatever stands behind them, as long as it does
not go on with them.
-/

namespace Viewloom

theorem Text.drop_length_takeWhile (p : Char → Bool) (s : Text) :
    s.drop (s.takeWhile p).length = s.dropWhile p := by
  induction s with
  | nil => rfl
  | cons c s ih => by_cases h : p c = true <;> simp [h, ih]

namespace Script

open Viewloom.Script.Parser Template

variable {must : Bool}

/-! ## Words -/

/-- Whether a text is a name that is spelled without escapes. -/
def isPlainName : Text → Bool
  | [] => false
  | c :: w => isNameStart c && w.all isNamePart

/-- Whether no name goes on with a text. -/
def endsName : Text → Bool
  | [] => true
  | c :: _ => !isNamePart c && c != '\\'

theorem ne_backslash_of_isNamePart {c : Char} (h : isNamePart c = true) : c ≠ '\\' := by
  rintro rfl
  exact absurd h (by decide)

theorem ne_of_isNameStart {d e : Char} (hd : isNameStart d = true) (he : isNameStart e = false) :
    d ≠ e := by
  rintro rfl
  simp [hd] at he

theorem ne_backslash_of_isNameStart {c : Char} (h : isNameStart c = true) : c ≠ '\\' :=
  ne_of_isNameStart h (by decide)

theorem isBlank_of_isNamePart {c : Char} (h : isNamePart c = true) : isBlank c = false :=
  isBlank_eq_false (by decide +kernel) h

theorem isBlank_of_isNameStart {c : Char} (h : isNameStart c = true) : isBlank c = false :=
  isBlank_eq_false (by decide +kernel) h

theorem isAlpha_iff {c : Char} : c.isAlpha = true ↔
    (65 ≤ c.toNat ∧ c.toNat ≤ 90) ∨ 97 ≤ c.toNat ∧ c.toNat ≤ 122 := by
  delta Char.isAlpha Char.isUpper Char.isLower
  simp only [Bool.or_eq_true, Bool.and_eq_true, decide_eq_true_eq]
  exact Iff.rfl

theorem isDigit_of_isNameStart {c : Char} (h : isNameStart c = true) : c.isDigit = false := by
  rw [← Bool.not_eq_true]
  intro hdigit
  simp only [Char.isDigit, Bool.and_eq_true, decide_eq_true_eq] at hdigit
  have hlow : 48 ≤ c.toNat := hdigit.1
  have hhigh : c.toNat ≤ 57 := hdigit.2
  simp only [isNameStart, isAsciiLetter, isAlpha_iff, Bool.or_eq_true, Bool.and_eq_true,
    decide_eq_true_eq, beq_iff_eq] at h
  rcases h with ((h | rfl) | rfl) | ⟨h, -⟩
  · omega
  · exact absurd hlow (by decide)
  · exact absurd hhigh (by decide)
  · omega

/-- A plain name is solid. -/
theorem isSolid_of_isPlainName {w x : Text} (h : isPlainName w = true) : isSolid (w ++ x) = true := by
  cases w with
  | nil => simp [isPlainName] at h
  | cons c w =>
      simp only [isPlainName, Bool.and_eq_true] at h
      have hslash : c ≠ '/' := ne_of_isNameStart h.1 (by decide)
      simp [isSolid, isBlank_of_isNameStart h.1, hslash]

/-- A name is read part by part. -/
theorem nameParts_cons {allowed : Char → Bool} {rounds : Nat} {c : Char} {s : Text}
    (hc : c ≠ '\\') :
    nameParts allowed (rounds + 1) (c :: s) =
      if allowed c then
        (c :: (nameParts isNamePart rounds s).1, (nameParts isNamePart rounds s).2)
      else ([], false, c :: s) := by
  rw [nameParts]
  rintro t rfl
  exact absurd rfl hc

/-- The parts of a name are read up to what ends it. -/
theorem nameParts_append {rounds : Nat} {w x : Text} (hw : w.all isNamePart = true)
    (hx : endsName x = true) (hrounds : w.length < rounds) :
    nameParts isNamePart rounds (w ++ x) = (w, false, x) := by
  induction w generalizing rounds with
  | nil =>
      obtain ⟨rounds, rfl⟩ := Nat.exists_eq_add_of_lt hrounds
      cases x with
      | nil => simp [nameParts]
      | cons c x =>
          simp only [endsName, Bool.and_eq_true, Bool.not_eq_true', bne_iff_ne, ne_eq] at hx
          rw [List.nil_append, nameParts_cons hx.2]
          simp [hx.1]
  | cons c w ih =>
      simp only [List.all_cons, Bool.and_eq_true] at hw
      obtain ⟨rounds, rfl⟩ := Nat.exists_eq_add_of_lt hrounds
      rw [List.cons_append, nameParts_cons (ne_backslash_of_isNamePart hw.1), if_pos hw.1,
        ih hw.2 (by simp; omega)]

/-- A plain name is read up to what ends it. -/
theorem readName_append {w x : Text} (hw : isPlainName w = true) (hx : endsName x = true) :
    readName (w ++ x) = some (⟨w, false⟩, x) := by
  cases w with
  | nil => simp [isPlainName] at hw
  | cons c w =>
      simp only [isPlainName, Bool.and_eq_true] at hw
      have hrounds : w.length < (c :: (w ++ x)).length := by
        rw [List.length_cons, List.length_append]
        omega
      rw [List.cons_append, readName, nameParts_cons (ne_backslash_of_isNameStart hw.1), if_pos hw.1,
        nameParts_append hw.2 hx hrounds]
      simp [hw.1]

theorem readName_eq_none {c : Char} {s : Text} (h : isNameStart c = false) (hc : c ≠ '\\') :
    readName (c :: s) = none := by
  simp [readName, h, hc]

/-! ## Punctuators -/

/-- The longest match is one of the candidates and begins the text. -/
theorem eq_append_of_longest {ps : List Text} {s m x : Text} (h : longest ps s = some (m, x)) :
    m ∈ ps ∧ s = m ++ x := by
  induction ps with
  | nil => simp [longest] at h
  | cons p ps ih =>
      simp only [longest] at h
      split at h
      · next rest hrest =>
          cases h
          exact ⟨by simp, Text.stripStart_eq_some_iff.1 hrest⟩
      · obtain ⟨hm, hs⟩ := ih h
        exact ⟨by simp [hm], hs⟩

theorem ne_nil_of_mem_punctuators :
    ∀ entry ∈ punctuators, ∀ m ∈ entry.2, m ≠ [] := by
  decide

/-- A punctuator is not empty and begins the text. -/
theorem eq_append_of_readPunctuator {s m x : Text} (h : readPunctuator s = some (m, x)) :
    m ≠ [] ∧ s = m ++ x := by
  unfold readPunctuator at h
  split at h
  · cases h
  · split at h <;> cases h <;> simp
  · next c s _ =>
      obtain ⟨ps, hps, hm⟩ := Option.bind_eq_some_iff.1 h
      obtain ⟨hmem, hs⟩ := eq_append_of_longest hm
      obtain ⟨entry, hentry, rfl⟩ : ∃ entry ∈ punctuators, entry.2 = ps := by
        obtain ⟨before, after, heq, -⟩ := List.lookup_eq_some_iff.1 hps
        exact ⟨(c, ps), by simp [heq], rfl⟩
      exact ⟨ne_nil_of_mem_punctuators entry hentry m hmem, hs⟩

theorem readPunctuator_of_not_mem {c : Char} {s : Text}
    (h : c ∉ punctuators.map Prod.fst) : readPunctuator (c :: s) = none := by
  have hlookup : punctuators.lookup c = none := by
    rw [List.lookup_eq_none_iff]
    intro entry hentry
    have hne : c ≠ entry.1 := fun heq => h (heq ▸ List.mem_map_of_mem hentry)
    simpa using hne
  unfold readPunctuator
  split
  · rfl
  · next heq =>
      cases heq
      exact absurd (by decide) h
  · next heq =>
      cases heq
      simp [hlookup]

/-- What begins a name begins no punctuator. -/
theorem readPunctuator_of_isNameStart {c : Char} {s : Text} (h : isNameStart c = true) :
    readPunctuator (c :: s) = none := by
  refine readPunctuator_of_not_mem fun hmem => ?_
  have hnone : (punctuators.map Prod.fst).all (fun d => !isNameStart d) = true := by decide
  simpa [h] using List.all_eq_true.1 hnone c hmem

theorem readPunctuator_of_isNamePart {c : Char} {s : Text} (h : isNamePart c = true) :
    readPunctuator (c :: s) = none := by
  refine readPunctuator_of_not_mem fun hmem => ?_
  have hnone : (punctuators.map Prod.fst).all (fun d => !isNamePart d) = true := by decide
  simpa [h] using List.all_eq_true.1 hnone c hmem

/-- A plain name is read as a name, and the gap behind it is skipped. -/
theorem reads_name {s : Source} {w x : Text} {Q : Name → Source → Prop} (hs : s.rest = w ++ x)
    (hw : isPlainName w = true) (hx : endsName x = true) (h : Skips must x (Q ⟨w, false⟩)) :
    Reads must (token readName) s Q := by
  refine Reads.token ?_ h
  rw [hs]
  exact readName_append hw hx

theorem reads_word {s : Source} {w x : Text} {Q : Unit → Source → Prop} (hs : s.rest = w ++ x)
    (hw : isPlainName w = true) (hx : endsName x = true) (h : Skips must x (Q ())) :
    Reads must (word w) s Q := by
  refine Reads.word ?_ h
  rw [hs]
  exact readName_append hw hx

section Gap

variable {s : Source} {w m b y : Text}

/-- A word with blanks behind it is read up to what is solid. -/
theorem reads_word_gap {Q : Unit → Source → Prop} (hs : s.rest = w ++ (b ++ y))
    (hw : isPlainName w = true) (hx : endsName (b ++ y) = true) (hb : b.all isBlank = true)
    (hy : isSolid y = true) (h : Q () ⟨y, b.any isLineEnd, []⟩) : Reads must (word w) s Q :=
  reads_word hs hw hx (skips_append hb hy h)

/-- A mark with blanks behind it is read up to what is solid. -/
theorem reads_mark_gap {Q : Unit → Source → Prop} (hs : readPunctuator s.rest = some (m, b ++ y))
    (hb : b.all isBlank = true) (hy : isSolid y = true) (h : Q () ⟨y, b.any isLineEnd, []⟩) :
    Reads must (mark m) s Q :=
  Reads.mark hs (skips_append hb hy h)

end Gap

namespace Source

variable {s : Source} {w x : Text}

/-- Where a plain name stands, it is the next word. -/
theorem word_of_isPlainName (hs : s.rest = w ++ x) (hw : isPlainName w = true) (hx : endsName x = true) :
    s.word = w := by
  simp [word, hs, readName_append hw hx]

/-- Where a plain name stands, there is no next mark. -/
theorem mark_of_isPlainName (hs : s.rest = w ++ x) (hw : isPlainName w = true) : s.mark = [] := by
  cases w with
  | nil => simp [isPlainName] at hw
  | cons c w =>
      simp only [isPlainName, Bool.and_eq_true] at hw
      simp [mark, hs, readPunctuator_of_isNameStart hw.1]

theorem word_of_rest (hs : s.rest = x) (hword : word ⟨x, false, []⟩ = w) : s.word = w := by
  rw [← hword, word, word, hs]

theorem mark_of_rest (hs : s.rest = x) (hmark : mark ⟨x, false, []⟩ = w) : s.mark = w := by
  rw [← hmark, mark, mark, hs]

/-- The next mark is nothing or the beginning of the text. -/
theorem mark_eq_nil_or (s : Source) : s.mark = [] ∨ ∃ x, s.rest = s.mark ++ x := by
  unfold mark
  split
  · next m x h => exact .inr ⟨x, (eq_append_of_readPunctuator h).2⟩
  · exact .inl rfl

end Source

/-! ## Strings -/

theorem readQuoted_escape {c : Char} {s : Text} (h : c ≠ '\r') :
    readQuoted '\'' ('\\' :: c :: s) =
      (readQuoted '\'' s).map fun (source, rest) => ('\\' :: c :: source, rest) := by
  rw [readQuoted]
  rintro t rfl
  exact absurd rfl h

theorem readQuoted_plain {quote c : Char} {s : Text} (h : c ≠ '\\') (hquote : c ≠ quote)
    (hline : c ≠ '\n' ∧ c ≠ '\r') :
    readQuoted quote (c :: s) =
      (readQuoted quote s).map fun (source, rest) => (c :: source, rest) := by
  rw [readQuoted]
  · simp [hquote, hline]
  · rintro t rfl
    exact absurd rfl h
  · rintro d t rfl
    exact absurd rfl h

/-- The spellings of a character in a string literal. -/
theorem quotedChar_cases (c : Char) :
    (quotedChar c = [c] ∧ c ≠ '\\' ∧ c ≠ '\'' ∧ c ≠ '\n' ∧ c ≠ '\r') ∨
      (∃ d, quotedChar c = ['\\', d] ∧ d ≠ '\r' ∧ ∀ s, readEscape (d :: s) = some ([c], s)) ∨
        ∃ d, quotedChar c = ['\\', 'u', '2', '0', '2', d] ∧
          (d ≠ '\\' ∧ d ≠ '\'' ∧ d ≠ '\n' ∧ d ≠ '\r') ∧
            ∀ s, readEscape ('u' :: '2' :: '0' :: '2' :: d :: s) = some ([c], s) := by
  unfold quotedChar
  split
  · next h => subst h; exact .inr (.inl ⟨'\\', rfl, by decide, fun s => rfl⟩)
  split
  · next h => subst h; exact .inr (.inl ⟨'\'', rfl, by decide, fun s => rfl⟩)
  split
  · next h => subst h; exact .inr (.inl ⟨'n', rfl, by decide, fun s => rfl⟩)
  split
  · next h => subst h; exact .inr (.inl ⟨'r', rfl, by decide, fun s => rfl⟩)
  split
  · next h =>
      obtain rfl : c = Char.ofNat 0x2028 := by rw [← h, Char.ofNat_toNat]
      exact .inr (.inr ⟨'8', rfl, by decide, fun s => rfl⟩)
  split
  · next h =>
      obtain rfl : c = Char.ofNat 0x2029 := by rw [← h, Char.ofNat_toNat]
      exact .inr (.inr ⟨'9', rfl, by decide, fun s => rfl⟩)
  · next h₁ h₂ h₃ h₄ _ _ => exact .inl ⟨rfl, h₁, h₂, h₃, h₄⟩

/-- A quoted character is read with its escape. -/
theorem readQuoted_quotedChar (c : Char) (s : Text) :
    readQuoted '\'' (quotedChar c ++ s) =
      (readQuoted '\'' s).map fun (source, rest) => (quotedChar c ++ source, rest) := by
  rcases quotedChar_cases c with ⟨h, hc, hquote, hline⟩ | ⟨d, h, hd, -⟩ | ⟨d, h, hd, -⟩
  · simp [h, readQuoted_plain hc hquote hline]
  · simp [h, readQuoted_escape hd]
  · rw [h]
    simp only [List.cons_append, List.nil_append]
    rw [readQuoted_escape (by decide), readQuoted_plain (by decide) (by decide) (by decide),
      readQuoted_plain (by decide) (by decide) (by decide),
      readQuoted_plain (by decide) (by decide) (by decide), readQuoted_plain hd.1 hd.2.1 hd.2.2]
    simp [Function.comp_def]

/-- A quoted text is read up to its quote. -/
theorem readQuoted_flatMap (s x : Text) :
    readQuoted '\'' (s.flatMap quotedChar ++ '\'' :: x) = some (s.flatMap quotedChar, x) := by
  induction s with
  | nil => simp [readQuoted]
  | cons c s ih => simp [readQuoted_quotedChar, ih]

/-- A quoted character stands for itself. -/
theorem unescapeWithin_quotedChar (rounds : Nat) (c : Char) (s : Text) :
    unescapeWithin (rounds + 1) (quotedChar c ++ s) =
      (unescapeWithin rounds s).map (c :: ·) := by
  rcases quotedChar_cases c with ⟨h, hc, -⟩ | ⟨d, h, -, hescape⟩ | ⟨d, h, -, hescape⟩
  · rw [h, List.singleton_append, unescapeWithin]
    exact hc
  · simp [h, unescapeWithin, hescape]
  · simp [h, unescapeWithin, hescape]

/-- A quoted text stands for itself. -/
theorem unescapeWithin_flatMap {rounds : Nat} {s : Text} (h : s.length < rounds) :
    unescapeWithin rounds (s.flatMap quotedChar) = some s := by
  induction s generalizing rounds with
  | nil =>
      obtain ⟨rounds, rfl⟩ := Nat.exists_eq_add_of_lt h
      simp [unescapeWithin]
  | cons c s ih =>
      obtain ⟨rounds, rfl⟩ := Nat.exists_eq_add_of_lt h
      rw [List.flatMap_cons, unescapeWithin_quotedChar, ih (by simp; omega)]
      rfl

theorem length_le_length_flatMap_quotedChar (s : Text) :
    s.length ≤ (s.flatMap quotedChar).length := by
  induction s with
  | nil => simp
  | cons c s ih =>
      have hpos : 0 < (quotedChar c).length := by
        rcases quotedChar_cases c with ⟨h, -⟩ | ⟨d, h, -⟩ | ⟨d, h, -⟩ <;> simp [h]
      simp only [List.length_cons, List.flatMap_cons, List.length_append]
      omega

/-- A printed string literal denotes the text that it was printed from. -/
theorem readString_quoted (s x : Text) : readString (quoted s ++ x) = some (s, x) := by
  have hlength := length_le_length_flatMap_quotedChar s
  rw [quoted, List.cons_append, List.cons_append, List.append_assoc]
  simp only [readString, List.singleton_append, readQuoted_flatMap, unescape]
  rw [unescapeWithin_flatMap (by omega)]
  simp

end Script

end Viewloom
