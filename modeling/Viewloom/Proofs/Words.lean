import Mathlib.Data.Option.Basic
import Viewloom.Label.Names
import Viewloom.Proofs.Tags

/-!
# Where words are cut

The words of a phrase are its letters and numerals in order. Each of these stands in one of the words, so
one can say of any two of them whether they stand in the same word. For neighbours the two characters and
the one behind them decide that. No other words of the phrase do the same.
-/

namespace Viewloom.Label

open Unicode

variable {a b c : Char} {s word : Text} {ws rest : List Text} {i j k : Nat}

/-! ## The word of a character -/

/-- Which of several pieces holds a character of the pieces joined. -/
def pieceAt : List Text → Nat → Option Nat
  | [], _ => none
  | piece :: pieces, i =>
    if i < piece.length then some 0 else (pieceAt pieces (i - piece.length)).map (· + 1)

/-- Which of some words holds a letter or numeral of a phrase, where the words hold all of these in
order. -/
def wordAt (words : List Text) (phrase : Text) (i : Nat) : Option Nat :=
  pieceAt words ((phrase.take i).countP isAlphanumeric)

/-- Which of the characters behind a letter or numeral of a phrase are in another word: its neighbour
behind it by the rule for neighbours, and all that are separated from it. -/
structure IsCutBehind (phrase : Text) (words : List Text) (i : Nat) : Prop where
  adjacent : ∀ a b, phrase[i]? = some a → phrase[i + 1]? = some b → isAlphanumeric a = true →
    isAlphanumeric b = true → (wordAt words phrase i ≠ wordAt words phrase (i + 1) ↔
      isUppercase b = true ∧ (isLowercase a = true ∨ isNumeric a = true ∨
        isUppercase a = true ∧ ∃ c, phrase[i + 2]? = some c ∧ isLowercase c = true))
  separated : ∀ j k a b c, i < j → j < k → phrase[i]? = some a → phrase[j]? = some b →
    phrase[k]? = some c → isAlphanumeric a = true → isAlphanumeric b = false →
      isAlphanumeric c = true → wordAt words phrase i ≠ wordAt words phrase k

/-- Some words as those of a phrase: what they hold, and where they are cut. -/
structure AreWords (phrase : Text) (words : List Text) : Prop where
  nonempty : ∀ word ∈ words, word ≠ []
  alphanumeric : ∀ word ∈ words, ∀ c ∈ word, isAlphanumeric c = true
  whole : words.flatten = phrase.filter isAlphanumeric
  placed : ∀ i c, phrase[i]? = some c → isAlphanumeric c = true →
    ∃ n word, wordAt words phrase i = some n ∧ words[n]? = some word ∧ c ∈ word
  cut : ∀ i, IsCutBehind phrase words i

/-- A character of joined pieces stands in the piece that holds it. -/
theorem exists_pieceAt (h : ws.flatten[i]? = some c) :
    ∃ n piece, pieceAt ws i = some n ∧ ws[n]? = some piece ∧ c ∈ piece := by
  induction ws generalizing i with
  | nil => cases h
  | cons piece ws ih =>
      rw [List.flatten_cons] at h
      rw [pieceAt]
      split
      · next hlt =>
          rw [List.getElem?_append_left hlt] at h
          exact ⟨0, piece, rfl, rfl, List.mem_of_getElem? h⟩
      · next hle =>
          rw [List.getElem?_append_right (Nat.le_of_not_lt hle)] at h
          obtain ⟨n, found, hn, hfound, hc⟩ := ih h
          exact ⟨n + 1, found, by rw [hn]; rfl, hfound, hc⟩

/-- A character that is filtered stands behind as many as are filtered in front of it. -/
theorem getElem?_filter {p : Char → Bool} (hi : s[i]? = some c) (hc : p c = true) :
    (s.filter p)[(s.take i).countP p]? = some c := by
  induction s generalizing i with
  | nil => cases hi
  | cons d s ih =>
      cases i with
      | zero =>
          obtain rfl : d = c := Option.some.inj hi
          rw [List.filter_cons_of_pos hc]
          rfl
      | succ i =>
          have hrest := ih hi
          rw [List.take_succ_cons]
          cases hd : p d with
          | true => rwa [List.filter_cons_of_pos hd, List.countP_cons_of_pos hd]
          | false =>
              rwa [List.filter_cons_of_neg (by simp [hd]), List.countP_cons_of_neg (by simp [hd])]

/-- Every letter and numeral stands in a word. -/
theorem exists_wordAt (hwhole : ws.flatten = s.filter isAlphanumeric) (hi : s[i]? = some c)
    (hc : isAlphanumeric c = true) :
    ∃ n word, wordAt ws s i = some n ∧ ws[n]? = some word ∧ c ∈ word := by
  refine exists_pieceAt ?_
  rw [hwhole]
  exact getElem?_filter hi hc

/-- Words of the letters and digits of a phrase consist of letters and digits. -/
theorem isAlphanumeric_of_mem (hwhole : ws.flatten = s.filter isAlphanumeric) (hword : word ∈ ws)
    (hc : c ∈ word) : isAlphanumeric c = true := by
  have hall : c ∈ ws.flatten := List.mem_flatten.2 ⟨word, hword, hc⟩
  rw [hwhole] at hall
  exact (List.mem_filter.1 hall).2

/-! ## One character more in front -/

/-- Some words behind the first character of their first one. -/
def behind (word : Text) (rest : List Text) : List Text := if word = [] then rest else word :: rest

/-- The number of words that end with their first character. -/
def ended (word : Text) : Nat := if word = [] then 1 else 0

theorem flatten_behind (word : Text) (rest : List Text) :
    (behind word rest).flatten = word ++ rest.flatten := by
  rw [behind]
  split
  · next h => rw [h, List.nil_append]
  · exact List.flatten_cons

/-- The first character stands in the first word. -/
theorem wordAt_cons_zero (c : Char) (word : Text) (rest : List Text) (s : Text) :
    wordAt ((c :: word) :: rest) (c :: s) 0 = some 0 := by
  simp [wordAt, pieceAt]

/-- A separator in front shifts the places of words by one. -/
theorem wordAt_of_not_isAlphanumeric (hc : isAlphanumeric c = false) (ws : List Text) (s : Text)
    (i : Nat) : wordAt ws (c :: s) (i + 1) = wordAt ws s i := by
  rw [wordAt, wordAt, List.take_succ_cons, List.countP_cons_of_neg (by simp [hc])]

/-- A character more in front moves all words on if it is a word by itself. -/
theorem wordAt_succ (hc : isAlphanumeric c = true) (word : Text) (rest : List Text) (s : Text)
    (i : Nat) : wordAt ((c :: word) :: rest) (c :: s) (i + 1) =
      (wordAt (behind word rest) s i).map (· + ended word) := by
  rw [wordAt, wordAt, List.take_succ_cons, List.countP_cons_of_pos hc, behind, ended]
  split
  · next h => simp [h, pieceAt]
  · simp [pieceAt]

/-- Two places behind a first character are in different words exactly if they are so without it. -/
theorem wordAt_succ_ne_iff (hc : isAlphanumeric c = true) (word : Text) (rest : List Text) (s : Text)
    (i j : Nat) : wordAt ((c :: word) :: rest) (c :: s) (i + 1) ≠
        wordAt ((c :: word) :: rest) (c :: s) (j + 1) ↔
      wordAt (behind word rest) s i ≠ wordAt (behind word rest) s j := by
  rw [wordAt_succ hc, wordAt_succ hc]
  exact (Option.map_injective fun _ _ h => Nat.add_right_cancel h).ne_iff

/-- The word of a character goes on exactly if the next character is in it. -/
theorem wordAt_succ_eq_zero_iff (hc : isAlphanumeric c = true) :
    wordAt ((c :: word) :: rest) (c :: s) (i + 1) = some 0 ↔
      word ≠ [] ∧ wordAt (behind word rest) s i = some 0 := by
  rw [wordAt_succ hc, ended]
  by_cases h : word = [] <;> simp [h]

/-! ## Steps -/

/-- A character more in front does not matter for the cuts behind the other ones. -/
theorem isCutBehind_succ_iff {ws' : List Text}
    (hshift : ∀ i j, wordAt ws' (c :: s) (i + 1) ≠ wordAt ws' (c :: s) (j + 1) ↔
      wordAt ws s i ≠ wordAt ws s j) (i : Nat) :
    IsCutBehind (c :: s) ws' (i + 1) ↔ IsCutBehind s ws i := by
  constructor
  · intro h
    constructor
    · intro a b ha hb hletter hletter'
      exact (hshift i (i + 1)).symm.trans (h.adjacent a b ha hb hletter hletter')
    · intro j k a b d hij hjk ha hb hd hletter hsign hletter'
      exact (hshift i k).1 (h.separated (j + 1) (k + 1) a b d (by omega) (by omega) ha hb hd hletter hsign
        hletter')
  · intro h
    constructor
    · intro a b ha hb hletter hletter'
      exact (hshift i (i + 1)).trans (h.adjacent a b ha hb hletter hletter')
    · intro j k a b d hij hjk ha hb hd hletter hsign hletter'
      obtain ⟨j, rfl⟩ : ∃ j', j = j' + 1 := ⟨j - 1, by omega⟩
      obtain ⟨k, rfl⟩ : ∃ k', k = k' + 1 := ⟨k - 1, by omega⟩
      exact (hshift i k).2 (h.separated j k a b d (by omega) (by omega) ha hb hd hletter hsign hletter')

/-- Behind a place without a letter or a digit there is always a cut. -/
theorem isCutBehind_of_not {i : Nat} (h : ∀ a, s[i]? = some a → isAlphanumeric a = false) :
    IsCutBehind s ws i := by
  constructor
  · intro a b ha _ hletter
    rw [h a ha] at hletter
    cases hletter
  · intro j k a b d _ _ ha _ _ hletter
    rw [h a ha] at hletter
    cases hletter

/-- The empty phrase has no words. -/
theorem areWords_nil_iff : AreWords [] ws ↔ ws = [] := by
  constructor
  · intro h
    have hflat : ws.flatten = [] := h.whole
    rw [List.flatten_eq_nil_iff] at hflat
    exact List.eq_nil_iff_forall_not_mem.2 fun word hword => h.nonempty word hword (hflat word hword)
  · rintro rfl
    exact {
      nonempty := fun _ hword => absurd hword List.not_mem_nil
      alphanumeric := fun _ hword => absurd hword List.not_mem_nil
      whole := rfl
      placed := fun _ _ h => by cases h
      cut := fun _ => isCutBehind_of_not fun _ h => by cases h }

/-- A separator in front changes no words. -/
theorem areWords_cons_of_not_iff (hc : isAlphanumeric c = false) :
    AreWords (c :: s) ws ↔ AreWords s ws := by
  have hfilter : (c :: s).filter isAlphanumeric = s.filter isAlphanumeric :=
    List.filter_cons_of_neg (by simp [hc])
  have hplace := wordAt_of_not_isAlphanumeric hc ws s
  have hcut := isCutBehind_succ_iff (c := c) (s := s) fun i j => by rw [hplace i, hplace j]
  constructor
  · intro h
    have hwhole := h.whole.trans hfilter
    exact ⟨h.nonempty, h.alphanumeric, hwhole, fun _ _ => exists_wordAt hwhole,
      fun i => (hcut i).1 (h.cut (i + 1))⟩
  · intro h
    have hwhole := h.whole.trans hfilter.symm
    refine ⟨h.nonempty, h.alphanumeric, hwhole, fun _ _ => exists_wordAt hwhole, fun i => ?_⟩
    cases i with
    | zero => exact isCutBehind_of_not fun a ha => Option.some.inj ha ▸ hc
    | succ i => exact (hcut i).2 (h.cut i)

/-- A word begins at a capital behind a small letter or a digit, and at the last capital of several.
-/
theorem beginsWord_iff {after : Option Char} : beginsWord a b after = true ↔
    isUppercase b = true ∧ (isLowercase a = true ∨ isNumeric a = true ∨
      isUppercase a = true ∧ ∃ c, after = some c ∧ isLowercase c = true) := by
  simp [beginsWord, Option.any_eq_true, or_assoc]

theorem exists_of_continuesWord (h : continuesWord c s = true) :
    ∃ d t, s = d :: t ∧ isAlphanumeric d = true ∧ beginsWord c d t[0]? = false := by
  cases s with
  | nil => cases h
  | cons d t =>
      simp only [continuesWord, Bool.and_eq_true, Bool.not_eq_true', List.head?_eq_getElem?] at h
      exact ⟨d, t, rfl, h⟩

theorem continuesWord_cons (hb : isAlphanumeric b = true) (t : Text) :
    continuesWord a (b :: t) = !beginsWord a b t[0]? := by
  rw [continuesWord, hb, Bool.true_and, List.head?_eq_getElem?]

/-- The first place behind a character stands in its word or in the next one. -/
theorem wordAt_behind_zero (h : word ≠ []) (rest : List Text) (s : Text) :
    wordAt (behind word rest) s 0 = some 0 := by
  obtain ⟨c, word, rfl⟩ := List.exists_cons_of_ne_nil h
  simp [wordAt, behind, pieceAt]

theorem subset_behind (word : Text) (rest : List Text) : rest ⊆ behind word rest := by
  rw [behind]
  split
  · exact List.Subset.refl rest
  · exact List.subset_cons_self word rest

theorem mem_of_mem_behind {found : Text} (h : found ∈ behind word rest) :
    found ∈ rest ∨ found = word ∧ word ≠ [] := by
  rw [behind] at h
  split at h
  · exact .inl h
  · next hne =>
      rcases List.mem_cons.1 h with rfl | h
      · exact .inr ⟨rfl, hne⟩
      · exact .inl h

/-- A letter or a digit in front begins the first word. -/
theorem AreWords.exists_cons (hc : isAlphanumeric c = true) (h : AreWords (c :: s) ws) :
    ∃ word rest, ws = (c :: word) :: rest := by
  have hwhole := h.whole
  rw [List.filter_cons_of_pos hc] at hwhole
  cases ws with
  | nil => cases hwhole
  | cons first rest =>
      obtain ⟨d, word, rfl⟩ := List.exists_cons_of_ne_nil (h.nonempty first List.mem_cons_self)
      obtain rfl : d = c := (List.cons.inj hwhole).1
      exact ⟨word, rest, rfl⟩

/-- Without its first character the first word and the others hold the rest of the phrase. -/
theorem AreWords.whole_tail (hc : isAlphanumeric c = true)
    (h : AreWords (c :: s) ((c :: word) :: rest)) :
    (behind word rest).flatten = s.filter isAlphanumeric := by
  have hwhole := h.whole
  rw [List.filter_cons_of_pos hc] at hwhole
  rw [flatten_behind]
  exact (List.cons.inj hwhole).2

/-- The rest of a word begins with the next character, or else the word ends. -/
theorem AreWords.continuesWord_iff (hc : isAlphanumeric c = true)
    (h : AreWords (c :: s) ((c :: word) :: rest)) : word = [] ↔ continuesWord c s = false := by
  have hzero := wordAt_cons_zero c word rest s
  constructor
  · rintro rfl
    rw [← Bool.not_eq_true]
    intro hgo
    obtain ⟨d, t, rfl, hd, hbegins⟩ := exists_of_continuesWord hgo
    have hnext := ((h.cut 0).adjacent c d rfl rfl hc hd).trans beginsWord_iff.symm
    have hsame : wordAt ([c] :: rest) (c :: d :: t) 0 = wordAt ([c] :: rest) (c :: d :: t) 1 := by
      by_contra hne
      exact absurd (hnext.1 hne) (by simpa using hbegins)
    exact ((wordAt_succ_eq_zero_iff hc).1 (hsame.symm.trans hzero)).1 rfl
  · intro hstop
    by_contra hword
    obtain ⟨e, more, rfl⟩ := List.exists_cons_of_ne_nil hword
    have hfilter : s.filter isAlphanumeric = e :: (more ++ rest.flatten) := by
      rw [← h.whole_tail hc, flatten_behind]
      rfl
    -- `e` is the first letter or numeral behind `c`, so both are in the first word
    obtain ⟨signs, t, rfl, hsigns, he, -⟩ := List.filter_eq_cons_iff.1 hfilter
    have hsame : wordAt ((c :: e :: more) :: rest) (c :: (signs ++ e :: t)) (signs.length + 1) =
        some 0 := by
      have hcount : signs.countP isAlphanumeric = 0 := List.countP_eq_zero.2 hsigns
      rw [wordAt_succ_eq_zero_iff hc, wordAt, List.take_left', hcount]
      · exact ⟨List.cons_ne_nil e more, by simp [behind, pieceAt]⟩
      · rfl
    have hfound : (c :: (signs ++ e :: t))[signs.length + 1]? = some e := by simp
    cases signs with
    | nil =>
        have hnext := ((h.cut 0).adjacent c e rfl hfound hc he).trans beginsWord_iff.symm
        rw [List.nil_append, continuesWord_cons he, Bool.not_eq_false'] at hstop
        exact hnext.2 hstop (hzero.trans hsame.symm)
    | cons d signs =>
        have hd : isAlphanumeric d = false := by simpa using hsigns d List.mem_cons_self
        exact (h.cut 0).separated 1 _ c d e Nat.zero_lt_one (by simp) rfl rfl hfound hc hd he
          (hzero.trans hsame.symm)

/-- Without the first character of a phrase its words are those of the rest. -/
theorem AreWords.tail (hc : isAlphanumeric c = true)
    (h : AreWords (c :: s) ((c :: word) :: rest)) : AreWords s (behind word rest) where
  nonempty := by
    intro found hfound
    rcases mem_of_mem_behind hfound with hrest | ⟨rfl, hne⟩
    · exact h.nonempty found (List.mem_cons_of_mem _ hrest)
    · exact hne
  alphanumeric := fun _ hfound _ => isAlphanumeric_of_mem (h.whole_tail hc) hfound
  whole := h.whole_tail hc
  placed := fun _ _ => exists_wordAt (h.whole_tail hc)
  cut := fun i => (isCutBehind_succ_iff (wordAt_succ_ne_iff hc word rest s) i).1 (h.cut (i + 1))

/-- The word of the first character goes on exactly if its neighbour does not begin a word. -/
theorem AreWords.isCutBehind_zero (hc : isAlphanumeric c = true) (h : AreWords s (behind word rest))
    (hstop : word = [] ↔ continuesWord c s = false) :
    IsCutBehind (c :: s) ((c :: word) :: rest) 0 := by
  have hzero := wordAt_cons_zero c word rest s
  constructor
  · intro a b ha hb _ hletter
    obtain rfl : c = a := Option.some.inj ha
    obtain ⟨t, rfl⟩ : ∃ t, s = b :: t := by
      cases s with
      | nil => cases hb
      | cons d t => exact ⟨t, by rw [← Option.some.inj hb]⟩
    have hbegins : beginsWord c b (c :: b :: t)[0 + 2]? = true ↔ word = [] := by
      rw [hstop, continuesWord_cons hletter, Bool.not_eq_false']
      rfl
    rw [← beginsWord_iff, hbegins, hzero, ne_comm, Ne, wordAt_succ_eq_zero_iff hc, not_and_or, not_not,
      or_iff_left_iff_imp]
    intro hne
    by_contra hword
    exact hne (wordAt_behind_zero hword rest _)
  · intro j k a b d hj hjk _ hb hd _ hsign hletter
    obtain ⟨j, rfl⟩ : ∃ j', j = j' + 1 := ⟨j - 1, by omega⟩
    obtain ⟨k, rfl⟩ : ∃ k', k = k' + 1 := ⟨k - 1, by omega⟩
    rw [hzero]
    intro hsame
    obtain ⟨hword, hsame⟩ := (wordAt_succ_eq_zero_iff hc).1 hsame.symm
    have hgo : continuesWord c s = true := by
      rw [← Bool.not_eq_false]
      exact fun hfalse => hword (hstop.2 hfalse)
    obtain ⟨e, t, rfl, he, -⟩ := exists_of_continuesWord hgo
    have hpos : 0 < j := by
      refine Nat.pos_of_ne_zero ?_
      rintro rfl
      obtain rfl : e = b := Option.some.inj hb
      rw [he] at hsign
      cases hsign
    exact (h.cut 0).separated j k e b d hpos (by omega) rfl hb hd he hsign hletter
      ((wordAt_behind_zero hword rest _).trans hsame.symm)

/-- Words with one more character in front, which goes on with a word or is one by itself. -/
theorem AreWords.cons (hc : isAlphanumeric c = true) (h : AreWords s (behind word rest))
    (hstop : word = [] ↔ continuesWord c s = false) : AreWords (c :: s) ((c :: word) :: rest) := by
  have hwhole : ((c :: word) :: rest).flatten = (c :: s).filter isAlphanumeric := by
    rw [List.filter_cons_of_pos hc, ← h.whole, flatten_behind]
    rfl
  refine ⟨fun found hfound => ?_, fun _ hfound _ => isAlphanumeric_of_mem hwhole hfound, hwhole,
    fun _ _ => exists_wordAt hwhole, fun i => ?_⟩
  · rcases List.mem_cons.1 hfound with rfl | hfound
    · exact List.cons_ne_nil c word
    · exact h.nonempty found (subset_behind word rest hfound)
  · cases i with
    | zero => exact h.isCutBehind_zero hc hstop
    | succ i => exact (isCutBehind_succ_iff (wordAt_succ_ne_iff hc word rest s) i).2 (h.cut i)

/-! ## Words of phrases -/

/-- Behind its first letter or digit a phrase has the words of the rest. -/
theorem exists_words_cons (hc : isAlphanumeric c = true) (s : Text) : ∃ word rest,
    words (c :: s) = (c :: word) :: rest ∧ behind word rest = words s ∧
      (word = [] ↔ continuesWord c s = false) := by
  rw [words, if_pos hc]
  cases hgo : continuesWord c s with
  | false => exact ⟨[], words s, rfl, rfl, iff_of_true rfl rfl⟩
  | true =>
      obtain ⟨d, t, rfl, hd, -⟩ := exists_of_continuesWord hgo
      have hflat := flatten_words (d :: t)
      rw [List.filter_cons_of_pos hd] at hflat
      cases hwords : words (d :: t) with
      | nil =>
          rw [hwords] at hflat
          cases hflat
      | cons word rest =>
          have hne : word ≠ [] := ne_nil_of_mem_words (hwords ▸ List.mem_cons_self)
          exact ⟨word, rest, rfl, if_neg hne, iff_of_false hne Bool.noConfusion⟩

theorem words_of_not_isAlphanumeric (hc : isAlphanumeric c = false) (s : Text) :
    words (c :: s) = words s := by
  rw [words, hc]
  rfl

/-- The words behind a character determine those with it, if it is known whether its word goes on.
-/
theorem behind_inj {word' : Text} {rest' : List Text} (hnil : word = [] ↔ word' = [])
    (h : behind word rest = behind word' rest') : word = word' ∧ rest = rest' := by
  rw [behind, behind] at h
  by_cases hword : word = []
  · rw [if_pos hword, if_pos (hnil.1 hword)] at h
    exact ⟨hword.trans (hnil.1 hword).symm, h⟩
  · rw [if_neg hword, if_neg fun h' => hword (hnil.2 h')] at h
    exact List.cons.inj h

/-- The words of a phrase are the only ones cut at its boundaries. -/
theorem areWords_iff : AreWords s ws ↔ ws = words s := by
  induction s generalizing ws with
  | nil => exact areWords_nil_iff
  | cons c s ih =>
      cases hc : isAlphanumeric c with
      | false => rw [areWords_cons_of_not_iff hc, ih, words_of_not_isAlphanumeric hc]
      | true =>
          obtain ⟨word, rest, hwords, hbehind, hstop⟩ := exists_words_cons hc s
          rw [hwords]
          constructor
          · intro h
            obtain ⟨word', rest', rfl⟩ := h.exists_cons hc
            have hsame : behind word' rest' = behind word rest :=
              (ih.1 (h.tail hc)).trans hbehind.symm
            obtain ⟨rfl, rfl⟩ := behind_inj ((h.continuesWord_iff hc).trans hstop.symm) hsame
            rfl
          · rintro rfl
            exact AreWords.cons hc (ih.2 hbehind) hstop

/-- A phrase has no words exactly if it has no letter and no digit. -/
theorem words_eq_nil_iff : words s = [] ↔ ∀ c ∈ s, isAlphanumeric c = false := by
  have hnil : words s = [] ↔ (words s).flatten = [] := by
    refine ⟨fun h => by rw [h, List.flatten_nil], fun h => ?_⟩
    rw [List.flatten_eq_nil_iff] at h
    exact List.eq_nil_iff_forall_not_mem.2 fun word hword => ne_nil_of_mem_words hword (h word hword)
  rw [hnil, flatten_words, List.filter_eq_nil_iff]
  simp only [Bool.not_eq_true]

/-- The words of a phrase are the only ones that hold its letters and numerals and are cut between
neighbours where the characters around say so, and wherever another character stands. So a label has no
names exactly if no character of its phrase is a letter or a numeral. -/
theorem areWords_words : (∀ phrase words', AreWords phrase words' ↔ words' = words phrase) ∧
    ∀ label e, Names.ofLabel label = .error e ↔
      (∀ c ∈ phrase label, isAlphanumeric c = false) ∧ e = .emptyLabel label := by
  refine ⟨fun _ _ => areWords_iff, fun label e => ?_⟩
  rw [Names.ofLabel_eq_error_iff, words_eq_nil_iff]

end Viewloom.Label
