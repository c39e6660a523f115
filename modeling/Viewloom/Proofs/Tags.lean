import Viewloom.Template.Binding

/-!
# Tags that carry socket names

A tag is cut at its first socket mark. The cut is the right one unless a mark begins within the tag
of the element itself.
-/

namespace Viewloom

namespace Text

variable {separator s before after : Text} {c : Char}

/-- A separator at the beginning splits off nothing. -/
theorem splitOnce_append (separator rest : Text) :
    splitOnce separator (separator ++ rest) = some ([], rest) := by
  cases h : separator ++ rest with
  | nil =>
      obtain ⟨rfl, rfl⟩ := List.append_eq_nil_iff.1 h
      rfl
  | cons c s => rw [splitOnce, stripStart_eq_some_iff.2 h.symm]

/-- Where no separator begins, the split is one character further. -/
theorem splitOnce_cons (h : ¬ separator <+: c :: s) :
    splitOnce separator (c :: s) =
      (splitOnce separator s).map fun (before, after) => (c :: before, after) := by
  cases hstrip : stripStart separator (c :: s) with
  | some rest => exact absurd ⟨rest, (stripStart_eq_some_iff.1 hstrip).symm⟩ h
  | none => rw [splitOnce, hstrip]

/-- A text is not split exactly if it does not hold the separator. -/
theorem splitOnce_eq_none_iff (h : separator ≠ []) :
    splitOnce separator s = none ↔ ¬ separator <:+: s := by
  induction s with
  | nil => simp [splitOnce, h]
  | cons c s ih =>
      rw [List.infix_cons_iff, not_or]
      by_cases hbegins : separator <+: c :: s
      · obtain ⟨rest, hrest⟩ := hbegins
        rw [← hrest, splitOnce_append]
        simp
      · rw [splitOnce_cons hbegins, Option.map_eq_none_iff, ih]
        simp [hbegins]

theorem not_infix_dropLast (h : separator ≠ []) : ¬ separator <:+: separator.dropLast := by
  intro hin
  have hlength := hin.length_le
  have hpos := List.length_pos_iff.2 h
  rw [List.length_dropLast] at hlength
  omega

theorem isPrefix_append_dropLast (before separator after : Text) :
    before ++ separator.dropLast <+: before ++ separator ++ after := by
  rw [List.append_assoc, List.prefix_append_right_inj]
  exact (List.dropLast_prefix separator).trans (List.prefix_append ..)

/-- A text is cut at an occurrence of the separator before which no other one begins. -/
theorem splitOnce_eq_some_iff (h : separator ≠ []) :
    splitOnce separator s = some (before, after) ↔
      s = before ++ separator ++ after ∧ ¬ separator <:+: before ++ separator.dropLast := by
  induction s generalizing before with
  | nil => simp [splitOnce, h]
  | cons c s ih =>
      by_cases hbegins : separator <+: c :: s
      · obtain ⟨rest, hrest⟩ := hbegins
        rw [← hrest, splitOnce_append, Option.some.injEq, Prod.mk.injEq]
        constructor
        · rintro ⟨rfl, rfl⟩
          exact ⟨rfl, not_infix_dropLast h⟩
        · rintro ⟨heq, hnot⟩
          cases before with
          | nil => exact ⟨rfl, List.append_cancel_left heq⟩
          | cons b before =>
              -- The occurrence at the front ends before the last character of the one behind it.
              refine absurd (List.IsPrefix.isInfix ?_) hnot
              have hcut : b :: before ++ separator.dropLast <+: separator ++ rest :=
                heq ▸ isPrefix_append_dropLast ..
              refine List.prefix_of_prefix_length_le (List.prefix_append ..) hcut ?_
              simp only [List.length_append, List.length_cons, List.length_dropLast]
              omega
      · rw [splitOnce_cons hbegins]
        cases before with
        | nil =>
            have hne : c :: s ≠ separator ++ after := fun heq => hbegins ⟨after, heq.symm⟩
            simp [hne]
        | cons b before =>
            rw [List.cons_append, List.cons_append, List.cons_append, List.cons.injEq,
              List.infix_cons_iff, not_or]
            have hmore : (splitOnce separator s).map (fun (x, y) => (c :: x, y)) =
                some (b :: before, after) ↔ c = b ∧ splitOnce separator s = some (before, after) := by
              cases splitOnce separator s <;> simp [Prod.ext_iff, and_assoc]
            rw [hmore, ih, and_assoc]
            refine and_congr_right fun hc => and_congr_right fun hs => ?_
            have hfront : ¬ separator <+: b :: (before ++ separator.dropLast) := by
              intro hp
              apply hbegins
              rw [hc, hs]
              exact hp.trans (isPrefix_append_dropLast (b :: before) separator after)
            exact (and_iff_right hfront).symm

end Text

/-! ## Socket marks -/

theorem socketMark_eq : socketMark = ['-', 'a', 'f', '-', 's', 'o', 'c', 'k', '-'] := by decide

theorem socketMark_ne_nil : socketMark ≠ [] := by simp [socketMark_eq]

/-- The socket mark without its last hyphen. -/
def openMark : Text := text "-af-sock"

theorem openMark_eq : openMark = ['-', 'a', 'f', '-', 's', 'o', 'c', 'k'] := by decide

theorem dropLast_socketMark : socketMark.dropLast = openMark := by decide

theorem openMark_prefix_socketMark : openMark <+: socketMark := by
  rw [← dropLast_socketMark]
  exact List.dropLast_prefix socketMark

/-- A tag is not split exactly if it does not hold the mark of sockets. -/
theorem splitSocketTag_eq_none_iff {tag : Text} :
    splitSocketTag tag = none ↔ ¬ socketMark <:+: tag :=
  Text.splitOnce_eq_none_iff socketMark_ne_nil

/-- A tag and a socket name are found again unless a mark begins within the tag. -/
theorem splitSocketTag_socketTag_iff {tag socket : Text} :
    splitSocketTag (socketTag tag socket) = some (tag, socket) ↔
      ¬ socketMark <:+: tag ++ openMark := by
  rw [splitSocketTag, Text.splitOnce_eq_some_iff socketMark_ne_nil, dropLast_socketMark]
  simp [socketTag]

/-- The hyphen at the end of a mark begins no other one. -/
theorem not_infix_append_openMark {tag : Text} (h : ¬ openMark <:+: tag) :
    ¬ socketMark <:+: tag ++ openMark := by
  induction tag with
  | nil => exact fun hin => absurd hin.length_le (by decide)
  | cons c tag ih =>
      rw [List.infix_cons_iff, not_or] at h
      rw [List.cons_append, List.infix_cons_iff, not_or]
      refine ⟨fun hp => h.1 ?_, ih h.2⟩
      by_cases hlength : openMark.length ≤ (c :: tag).length
      · exact List.prefix_of_prefix_length_le (openMark_prefix_socketMark.trans hp)
          (List.prefix_append (c :: tag) openMark) hlength
      · exfalso
        rw [socketMark_eq, openMark_eq] at hp
        rw [openMark_eq] at hlength
        rcases tag with _ | ⟨_, _ | ⟨_, _ | ⟨_, _ | ⟨_, _ | ⟨_, _ | ⟨_, _ | ⟨_, tag⟩⟩⟩⟩⟩⟩⟩
        iterate 7
          · simp at hp
        · simp only [List.length_cons, List.length_nil] at hlength
          omega

/-- A tag without the beginning of the mark is not split. -/
theorem splitSocketTag_eq_none {tag : Text} (h : ¬ openMark <:+: tag) :
    splitSocketTag tag = none :=
  splitSocketTag_eq_none_iff.2 fun hin => h (openMark_prefix_socketMark.isInfix.trans hin)

/-- A tag without the beginning of the mark is split from its socket as it was put together. -/
theorem splitSocketTag_socketTag {tag : Text} (h : ¬ openMark <:+: tag) (socket : Text) :
    splitSocketTag (socketTag tag socket) = some (tag, socket) :=
  splitSocketTag_socketTag_iff.2 (not_infix_append_openMark h)

/-- A tag is cut into what it was written from if it is cut in front of the same socket name. -/
theorem eq_of_splitSocketTag {tag socket base : Text}
    (h : splitSocketTag (socketTag tag socket) = some (base, socket)) : base = tag := by
  have happend := Text.append_of_splitOnce h
  rw [socketTag] at happend
  exact (List.append_cancel_right (List.append_cancel_right happend)).symm

theorem splitSocketTag_socketTag_ne_none (tag socket : Text) :
    splitSocketTag (socketTag tag socket) ≠ none := by
  intro h
  exact splitSocketTag_eq_none_iff.1 h ⟨tag, socket, rfl⟩

/-! ## Placeholders -/

/-- Different tags have different placeholders. -/
theorem placeholderTag_injective {tag tag' : Text}
    (h : Extraction.placeholderTag tag = Extraction.placeholderTag tag') : tag = tag' :=
  List.append_cancel_left h

/-- A placeholder holds the mark of sockets only if its tag does. -/
theorem not_openMark_infix_placeholderTag {tag : Text} (h : ¬ text "af-sock" <:+: tag) :
    ¬ openMark <:+: Extraction.placeholderTag tag := by
  have hmark : openMark = '-' :: text "af-sock" := by decide
  have hstart : text "af-" = ['a', 'f', '-'] := by decide
  rw [Extraction.placeholderTag, hstart, hmark]
  intro hin
  simp only [List.cons_append, List.nil_append, List.infix_cons_iff, List.cons_prefix_cons] at hin
  rcases hin with ⟨hc, -⟩ | ⟨hc, -⟩ | ⟨-, hin⟩ | hin
  · exact absurd hc (by decide)
  · exact absurd hc (by decide)
  · exact h hin.isInfix
  · exact h ((List.suffix_cons _ _).isInfix.trans hin)

/-! ## Class names -/

namespace Unicode

/-- A shifted code point stands at a stride of its run. -/
theorem exists_stride_of_shiftOf {runs : List (Nat × Nat × Nat × Int)} {n : Nat} {shift : Int}
    (h : shiftOf runs n = some shift) :
    ∃ run ∈ runs, run.2.2.2 = shift ∧ run.1 ≤ n ∧ n ≤ run.2.1 ∧ (n - run.1) % run.2.2.1 = 0 := by
  induction runs with
  | nil => simp [shiftOf] at h
  | cons run runs ih =>
      obtain ⟨first, last, step, s⟩ := run
      simp only [shiftOf] at h
      split at h
      · simp at h
      · next hfirst =>
        split at h
        · next hlast =>
          split at h
          · next hstep =>
            exact ⟨(first, last, step, s), by simp, Option.some.inj h, Nat.le_of_not_lt hfirst, hlast,
              by simpa using hstep⟩
          · simp at h
        · obtain ⟨run, hrun, hshift⟩ := ih h
          exact ⟨run, List.mem_cons_of_mem _ hrun, hshift⟩

/-- A shift is that of a run which holds the code point. -/
theorem exists_run_of_shiftOf {runs : List (Nat × Nat × Nat × Int)} {n : Nat} {shift : Int}
    (h : shiftOf runs n = some shift) :
    ∃ run ∈ runs, run.2.2.2 = shift ∧ run.1 ≤ n ∧ n ≤ run.2.1 := by
  obtain ⟨run, hrun, hshift, hfirst, hlast, -⟩ := exists_stride_of_shiftOf h
  exact ⟨run, hrun, hshift, hfirst, hlast⟩

theorem ofNat_ne_hyphen {n : Nat} (h : n ≠ 45) : Char.ofNat n ≠ '-' := by
  intro hc
  have hn : (Char.ofNat n).toNat = 45 := congrArg Char.toNat hc
  by_cases hvalid : n.isValidChar
  · rw [Char.ofNat, dif_pos hvalid] at hn
    exact h hn
  · rw [Char.ofNat, dif_neg hvalid] at hn
    exact absurd hn (by decide)

/-- No other character has a hyphen among its capitals. -/
theorem hyphen_not_mem_upperChar {c : Char} (h : c ≠ '-') : '-' ∉ upperChar c := by
  unfold upperChar
  split
  · next codes hcodes =>
    obtain ⟨l₁, l₂, hl, -⟩ := List.lookup_eq_some_iff.1 hcodes
    have hall : ∀ entry ∈ upperExpansions, ∀ n ∈ entry.2, n ≠ 45 := by decide +kernel
    simp only [List.mem_map, not_exists, not_and]
    exact fun n hn => ofNat_ne_hyphen (hall (c.toNat, codes) (by simp [hl]) n hn)
  · unfold shiftChar
    split
    · next shift hshift =>
      obtain ⟨run, hrun, hs, hfirst, -⟩ := exists_run_of_shiftOf hshift
      have hall : ∀ run ∈ upperRuns, (45 : Int) < run.1 + run.2.2.2 := by decide +kernel
      have hlt := hall run hrun
      have hne : ((c.toNat : Int) + shift).toNat ≠ 45 := by omega
      simpa using (ofNat_ne_hyphen hne).symm
    · simpa using h.symm

end Unicode

namespace Label

/-- The characters of words are letters and numerals. -/
theorem isAlphanumeric_of_mem_words {s word : Text} (h : word ∈ words s) {c : Char} (hc : c ∈ word) :
    Unicode.isAlphanumeric c = true := by
  have hflat : c ∈ (words s).flatten := List.mem_flatten.2 ⟨word, h, hc⟩
  rw [flatten_words] at hflat
  exact (List.mem_filter.1 hflat).2

end Label

namespace Names

/-- Capitalizing a word brings no hyphen into it. -/
theorem hyphen_not_mem_capitalize {word : Text} (h : '-' ∉ word) : '-' ∉ capitalize word := by
  cases word with
  | nil => exact h
  | cons c s =>
      simp only [List.mem_cons, not_or] at h
      simp only [capitalize, List.mem_append, not_or]
      exact ⟨Unicode.hyphen_not_mem_upperChar (Ne.symm h.1), h.2⟩

theorem hyphen_not_mem_lead (words : List Text) : '-' ∉ lead words := by
  unfold lead
  split
  · split <;> decide
  · decide

/-- A class name has no hyphen. -/
theorem hyphen_not_mem_className {label : Text} {names : Names} (h : ofLabel label = .ok names) :
    '-' ∉ names.className := by
  unfold ofLabel at h
  split at h
  · simp at h
  · simp only [Except.ok.injEq] at h
    subst h
    simp only [ofWords, pascalCase, List.mem_append, not_or, List.mem_flatMap, not_exists, not_and]
    refine ⟨⟨hyphen_not_mem_lead _, fun word hword => hyphen_not_mem_capitalize fun hc => ?_⟩,
      by decide⟩
    exact absurd (Label.isAlphanumeric_of_mem_words hword hc) (by decide +kernel)

end Names

/-- A reference to a child view never holds a mark. -/
theorem not_openMark_infix_controllerRef {label : Text} {names : Names}
    (h : Names.ofLabel label = .ok names) :
    ¬ openMark <:+: Template.controllerRef names.className := by
  intro hin
  have hhyphen : '-' ∈ Template.controllerRef names.className :=
    hin.subset (by rw [openMark_eq]; simp)
  simp only [Template.controllerRef, List.mem_append] at hhyphen
  rcases hhyphen with hc | hc
  · exact Names.hyphen_not_mem_className h hc
  · exact absurd hc (by decide)

end Viewloom
