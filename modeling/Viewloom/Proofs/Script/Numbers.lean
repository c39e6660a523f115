import Viewloom.Proofs.Script.Tokens

/-!
# Numbers in front of a rest

Whatever is read as a number consists of characters of numbers, so it ends in front of a sign that no
number has. A numeral that a template writes is read as a whole.
-/

namespace Viewloom.Script

open Template

/-! ## Behind a number -/

/-- The characters that numbers consist of. -/
def isNumberPart (c : Char) : Bool := isNamePart c || c == '.' || c == '+' || c == '-'

/-- The rest of a text behind characters of numbers. -/
def PastNumber (s x : Text) : Prop := ∃ digits, s = digits ++ x ∧ digits.all isNumberPart = true

namespace PastNumber

theorem refl (s : Text) : PastNumber s s := ⟨[], rfl, rfl⟩

theorem cons {c : Char} {s x : Text} (hc : isNumberPart c = true) (h : PastNumber s x) :
    PastNumber (c :: s) x := by
  obtain ⟨digits, rfl, hall⟩ := h
  exact ⟨c :: digits, rfl, by simp [hc, hall]⟩

theorem trans {s x y : Text} (h : PastNumber s x) (h' : PastNumber x y) : PastNumber s y := by
  obtain ⟨digits, rfl, hall⟩ := h
  obtain ⟨more, rfl, hmore⟩ := h'
  exact ⟨digits ++ more, by simp, by simp [hall, hmore]⟩

/-- A number ends in front of a character of another kind. -/
theorem eq_append {v x y : Text} (h : PastNumber (v ++ x) y)
    (hx : x.head?.all (fun c => !isNumberPart c) = true) :
    ∃ v₁ v₂, v = v₁ ++ v₂ ∧ y = v₂ ++ x := by
  obtain ⟨digits, heq, hall⟩ := h
  rcases List.append_eq_append_iff.1 heq with ⟨more, hdigits, hmore⟩ | ⟨more, hv, hy⟩
  · cases more with
    | nil => exact ⟨v, [], by simp, by simpa using hmore.symm⟩
    | cons d more =>
        subst hdigits
        simp only [List.all_append, List.all_cons, Bool.and_eq_true] at hall
        simp [hmore, hall.2.1] at hx
  · exact ⟨digits, more, hv, hy⟩

end PastNumber

section Digits

variable {isDigit : Char → Bool} (hdigit : ∀ c, isDigit c = true → isNumberPart c = true)
include hdigit

/-- What is read as digits consists of parts of a number. -/
theorem pastNumber_readDigits (s : Text) : PastNumber s (readDigits isDigit s).2 := by
  induction s with
  | nil => exact .refl []
  | cons c s ih =>
      simp only [readDigits]
      split
      · next hc => exact .cons (hdigit c hc) ih
      · split
        · next hc =>
            split
            · next d digits rest h =>
                rw [h] at ih
                split
                · exact .refl _
                · exact .cons (by simp [hc]; decide) ih
            · exact .refl _
        · exact .refl _

/-- A whole number takes parts of a number only. -/
theorem pastNumber_readWhole {s digits x : Text} (h : readWhole isDigit s = some (digits, x)) :
    PastNumber s x := by
  have hread := pastNumber_readDigits hdigit s
  unfold readWhole at h
  split at h
  · cases h
  · cases h
  · simpa [Option.some.inj h] using hread

/-- A number with a base takes parts of a number only. -/
theorem pastNumber_readBased {head s spelling x : Text}
    (h : readBased head isDigit s = some (spelling, x)) : PastNumber s x := by
  unfold readBased at h
  split at h
  · next digits rest hwhole =>
      cases h
      exact (pastNumber_readWhole hdigit hwhole).trans (.cons (by decide) (.refl _))
  · next digits rest _ hwhole =>
      cases h
      exact pastNumber_readWhole hdigit hwhole
  · cases h

end Digits

theorem isNumberPart_of_isDigit {c : Char} (h : c.isDigit = true) : isNumberPart c = true := by
  simp [isNumberPart, isNamePart, h]

theorem isNumberPart_of_isOctalDigit {c : Char} (h : isOctalDigit c = true) :
    isNumberPart c = true := by
  refine isNumberPart_of_isDigit ?_
  simp only [isOctalDigit, Bool.and_eq_true, decide_eq_true_eq, Char.isDigit] at h ⊢
  exact ⟨h.1, Nat.le_trans h.2 (by decide)⟩

theorem isNumberPart_of_isBinaryDigit {c : Char} (h : isBinaryDigit c = true) :
    isNumberPart c = true := by
  simp only [isBinaryDigit, Bool.or_eq_true, beq_iff_eq] at h
  rcases h with rfl | rfl <;> decide

theorem isNumberPart_of_isHexDigit {c : Char} (h : isHexDigit c = true) :
    isNumberPart c = true := by
  have hclass : c.isAlpha = true ∨ c.isDigit = true := by
    unfold isHexDigit hexValue? at h
    simp only [isAlpha_iff, Char.isDigit, Bool.and_eq_true, decide_eq_true_eq]
    split at h
    · next hc => exact .inr hc
    split at h
    · next hc => exact .inl (.inr ⟨hc.1, Nat.le_trans hc.2 (by decide)⟩)
    split at h
    · next hc => exact .inl (.inl ⟨hc.1, Nat.le_trans hc.2 (by decide)⟩)
    · simp at h
  rcases hclass with h | h <;> simp [isNumberPart, isNamePart, isAsciiLetter, h]

theorem pastNumber_map_readWhole {spell : Text × Text → Text × Text} {s spelling x : Text}
    (h : (readWhole Char.isDigit s).map spell = some (spelling, x))
    (hspell : ∀ found, (spell found).2 = found.2) : PastNumber s x := by
  obtain ⟨⟨digits, y⟩, hwhole, heq⟩ := Option.map_eq_some_iff.1 h
  obtain rfl : x = y := (congrArg Prod.snd heq).symm.trans (hspell (digits, y))
  exact pastNumber_readWhole (fun _ => isNumberPart_of_isDigit) hwhole

/-- An exponent takes parts of a number only. -/
theorem pastNumber_readExponent {s scale x : Text} (h : readExponent s = some (scale, x)) :
    PastNumber s x := by
  unfold readExponent at h
  split at h
  · next c s =>
      split at h
      · next hc =>
          have hpart : isNumberPart c = true := by rcases hc with rfl | rfl <;> decide
          refine .cons hpart ?_
          split at h
          · exact .cons (by decide) (pastNumber_map_readWhole h fun _ => rfl)
          · exact .cons (by decide) (pastNumber_map_readWhole h fun _ => rfl)
          · exact pastNumber_map_readWhole h fun _ => rfl
      · cases h
        exact .refl _
  · cases h
    exact .refl _

theorem pastNumber_readFraction {whole s spelling x : Text}
    (h : readFraction whole s = some (spelling, x)) : PastNumber s x := by
  unfold readFraction at h
  split at h
  · next s =>
      refine .cons (by decide) ?_
      dsimp only at h
      obtain ⟨⟨scale, y⟩, hscale, heq⟩ := Option.map_eq_some_iff.1 h
      cases heq
      have hexponent := pastNumber_readExponent hscale
      split at hexponent
      · next found hwhole =>
          exact (pastNumber_readWhole (fun _ => isNumberPart_of_isDigit) hwhole).trans hexponent
      · exact hexponent
  · obtain ⟨⟨scale, y⟩, hscale, heq⟩ := Option.map_eq_some_iff.1 h
    cases heq
    exact pastNumber_readExponent hscale

theorem pastNumber_readZeroLed {s spelling x : Text} (h : readZeroLed s = some (spelling, x)) :
    PastNumber s x := by
  have hdigits : PastNumber s (s.dropWhile Char.isDigit) := by
    refine ⟨s.takeWhile Char.isDigit, List.takeWhile_append_dropWhile.symm, ?_⟩
    rw [List.all_eq_true]
    intro c hc
    exact isNumberPart_of_isDigit (List.all_eq_true.1 List.all_takeWhile c hc)
  simp only [readZeroLed, Text.drop_length_takeWhile] at h
  split at h
  · cases h
    exact hdigits
  · exact hdigits.trans (pastNumber_readFraction h)

theorem pastNumber_readUnbounded {s spelling x : Text} (h : readUnbounded s = some (spelling, x)) :
    PastNumber s x := by
  have hwhole {s digits x : Text} (h : readWhole Char.isDigit s = some (digits, x)) :
      PastNumber s x :=
    pastNumber_readWhole (fun _ => isNumberPart_of_isDigit) h
  unfold readUnbounded at h
  split at h
  · next c s =>
      split at h
      · next hc =>
          have hpart : isNumberPart c = true := by rcases hc with rfl | rfl <;> decide
          exact .cons (by decide) (.cons hpart
            (pastNumber_readBased (fun _ => isNumberPart_of_isHexDigit) h))
      split at h
      · next hc =>
          have hpart : isNumberPart c = true := by rcases hc with rfl | rfl <;> decide
          exact .cons (by decide) (.cons hpart
            (pastNumber_readBased (fun _ => isNumberPart_of_isOctalDigit) h))
      split at h
      · next hc =>
          have hpart : isNumberPart c = true := by rcases hc with rfl | rfl <;> decide
          exact .cons (by decide) (.cons hpart
            (pastNumber_readBased (fun _ => isNumberPart_of_isBinaryDigit) h))
      split at h
      · next hc =>
          cases h
          exact .cons (by decide) (.cons (by rw [hc]; decide) (.refl _))
      split at h
      · exact pastNumber_readZeroLed h
      split at h
      · cases h
      · exact .cons (by decide) (pastNumber_readFraction h)
  · next s =>
      split at h
      · next digits rest hdigits =>
          obtain ⟨⟨scale, y⟩, hscale, heq⟩ := Option.map_eq_some_iff.1 h
          cases heq
          exact .cons (by decide) ((hwhole hdigits).trans (pastNumber_readExponent hscale))
      · cases h
  · split at h
    · next digits rest hdigits =>
        cases h
        exact (hwhole hdigits).trans (.cons (by decide) (.refl _))
    · next digits rest _ hdigits => exact (hwhole hdigits).trans (pastNumber_readFraction h)
    · cases h

/-- Behind a number stands no part of a name. -/
theorem pastNumber_readNumber {s spelling x : Text} (h : readNumber s = some (spelling, x)) :
    PastNumber s x ∧ endsName x = true := by
  unfold readNumber at h
  split at h
  · next c x hread =>
      split at h
      · cases h
      · next hc =>
          cases h
          exact ⟨pastNumber_readUnbounded hread, by simpa [endsName] using hc⟩
  · next hnot =>
      refine ⟨pastNumber_readUnbounded h, ?_⟩
      cases x with
      | nil => rfl
      | cons c x => exact absurd h (hnot _ _ _)

/-! ## Numerals -/

/-- Whether a numeral is read in two pieces: octal digits behind a leading zero, and a point. -/
def isOctalPointed : Text → Bool
  | '0' :: c :: s =>
    c.isDigit && (('0' :: c :: s).takeWhile Char.isDigit).all isOctalDigit && s.contains '.'
  | _ => false

theorem isNamePart_of_isDigit {c : Char} (h : c.isDigit = true) : isNamePart c = true := by
  simp [isNamePart, h]

section Numerals

variable {c : Char} {y : Text} (hc : isNamePart c = false)
include hc

theorem ne_of_isNamePart {d : Char} (hd : isNamePart d = true) : c ≠ d := by
  rintro rfl
  rw [hd] at hc
  cases hc

theorem isDigit_eq_false : c.isDigit = false := by
  rw [← Bool.not_eq_true]
  intro hdigit
  rw [isNamePart_of_isDigit hdigit] at hc
  cases hc

/-- Digits are read up to a character that goes on with no number. -/
theorem readDigits_append {digits : Text} (hdigits : digits.all Char.isDigit = true) :
    readDigits Char.isDigit (digits ++ c :: y) = (digits, c :: y) := by
  induction digits with
  | nil => simp [readDigits, isDigit_eq_false hc, ne_of_isNamePart hc (d := '_') (by decide)]
  | cons d digits ih =>
      simp only [List.all_cons, Bool.and_eq_true] at hdigits
      simp [readDigits, hdigits.1, ih hdigits.2]

/-- Some digits are read as a whole number. -/
theorem readWhole_append {digits : Text} (hdigits : digits.all Char.isDigit = true)
    (hne : digits ≠ []) : readWhole Char.isDigit (digits ++ c :: y) = some (digits, c :: y) := by
  have hread := readDigits_append hc (y := y) hdigits
  obtain ⟨d, digits, rfl⟩ := List.exists_cons_of_ne_nil hne
  simp only [List.all_cons, Bool.and_eq_true] at hdigits
  have hlow : d ≠ '_' := by
    rintro rfl
    exact absurd hdigits.1 (by decide)
  unfold readWhole
  rw [hread]
  split
  · next heq => cases heq
  · next heq =>
    cases heq
    exact absurd rfl hlow
  · rfl

theorem readExponent_end : readExponent (c :: y) = some ([], c :: y) := by
  have hsmall : c ≠ 'e' := ne_of_isNamePart hc (by decide)
  have hlarge : c ≠ 'E' := ne_of_isNamePart hc (by decide)
  simp [readExponent, hsmall, hlarge]

/-- The digits behind a point, if there is one. -/
theorem readFraction_append {whole fraction : Text} (hpoint : c ≠ '.')
    (hfraction : fraction = [] ∨ ∃ digits, fraction = '.' :: digits ∧
      digits.all Char.isDigit = true) :
    readFraction whole (fraction ++ c :: y) = some (whole ++ fraction, c :: y) := by
  rcases hfraction with rfl | ⟨digits, rfl, hdigits⟩
  · rw [List.nil_append, readFraction]
    · simp [readExponent_end hc]
    · rintro s heq
      cases heq
      exact absurd rfl hpoint
  · rw [List.cons_append, readFraction]
    by_cases hne : digits = []
    · subst hne
      have hread : readDigits Char.isDigit ([] ++ c :: y) = ([], c :: y) := readDigits_append hc rfl
      have hwhole : readWhole Char.isDigit ([] ++ c :: y) = none := by
        unfold readWhole
        rw [hread]
      simp only [hwhole]
      rw [List.nil_append, readExponent_end hc]
      simp
    · simp only [readWhole_append hc hdigits hne]
      rw [readExponent_end hc]
      simp

theorem takeWhile_isDigit {digits : Text} (hdigits : digits.all Char.isDigit = true) :
    (digits ++ c :: y).takeWhile Char.isDigit = digits := by
  rw [List.takeWhile_append_of_pos (List.all_eq_true.1 hdigits)]
  simp [isDigit_eq_false hc]

/-- Digits behind a leading zero are octal, or else the digits of a fraction. -/
theorem readUnbounded_zeroLed {d : Char} {digits : Text}
    (hdigits : ('0' :: d :: digits).all Char.isDigit = true) :
    readUnbounded ('0' :: d :: digits ++ c :: y) =
      if ('0' :: d :: digits).all isOctalDigit then some ('0' :: d :: digits, c :: y)
      else readFraction ('0' :: d :: digits) (c :: y) := by
  have hd : d.isDigit = true := by
    simp only [List.all_cons, Bool.and_eq_true] at hdigits
    exact hdigits.2.1
  have hletter (e : Char) (he : e.isDigit = false) : d ≠ e := by
    rintro rfl
    rw [hd] at he
    cases he
  have htake := takeWhile_isDigit hc (y := y) hdigits
  have hdrop : ('0' :: d :: digits ++ c :: y).drop ('0' :: d :: digits).length = c :: y :=
    List.drop_left
  have hled : readUnbounded ('0' :: d :: digits ++ c :: y) =
      readZeroLed ('0' :: d :: digits ++ c :: y) := by
    simp only [List.cons_append, readUnbounded, hletter 'x' (by decide), hletter 'X' (by decide),
      hletter 'o' (by decide), hletter 'O' (by decide), hletter 'b' (by decide),
      hletter 'B' (by decide), hletter 'n' (by decide), hd, or_self, if_false, if_true]
  rw [hled, readZeroLed]
  simp only [htake, hdrop]

end Numerals

/-- An octal number with a fraction is told by its leading zero. -/
theorem isOctalPointed_append {d : Char} {digits fraction : Text}
    (hdigits : ('0' :: d :: digits).all Char.isDigit = true)
    (hall : ('0' :: d :: digits).all isOctalDigit = true) :
    isOctalPointed ('0' :: d :: digits ++ '.' :: fraction) = true := by
  have htake := takeWhile_isDigit (y := fraction) (show isNamePart '.' = false by decide) hdigits
  simp only [List.all_cons, Bool.and_eq_true] at hdigits
  rw [List.cons_append, List.cons_append] at htake ⊢
  rw [isOctalPointed, htake, hall, hdigits.2.1]
  simp

/-- The digits of a numeral in front of a point and behind it. -/
theorem exists_digits_of_isNumeral {v : Text} (h : isNumeral v = true) :
    ∃ whole fraction, v = whole ++ fraction ∧ whole ≠ [] ∧ whole.all Char.isDigit = true ∧
      (fraction = [] ∨ ∃ digits, fraction = '.' :: digits ∧ digits.all Char.isDigit = true) := by
  simp only [isNumeral, Bool.and_eq_true, decide_eq_true_eq] at h
  obtain ⟨⟨hhead, hall⟩, hcount⟩ := h
  refine ⟨v.takeWhile Char.isDigit, v.dropWhile Char.isDigit,
    List.takeWhile_append_dropWhile.symm, ?_, List.all_takeWhile, ?_⟩
  · cases v with
    | nil => simp at hhead
    | cons d v =>
        have hd : d.isDigit = true := by simpa using hhead
        simp [hd]
  · cases hdrop : v.dropWhile Char.isDigit with
    | nil => exact .inl rfl
    | cons d rest =>
        have hd : d.isDigit = false := by
          have hnot := List.head?_dropWhile_not Char.isDigit v
          simpa only [hdrop, List.head?_cons] using hnot
        have hv : v = v.takeWhile Char.isDigit ++ d :: rest := by
          rw [← hdrop, List.takeWhile_append_dropWhile]
        rw [hv, List.all_append, List.all_cons, Bool.and_eq_true, Bool.and_eq_true] at hall
        have hpoint : d = '.' := by simpa [hd] using hall.2.1
        subst hpoint
        refine .inr ⟨rest, rfl, List.all_eq_true.2 fun e he => ?_⟩
        have hrest := List.all_eq_true.1 hall.2.2 e he
        have hne : e ≠ '.' := by
          rintro rfl
          have hmore : 1 ≤ rest.count '.' := List.count_pos_iff.2 he
          rw [hv, List.count_append, List.count_cons_self] at hcount
          omega
        simpa [hne] using hrest

/-- A numeral is read as a number in front of what is no part of one. -/
theorem readUnbounded_numeral {v y : Text} {c : Char} (hv : isNumeral v = true)
    (hoctal : isOctalPointed v = false) (hc : isNamePart c = false) (hpoint : c ≠ '.') :
    readUnbounded (v ++ c :: y) = some (v, c :: y) := by
  obtain ⟨whole, fraction, rfl, hne, hwhole, hfraction⟩ := exists_digits_of_isNumeral hv
  -- What stands behind the first digits is a point or the end of the numeral.
  obtain ⟨e, t, hrest, he⟩ : ∃ e t, fraction ++ c :: y = e :: t ∧ isNamePart e = false := by
    rcases hfraction with rfl | ⟨digits, rfl, -⟩
    · exact ⟨c, y, rfl, hc⟩
    · exact ⟨'.', _, rfl, by decide⟩
  have hfractions (whole : Text) :
      readFraction whole (fraction ++ c :: y) = some (whole ++ fraction, c :: y) :=
    readFraction_append hc hpoint hfraction
  have hne' {d : Char} (hd : isNamePart d = true) : e ≠ d := ne_of_isNamePart he hd
  rw [hrest] at hfractions
  rw [List.append_assoc, hrest]
  obtain ⟨d, digits, rfl⟩ := List.exists_cons_of_ne_nil hne
  by_cases hzero : d = '0'
  · subst hzero
    cases digits with
    | nil =>
        simp only [List.cons_append, List.nil_append, readUnbounded,
          hne' (d := 'x') (by decide), hne' (d := 'X') (by decide), hne' (d := 'o') (by decide),
          hne' (d := 'O') (by decide), hne' (d := 'b') (by decide), hne' (d := 'B') (by decide),
          hne' (d := 'n') (by decide), hne' (d := '_') (by decide), isDigit_eq_false he, or_self,
          if_false, Bool.false_eq_true]
        exact hfractions ['0']
    | cons d digits =>
        rw [readUnbounded_zeroLed he hwhole]
        split
        · next hall =>
          rcases hfraction with rfl | ⟨more, rfl, -⟩
          · rw [List.nil_append] at hrest
            rw [List.append_nil, hrest]
          · rw [isOctalPointed_append hwhole hall] at hoctal
            cases hoctal
        · exact hfractions _
  · have hd : d.isDigit = true := by
      simp only [List.all_cons, Bool.and_eq_true] at hwhole
      exact hwhole.1
    have hread := readWhole_append he (y := t) hwhole hne
    rw [List.cons_append] at hread ⊢
    rw [readUnbounded]
    · rw [hread]
      split
      · next heq =>
        cases heq
        exact absurd rfl (hne' (d := 'n') (by decide))
      · next heq =>
        cases heq
        exact hfractions _
      · next heq => cases heq
    · intro c s heq
      exact hzero (List.cons.inj heq).1
    · rintro s heq
      cases heq
      exact absurd hd (by decide)

/-- A numeral is read as a number, unless it is octal and pointed. -/
theorem readNumber_numeral {v y : Text} {c : Char} (hv : isNumeral v = true)
    (hoctal : isOctalPointed v = false) (hc : isNumberPart c = false) (hescape : c ≠ '\\') :
    readNumber (v ++ c :: y) = some (v, c :: y) := by
  simp only [isNumberPart, Bool.or_eq_false_iff, beq_eq_false_iff_ne] at hc
  obtain ⟨⟨⟨hpart, hpoint⟩, -⟩, -⟩ := hc
  unfold readNumber
  rw [readUnbounded_numeral hv hoctal hpart hpoint]
  simp [hpart, hescape]

/-- An octal number with a fraction begins with a zero and a digit and holds a point. -/
theorem exists_cons_of_isOctalPointed {v : Text} (h : isOctalPointed v = true) :
    ∃ d s, v = '0' :: d :: s ∧ d.isDigit = true ∧
      (v.takeWhile Char.isDigit).all isOctalDigit = true ∧ '.' ∈ s := by
  unfold isOctalPointed at h
  split at h
  · next d s =>
    simp only [Bool.and_eq_true, List.contains_iff_mem] at h
    exact ⟨d, s, rfl, h.1.1, h.1.2, h.2⟩
  · cases h

/-- A numeral with a point behind octal digits is read up to the point. -/
theorem readNumber_octal {v x : Text} (hv : isNumeral v = true) (hoctal : isOctalPointed v = true) :
    ∃ whole fraction, v = whole ++ '.' :: fraction ∧ fraction.all Char.isDigit = true ∧
      readNumber (v ++ x) = some (whole, '.' :: (fraction ++ x)) := by
  obtain ⟨whole, fraction, rfl, -, hwhole, hfraction⟩ := exists_digits_of_isNumeral hv
  obtain ⟨d, s, heq, hd, hall, hpoint⟩ := exists_cons_of_isOctalPointed hoctal
  have hpart : isNamePart '.' = false := by decide
  rcases hfraction with rfl | ⟨digits, rfl, hdigits⟩
  · rw [List.append_nil] at heq
    subst heq
    simp only [List.all_cons, Bool.and_eq_true] at hwhole
    exact absurd (List.all_eq_true.1 hwhole.2.2 _ hpoint) (by decide)
  refine ⟨whole, digits, rfl, hdigits, ?_⟩
  -- A digit follows the leading zero, so both stand in front of the point.
  obtain ⟨more, rfl⟩ : ∃ more, whole = '0' :: d :: more := by
    match whole, heq with
    | [], heq =>
        have hzero := (List.cons.inj heq).1
        exact absurd hzero (by decide)
    | [e], heq =>
        rw [List.singleton_append, List.cons.injEq, List.cons.injEq] at heq
        rw [← heq.2.1] at hd
        exact absurd hd (by decide)
    | e :: e' :: more, heq =>
        rw [List.cons_append, List.cons_append, List.cons.injEq, List.cons.injEq] at heq
        exact ⟨more, by rw [heq.1, heq.2.1]⟩
  rw [takeWhile_isDigit hpart hwhole] at hall
  have hread : readUnbounded ('0' :: d :: more ++ '.' :: (digits ++ x)) =
      some ('0' :: d :: more, '.' :: (digits ++ x)) := by
    rw [readUnbounded_zeroLed hpart hwhole, if_pos hall]
  rw [List.append_assoc]
  change readNumber ('0' :: d :: more ++ '.' :: (digits ++ x)) = _
  rw [readNumber, hread]
  simp [hpart]

end Viewloom.Script
