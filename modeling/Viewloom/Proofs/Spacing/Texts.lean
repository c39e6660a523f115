import Viewloom.Proofs.Spacing.Lines
import Viewloom.Proofs.Trimming
import Viewloom.Template.Print
import Viewloom.View.Render

/-!
# Texts between tags

A text is printed with escapes, and its braces divide what is read line by line. It is shown in the width
of its white space exactly if that is kept at its ends and next to its braces.
-/

namespace Viewloom.Template

open Spacing

/-! ## Text between tags -/

def isBrace (c : Char) : Bool := c == '\x7b' || c == '\x7d'

/-- Resolves the character references of printed texts. -/
def decoded : Text → Text
  | '&' :: 'a' :: 'm' :: 'p' :: ';' :: s => '&' :: decoded s
  | '&' :: 'l' :: 't' :: ';' :: s => '<' :: decoded s
  | '&' :: 'g' :: 't' :: ';' :: s => '>' :: decoded s
  | c :: s => c :: decoded s
  | [] => []

/-- What is shown of text between tags. A quoted character in braces is shown as it is, and divides the
text before it from the text behind it. -/
def shownFrom (before : Text) : Text → Text
  | '\x7b' :: '\'' :: c :: '\'' :: '\x7d' :: s => shownLines (decoded before) ++ c :: shownFrom [] s
  | c :: s => shownFrom (before ++ [c]) s
  | [] => shownLines (decoded before)

/-- The text that is shown for a code without elements. -/
def shownText (code : Text) : Text := shownFrom [] code

/-- Whether white space is kept at the ends of a text and next to its braces. -/
def Unbroken (value : Text) : Prop :=
  ∀ s ∈ List.splitOnP isBrace value, Keeps s ∧ Keeps s.reverse

/-! ## Escaped texts are shown up to lost white space -/

/-- The reference of an escaped character is resolved to the character. -/
theorem decoded_escapeTextChar (c : Char) (s : Text) :
    decoded (Markup.escapeTextChar c ++ s) = c :: decoded s := by
  unfold Markup.escapeTextChar
  split
  · next h =>
    rw [h]
    rfl
  · split
    · next h =>
      rw [h]
      rfl
    · split
      · next h =>
        rw [h]
        rfl
      · next h _ _ =>
        rw [List.singleton_append, decoded] <;> grind

/-- An escaped text is resolved to the text. -/
@[simp]
theorem decoded_escapeText (s : Text) : decoded (Markup.escapeText s) = s := by
  induction s with
  | nil => rfl
  | cons c s ih =>
      rw [Markup.escapeText, List.flatMap_cons, decoded_escapeTextChar, ← Markup.escapeText, ih]

/-- A brace is written as a quoted character in braces. -/
theorem escaped_cons_brace {c : Char} (h : isBrace c = true) (s : Text) :
    escaped (c :: s) = '\x7b' :: '\'' :: c :: '\'' :: '\x7d' :: escaped s := by
  simp only [isBrace, Bool.or_eq_true, beq_iff_eq] at h
  rcases h with rfl | rfl <;> rfl

/-- A character that is no brace is written by its escape. -/
theorem escaped_cons {c : Char} (h : isBrace c = false) (s : Text) :
    escaped (c :: s) = Markup.escapeTextChar c ++ escaped s := by
  simp only [isBrace, Bool.or_eq_false_iff, beq_eq_false_iff_ne] at h
  rw [escaped, List.flatMap_cons, ← escaped]
  simp [escapedChar, Markup.escapeTextChar, h]

/-- Text without braces is read before anything is shown. -/
theorem shownFrom_append {t : Text} (ht : '\x7b' ∉ t) (before s : Text) :
    shownFrom before (t ++ s) = shownFrom (before ++ t) s := by
  induction t generalizing before with
  | nil => simp
  | cons c t ih =>
      simp only [List.mem_cons, not_or] at ht
      rw [List.cons_append, shownFrom, ih ht.2]
      · simp
      · rintro d u rfl
        exact absurd rfl ht.1

/-- What is shown of a text, read character by character. -/
def shownValue (before : Text) : Text → Text
  | [] => shownLines before
  | c :: s => if isBrace c then shownLines before ++ c :: shownValue [] s else shownValue (before ++ [c]) s

theorem escapeText_concat (s : Text) (c : Char) :
    Markup.escapeText (s ++ [c]) = Markup.escapeText s ++ Markup.escapeTextChar c := by
  simp [Markup.escapeText]

/-- An escaped text is shown as it is read character by character. -/
theorem shownFrom_escaped (before value : Text) :
    shownFrom (Markup.escapeText before) (escaped value) = shownValue before value := by
  induction value generalizing before with
  | nil => simp [escaped, shownFrom, shownValue]
  | cons c s ih =>
      rw [shownValue]
      split
      · next hc =>
        rw [escaped_cons_brace hc, shownFrom, decoded_escapeText]
        exact congrArg _ (congrArg _ (ih []))
      · next hc =>
        have hopen : '\x7b' ∉ Markup.escapeTextChar c := by
          unfold Markup.escapeTextChar
          split_ifs
          · decide
          · decide
          · decide
          · rw [List.mem_singleton]
            rintro rfl
            exact hc rfl
        rw [escaped_cons (by simpa using hc), shownFrom_append hopen, ← escapeText_concat, ih]

theorem not_isSpace_of_isBrace {c : Char} (h : isBrace c = true) : Html.isSpace c = false := by
  simp only [isBrace, Bool.or_eq_true, beq_iff_eq] at h
  rcases h with rfl | rfl <;> rfl

/-- A text without braces is unbroken exactly if both of its ends keep their white space. -/
theorem unbroken_of_all {s : Text} (hs : ∀ c ∈ s, isBrace c = false) :
    Unbroken s ↔ Keeps s ∧ Keeps s.reverse := by
  simp [Unbroken, List.splitOnP_eq_singleton hs]

/-- A text is unbroken around a brace exactly if it is on both sides of it. -/
theorem unbroken_append_cons {s : Text} (hs : ∀ c ∈ s, isBrace c = false) {c : Char}
    (hc : isBrace c = true) (t : Text) :
    Unbroken (s ++ c :: t) ↔ (Keeps s ∧ Keeps s.reverse) ∧ Unbroken t := by
  simp [Unbroken, List.splitOnP_append_cons_of_forall_mem hs _ hc]

theorem append_cons_inj {c : Char} {s t u v : Text} (hs : c ∉ s) (ht : c ∉ t) :
    s ++ c :: u = t ++ c :: v ↔ s = t ∧ u = v := by
  induction s generalizing t with
  | nil => cases t <;> simp_all
  | cons d s ih =>
      simp only [List.mem_cons, not_or] at hs
      cases t with
      | nil => simp [Ne.symm hs.1]
      | cons e t =>
          simp only [List.mem_cons, not_or] at ht
          simp [ih hs.2 ht.2, and_assoc]

/-- A text is shown in the width of its white space exactly if it is unbroken. -/
theorem collapse_shownValue_iff (before value : Text) (hbefore : ∀ c ∈ before, isBrace c = false) :
    collapse (shownValue before value) = collapse (before ++ value) ↔
      Unbroken (before ++ value) := by
  induction value generalizing before with
  | nil => rw [shownValue, List.append_nil, collapse_shownLines_iff, unbroken_of_all hbefore]
  | cons c s ih =>
      rw [shownValue]
      split
      · next hc =>
        -- A brace is no white space, so it divides both collapsed texts at the same place.
        have hspace := not_isSpace_of_isBrace hc
        have hmem : c ∉ before := fun h => by simp [hbefore c h] at hc
        have hshown : c ∉ collapse (shownLines before) := fun h =>
          hmem (mem_of_mem_shownLines hspace ((mem_collapseFrom hspace).1 h))
        have hvalue : c ∉ collapse before := fun h => hmem ((mem_collapseFrom hspace).1 h)
        have hrest : collapse (shownValue [] s) = collapse s ↔ Unbroken s :=
          ih [] (by simp)
        rw [collapse_append_cons hspace, collapse_append_cons hspace,
          append_cons_inj hshown hvalue, collapse_shownLines_iff, hrest,
          unbroken_append_cons hbefore hc]
      · next hc =>
        have hnext : ∀ d ∈ before ++ [c], isBrace d = false := by
          intro d hd
          rcases List.mem_append.1 hd with hd | hd
          · exact hbefore d hd
          · rw [List.mem_singleton.1 hd]
            simpa using hc
        simpa using ih (before ++ [c]) hnext

/-- An escaped text is shown in the width of its white space exactly if it is unbroken. -/
theorem collapse_shownText_iff (value : Text) :
    collapse (shownText (escaped value)) = collapse value ↔ Unbroken value := by
  have hshown : shownText (escaped value) = shownValue [] value := shownFrom_escaped [] value
  rw [hshown]
  exact collapse_shownValue_iff [] value (by simp)

/-! ## Trimmed texts -/

open Unicode (isBlank)

theorem isBlank_of_isSpace {c : Char} (h : Html.isSpace c = true) : isBlank c = true := by
  simp only [Html.isSpace, Bool.or_eq_true, beq_iff_eq] at h
  rcases h with (((rfl | rfl) | rfl) | rfl) | rfl <;> rfl

theorem not_isSpace_of_not_isBlank {c : Char} (h : isBlank c = false) : Html.isSpace c = false := by
  cases hc : Html.isSpace c with
  | false => rfl
  | true =>
      rw [isBlank_of_isSpace hc] at h
      cases h

theorem isBlank_shownChar (c : Char) : isBlank (shownChar c) = isBlank c := by
  unfold shownChar
  split
  · next hc => rw [isBlank_of_isSpace hc]; rfl
  · rfl

theorem shownValue_nil : shownValue [] [] = [] := shownLines_of_all (by simp)

/-- A text that begins with no white space is shown with its beginning. -/
theorem head?_shownValue (before value : Text) {c : Char} (h : (before ++ value).head? = some c)
    (hc : Html.isSpace c = false) : (shownValue before value).head? = some c := by
  induction value generalizing before with
  | nil => exact head?_shownLines_of_solid (by simpa using h) hc
  | cons d s ih =>
      rw [shownValue]
      split
      · cases before with
        | nil => exact h
        | cons e t =>
            rw [List.head?_append, head?_shownLines_of_solid (by simpa using h) hc]
            rfl
      · exact ih (before ++ [d]) (by simpa using h)

/-- A text that ends in no white space is shown with its end. -/
theorem getLast?_shownValue (before value : Text) {c : Char}
    (h : (before ++ value).getLast? = some c) (hc : Html.isSpace c = false) :
    (shownValue before value).getLast? = some c := by
  induction value generalizing before with
  | nil => exact getLast?_shownLines_of_solid (by simpa using h) hc
  | cons d s ih =>
      rw [shownValue]
      split
      · rw [List.getLast?_append, List.getLast?_cons] at h ⊢
        cases hs : s.getLast? with
        | none =>
            rw [List.getLast?_eq_none_iff] at hs
            subst hs
            simpa [shownValue_nil] using h
        | some e =>
            rw [hs] at h
            rw [ih [] (by simpa [hs] using h)]
            rfl
      · exact ih (before ++ [d]) (by simpa using h)

theorem shownText_escaped (value : Text) : shownText (escaped value) = shownValue [] value :=
  shownFrom_escaped [] value

/-- A text that has lost a blank at its beginning is not shown as it was. -/
theorem collapse_shownText_ne_of_head? {value kept : Text} {b : Char} (hvalue : value.head? = some b)
    (hb : isBlank b = true) (hkept : ∀ c, kept.head? = some c → isBlank c = false) :
    collapse (shownText (escaped kept)) ≠ collapse value := by
  intro h
  have hhead := congrArg List.head? h
  rw [head?_collapse, head?_collapse, shownText_escaped, hvalue] at hhead
  cases kept with
  | nil => simp [shownValue_nil] at hhead
  | cons c t =>
      have hc := hkept c rfl
      rw [head?_shownValue [] (c :: t) rfl (not_isSpace_of_not_isBlank hc)] at hhead
      have hblank := congrArg isBlank (Option.some.inj hhead)
      rw [isBlank_shownChar, isBlank_shownChar, hb, hc] at hblank
      cases hblank

/-- So is one that has lost a blank at its end. -/
theorem collapse_shownText_ne_of_getLast? {value kept : Text} {b : Char}
    (hvalue : value.getLast? = some b) (hb : isBlank b = true)
    (hkept : ∀ c, kept.getLast? = some c → isBlank c = false) :
    collapse (shownText (escaped kept)) ≠ collapse value := by
  intro h
  have hlast := congrArg List.getLast? h
  rw [getLast?_collapse, getLast?_collapse, shownText_escaped, hvalue] at hlast
  cases hend : kept.getLast? with
  | none =>
      rw [List.getLast?_eq_none_iff.1 hend, shownValue_nil] at hlast
      simp at hlast
  | some c =>
      have hc := hkept c hend
      rw [getLast?_shownValue [] kept hend (not_isSpace_of_not_isBlank hc)] at hlast
      have hblank := congrArg isBlank (Option.some.inj hlast)
      rw [isBlank_shownChar, isBlank_shownChar, hb, hc] at hblank
      cases hblank

/-- A text from which something is trimmed in front begins with a blank. -/
theorem head?_trimStart {value : Text} (h : Text.trimStart value ≠ value) :
    ∃ b, value.head? = some b ∧ isBlank b = true := by
  cases value with
  | nil => exact absurd rfl h
  | cons b s =>
      refine ⟨b, rfl, ?_⟩
      by_contra hb
      exact h (List.dropWhile_cons_of_neg hb)

/-- What trimming may leave of a text. -/
def Trims (value kept : Text) : Prop :=
  kept = value ∨ kept = Text.trimStart value ∨ kept = Text.trimEnd value ∨ kept = Text.trim value

theorem collapse_trimStart_ne {value : Text} (h : Text.trimStart value ≠ value) :
    collapse (shownText (escaped (Text.trimStart value))) ≠ collapse value := by
  obtain ⟨b, hvalue, hb⟩ := head?_trimStart h
  exact collapse_shownText_ne_of_head? hvalue hb fun _ => Text.head?_trimStart_of_some

theorem collapse_trimEnd_ne {value : Text} (h : Text.trimEnd value ≠ value) :
    collapse (shownText (escaped (Text.trimEnd value))) ≠ collapse value := by
  have hreverse : Text.trimStart value.reverse ≠ value.reverse := fun heq =>
    h (by rw [Text.trimEnd_eq, heq, List.reverse_reverse])
  obtain ⟨b, hvalue, hb⟩ := head?_trimStart hreverse
  rw [List.head?_reverse] at hvalue
  refine collapse_shownText_ne_of_getLast? hvalue hb fun c hc => ?_
  rw [Text.trimEnd_eq, List.getLast?_reverse] at hc
  exact Text.head?_trimStart_of_some hc

/-- A text that has lost blanks is not shown as it was. -/
theorem collapse_trim_ne {value : Text} (h : Text.trim value ≠ value) :
    collapse (shownText (escaped (Text.trim value))) ≠ collapse value := by
  by_cases hstart : Text.trimStart value = value
  · have hend : Text.trim value = Text.trimEnd value := by rw [Text.trim, hstart]
    rw [hend] at h ⊢
    exact collapse_trimEnd_ne h
  · obtain ⟨b, hvalue, hb⟩ := head?_trimStart hstart
    refine collapse_shownText_ne_of_head? hvalue hb fun c hc => ?_
    obtain ⟨t, ht⟩ := Text.trimEnd_prefix (Text.trimStart value)
    have hfirst : (Text.trimStart value).head? = some c := by
      rw [← ht, List.head?_append, ← Text.trim, hc]
      rfl
    exact Text.head?_trimStart_of_some hfirst

/-- A text that may have been trimmed is shown as it was exactly if nothing has been trimmed away and
it is unbroken. -/
theorem collapse_shownText_iff_of_trims {value kept : Text} (h : Trims value kept) :
    collapse (shownText (escaped kept)) = collapse value ↔ kept = value ∧ Unbroken value := by
  by_cases hkept : kept = value
  · rw [hkept, collapse_shownText_iff, and_iff_right rfl]
  · simp only [hkept, false_and, iff_false]
    rcases h with rfl | rfl | rfl | rfl
    · exact absurd rfl hkept
    · exact collapse_trimStart_ne hkept
    · exact collapse_trimEnd_ne hkept
    · exact collapse_trim_ne hkept

end Viewloom.Template
