import Viewloom.Text.Basic
import Viewloom.Unicode.Lowercase
import Viewloom.Unicode.Numeric
import Viewloom.Unicode.Uppercase

/-!
# Words of a phrase

A phrase falls into words at every character that is no letter or numeral, and before a capital
that follows a small letter or a numeral or that begins a capitalised word after capitals.
-/

namespace Viewloom.Label

open Unicode

/-- Whether a new word begins with `c`, between the characters before and after it. -/
def beginsWord (before c : Char) (after : Option Char) : Bool :=
  isUppercase c &&
    (isLowercase before || isNumeric before || (isUppercase before && after.any isLowercase))

/-- Whether the word of a character goes on with the following text. -/
def continuesWord (c : Char) : Text → Bool
  | [] => false
  | d :: s => isAlphanumeric d && !beginsWord c d s.head?

/-- Divides a phrase into words: runs of letters and numerals, divided again where capitals begin a
word. -/
def words : Text → List Text
  | [] => []
  | c :: s =>
    if isAlphanumeric c then
      if continuesWord c s then
        match words s with
        | [] => [[c]]
        | word :: rest => (c :: word) :: rest
      else [c] :: words s
    else words s

/-- No character of a word is lost, and none is added. -/
theorem flatten_words (s : Text) : (words s).flatten = s.filter isAlphanumeric := by
  induction s with
  | nil => rfl
  | cons c s ih =>
    by_cases hc : isAlphanumeric c = true
    · simp only [words, hc, if_true, List.filter_cons_of_pos]
      split
      · split
        · next h => simp [← ih, h]
        · next word rest h => simp [← ih, h]
      · simp [ih]
    · simp [words, hc, ih]

/-- No word is empty. -/
theorem ne_nil_of_mem_words {s word : Text} (h : word ∈ words s) : word ≠ [] := by
  induction s generalizing word with
  | nil => simp [words] at h
  | cons c s ih =>
    simp only [words] at h
    split at h
    · split at h
      · split at h
        · simp_all
        · next w rest hw =>
          simp only [List.mem_cons] at h
          rcases h with rfl | h
          · simp
          · exact ih (by simp [hw, h])
      · simp only [List.mem_cons] at h
        rcases h with rfl | h
        · simp
        · exact ih h
    · exact ih h

end Viewloom.Label
