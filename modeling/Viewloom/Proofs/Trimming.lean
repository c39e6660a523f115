import Mathlib.Data.List.Basic
import Viewloom.Unicode.Blank

/-!
# Trimmed texts and lines

Trimming takes away blanks at both ends and nothing else, so a text is left alone if it neither begins
nor ends with a blank. Joined lines are a first line with others behind it.
-/

namespace Viewloom.Text

open Unicode

variable {s : Text} {c : Char}

theorem dropWhileEnd_concat_of_neg {p : Char → Bool} (h : p c = false) (s : Text) :
    dropWhileEnd p (s ++ [c]) = s ++ [c] := by
  simp [dropWhileEnd, h]

/-- What trimming takes away is blank. -/
theorem exists_eq_append_trim (s : Text) :
    ∃ a b, s = a ++ trim s ++ b ∧ isAllBlank a = true ∧ isAllBlank b = true := by
  have hstart : s = s.takeWhile isBlank ++ trimStart s := List.takeWhile_append_dropWhile.symm
  have hend : trimStart s = trim s ++ ((trimStart s).reverse.takeWhile isBlank).reverse := by
    rw [trim, trimEnd, dropWhileEnd, ← List.reverse_append, List.takeWhile_append_dropWhile,
      List.reverse_reverse]
  refine ⟨s.takeWhile isBlank, ((trimStart s).reverse.takeWhile isBlank).reverse, ?_, ?_, ?_⟩
  · rw [List.append_assoc, ← hend]
    exact hstart
  · exact List.all_takeWhile
  · rw [isAllBlank, List.all_reverse]
    exact List.all_takeWhile

/-- Trimming leaves every character that is not blank. -/
theorem filter_trim {q : Char → Bool} (hq : ∀ c, isBlank c = true → q c = false) (s : Text) :
    (trim s).filter q = s.filter q := by
  obtain ⟨a, b, hs, ha, hb⟩ := exists_eq_append_trim s
  have hnone : ∀ t : Text, isAllBlank t = true → t.filter q = [] := fun t ht =>
    List.filter_eq_nil_iff.2 fun c hc => by simp [hq c (List.all_eq_true.1 ht c hc)]
  conv_rhs => rw [hs]
  simp [List.filter_append, hnone a ha, hnone b hb]

/-- A text that loses no blank is not changed. -/
theorem trim_eq_self_of_filter (h : (trim s).filter isBlank = s.filter isBlank) : trim s = s := by
  obtain ⟨a, b, hs, ha, hb⟩ := exists_eq_append_trim s
  have hall : ∀ t : Text, isAllBlank t = true → t.filter isBlank = t := fun t ht =>
    List.filter_eq_self.2 fun c hc => List.all_eq_true.1 ht c hc
  have hlength := congrArg List.length h
  rw [congrArg (List.filter isBlank) hs] at hlength
  simp only [List.filter_append, hall a ha, hall b hb, List.length_append] at hlength
  have hanil : a = [] := List.eq_nil_of_length_eq_zero (by omega)
  have hbnil : b = [] := List.eq_nil_of_length_eq_zero (by omega)
  conv_rhs => rw [hs]
  simp [hanil, hbnil]

/-- A trimmed text begins with no blank. -/
theorem head?_trimStart_of_some (h : (trimStart s).head? = some c) : isBlank c = false := by
  have hhead := List.head?_dropWhile_not isBlank s
  rw [show s.dropWhile isBlank = trimStart s from rfl, h] at hhead
  simpa using hhead

/-- A trimmed text ends in no blank. -/
theorem getLast?_trimEnd_of_some (h : (trimEnd s).getLast? = some c) : isBlank c = false := by
  have hhead := List.head?_dropWhile_not isBlank s.reverse
  rw [trimEnd, dropWhileEnd, List.getLast?_reverse] at h
  rw [h] at hhead
  simpa using hhead

theorem trimEnd_eq (s : Text) : trimEnd s = (trimStart s.reverse).reverse := rfl

theorem trimEnd_prefix (s : Text) : trimEnd s <+: s := by
  rw [trimEnd_eq, ← List.reverse_suffix, List.reverse_reverse]
  exact List.dropWhile_suffix _

theorem head?_trim_of_some (h : (trim s).head? = some c) : isBlank c = false := by
  obtain ⟨rest, hrest⟩ := trimEnd_prefix (trimStart s)
  refine head?_trimStart_of_some (s := s) ?_
  rw [← hrest]
  cases htrim : trim s with
  | nil => simp [htrim] at h
  | cons d t =>
      rw [htrim] at h
      rw [show trimEnd (trimStart s) = d :: t from htrim]
      exact h

theorem getLast?_trim_of_some (h : (trim s).getLast? = some c) : isBlank c = false :=
  getLast?_trimEnd_of_some h

/-- A text that neither begins nor ends with a blank is left as it is. -/
theorem trim_of_ends (hhead : ∀ c, s.head? = some c → isBlank c = false)
    (hlast : ∀ c, s.getLast? = some c → isBlank c = false) : trim s = s := by
  have hstart : trimStart s = s := by
    cases s with
    | nil => rfl
    | cons c s => simp [trimStart, hhead c rfl]
  rw [trim, hstart]
  rcases List.eq_nil_or_concat' s with rfl | ⟨t, c, rfl⟩
  · rfl
  · exact dropWhileEnd_concat_of_neg (hlast c (by simp)) t

/-- Behind a blank text trimming goes on into the next one. -/
theorem trimStart_append (s t : Text) : trimStart (s ++ t) =
    if trimStart s = [] then trimStart t else trimStart s ++ t := by
  rw [trimStart, trimStart, trimStart, List.dropWhile_append]
  cases s.dropWhile isBlank <;> rfl

/-- In front of a blank text trimming goes on into the one before. -/
theorem trimEnd_append (s t : Text) : trimEnd (s ++ t) =
    if trimEnd t = [] then trimEnd s else s ++ trimEnd t := by
  simp only [trimEnd_eq, List.reverse_append, trimStart_append, List.reverse_eq_nil_iff]
  split <;> simp

/-- A trimmed text stays as it is when it is trimmed again. -/
@[simp]
theorem trim_trim (s : Text) : trim (trim s) = trim s :=
  trim_of_ends (fun _ => head?_trim_of_some) fun _ => getLast?_trim_of_some

/-! ## Lines -/

/-- Lines behind another one. -/
def broken (lines : List Text) : Text := lines.flatMap fun line => '\n' :: line

theorem broken_append (lines lines' : List Text) :
    broken (lines ++ lines') = broken lines ++ broken lines' :=
  List.flatMap_append

/-- Lines put together are the first one and the others behind it. -/
theorem intercalate_cons (line : Text) (lines : List Text) :
    List.intercalate ['\n'] (line :: lines) = line ++ broken lines := by
  induction lines generalizing line with
  | nil => simp [broken]
  | cons next lines ih =>
      rw [List.intercalate_cons_cons, ih]
      simp [broken]

/-- Lines joined are the lines behind breaks without the first break. -/
theorem intercalate_eq_tail (lines : List Text) :
    List.intercalate ['\n'] lines = (broken lines).tail := by
  cases lines with
  | nil => rfl
  | cons line lines => exact intercalate_cons line lines

end Viewloom.Text
