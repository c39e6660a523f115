import Mathlib.Data.List.Induction
import Mathlib.Data.List.TakeWhile
import Viewloom.Html.Lexer

/-!
# Lines between tags

Text between the tags of a script is shown line by line, without the blanks around line breaks. Up to the
width of white space only that at the ends of a text is lost: where a line break stands in it.
-/

namespace Viewloom.Spacing

open Html (isSpace)

/-! ## White space -/

/-- White space is as wide as one space; the flag tells whether there is some before the text. -/
def collapseFrom (behind : Bool) : Text → Text
  | [] => []
  | c :: s =>
    if isSpace c then if behind then collapseFrom true s else ' ' :: collapseFrom true s
    else c :: collapseFrom false s

/-- Writes every run of white space as a single blank. -/
def collapse (s : Text) : Text := collapseFrom false s

/-- Whether white space is the last thing in a text. -/
def endsIn (behind : Bool) : Text → Bool
  | [] => behind
  | c :: s => endsIn (isSpace c) s

/-- Two texts that differ in the width of white space at most, wherever they stand. -/
def Alike (s t : Text) : Prop :=
  ∀ behind, collapseFrom behind s = collapseFrom behind t ∧ endsIn behind s = endsIn behind t

/-- White space that a text ends in counts for what stands behind it. -/
theorem collapseFrom_append (behind : Bool) (s t : Text) :
    collapseFrom behind (s ++ t) = collapseFrom behind s ++ collapseFrom (endsIn behind s) t := by
  induction s generalizing behind with
  | nil => rfl
  | cons c s ih => cases hc : isSpace c <;> cases behind <;> simp [collapseFrom, endsIn, hc, ih]

theorem endsIn_append (behind : Bool) (s t : Text) :
    endsIn behind (s ++ t) = endsIn (endsIn behind s) t := by
  induction s generalizing behind with
  | nil => rfl
  | cons c s ih => simp [endsIn, ih]

namespace Alike

theorem refl (s : Text) : Alike s s := fun _ => ⟨rfl, rfl⟩

theorem symm {s t : Text} (h : Alike s t) : Alike t s := fun b => ⟨(h b).1.symm, (h b).2.symm⟩

theorem trans {s t u : Text} (h : Alike s t) (h' : Alike t u) : Alike s u :=
  fun b => ⟨(h b).1.trans (h' b).1, (h b).2.trans (h' b).2⟩

theorem append {s t s' t' : Text} (h : Alike s s') (h' : Alike t t') :
    Alike (s ++ t) (s' ++ t') := by
  intro b
  rw [collapseFrom_append, collapseFrom_append, endsIn_append, endsIn_append, (h b).1, (h b).2]
  exact ⟨congrArg _ (h' _).1, (h' _).2⟩

theorem cons (c : Char) {s t : Text} (h : Alike s t) : Alike (c :: s) (c :: t) :=
  append (refl [c]) h

theorem collapse_eq {s t : Text} (h : Alike s t) : collapse s = collapse t := (h false).1

/-- One more blank makes no difference. -/
theorem space {c d : Char} (hc : isSpace c = true) (hd : isSpace d = true) (s : Text) :
    Alike (c :: d :: s) (d :: s) := by
  intro b
  cases b <;> simp [collapseFrom, endsIn, hc, hd]

/-- One white space is as good as another. -/
theorem swap {c d : Char} (hc : isSpace c = true) (hd : isSpace d = true) (s : Text) :
    Alike (c :: s) (d :: s) := by
  intro b
  cases b <;> simp [collapseFrom, endsIn, hc, hd]

end Alike

/-- How a character is shown. -/
def shownChar (c : Char) : Char := if isSpace c then ' ' else c

theorem collapse_cons (c : Char) (s : Text) :
    collapse (c :: s) = shownChar c :: collapseFrom (isSpace c) s := by
  cases hc : isSpace c <;> simp [collapse, collapseFrom, shownChar, hc]

/-- A collapsed text begins with what its first character shows. -/
theorem head?_collapse (s : Text) : (collapse s).head? = s.head?.map shownChar := by
  cases s with
  | nil => rfl
  | cons c s => rw [collapse_cons, List.head?_cons, List.head?_cons, Option.map_some]

/-- A collapsed text ends in what its last character shows. -/
theorem getLast?_collapse (s : Text) : (collapse s).getLast? = s.getLast?.map shownChar := by
  cases s with
  | nil => rfl
  | cons c s =>
      rw [collapse_cons]
      induction s generalizing c with
      | nil => rfl
      | cons d s ih =>
          have hd := ih d
          cases hcs : isSpace c <;> cases hds : isSpace d <;>
            simp_all [collapseFrom, shownChar]

/-- A character that is not white space stays where it is. -/
theorem collapse_append_cons {c : Char} (hc : isSpace c = false) (s t : Text) :
    collapse (s ++ c :: t) = collapse s ++ c :: collapse t := by
  rw [collapse, collapseFrom_append, collapseFrom, if_neg (by simp [hc])]
  rfl

/-- Collapsing leaves every character that is not white space. -/
theorem mem_collapseFrom {c : Char} (hc : isSpace c = false) {behind : Bool} {s : Text} :
    c ∈ collapseFrom behind s ↔ c ∈ s := by
  have hne : ∀ d, isSpace d = true → c ≠ d := by
    rintro d hd rfl
    rw [hd] at hc
    cases hc
  induction s generalizing behind with
  | nil => rfl
  | cons d s ih =>
      rw [collapseFrom]
      split
      · next hd =>
        split
        · simp [ih, hne d hd]
        · simp [ih, hne d hd, hne ' ' rfl]
      · simp [ih]

/-! ## Lines -/

def isGap (c : Char) : Bool := c == ' ' || c == '\t'

def isBreak (c : Char) : Bool := c == '\n' || c == '\r'

/-- What counts for nothing around a line break. -/
def isLayout (c : Char) : Bool := isGap c || isBreak c

/-- Lines without the blanks next to their breaks. -/
def trimmedLines (first : Bool) : List Text → List Text
  | [] => []
  | [line] => [if first then line else line.dropWhile isGap]
  | line :: lines =>
    Text.dropWhileEnd isGap (if first then line else line.dropWhile isGap) ::
      trimmedLines false lines

def isFilled (s : Text) : Bool := !s.isEmpty

/-- What is shown of a text between tags: its lines that are not empty, with spaces in between. -/
def shownLines (s : Text) : Text :=
  List.intercalate [' '] ((trimmedLines true (List.splitOnP isBreak s)).filter isFilled)

/-! ## Reading line by line -/

/-- A text is one line, or a line in front of a break and another text. -/
theorem lines_induction {motive : Text → Prop}
    (last : ∀ p, (∀ c ∈ p, isBreak c = false) → motive p)
    (line : ∀ p b q, (∀ c ∈ p, isBreak c = false) → isBreak b = true → motive q →
      motive (p ++ b :: q)) (s : Text) : motive s := by
  have hline : ∀ p, (∀ c ∈ p, isBreak c = false) → motive (p ++ s) := by
    induction s with
    | nil => exact fun p hp => by simpa using last p hp
    | cons c s ih =>
        intro p hp
        cases hc : isBreak c with
        | true => exact line p c s hp hc (ih [] (by simp))
        | false =>
            have hpc : ∀ d ∈ p ++ [c], isBreak d = false := by
              intro d hd
              rcases List.mem_append.1 hd with hd | hd
              · exact hp d hd
              · rwa [List.mem_singleton.1 hd]
            simpa using ih (p ++ [c]) hpc
  exact hline [] (by simp)

/-- What is shown of a text behind a line break. -/
def shownBehind (s : Text) : Text :=
  List.intercalate [' '] ((trimmedLines false (List.splitOnP isBreak s)).filter isFilled)

/-- A line in front of what is shown of the others. -/
def glue (line rest : Text) : Text :=
  if line = [] then rest else if rest = [] then line else line ++ ' ' :: rest

/-- An empty line leaves no space between the others. -/
theorem intercalate_filter_cons (line : Text) (lines : List Text) :
    List.intercalate [' '] ((line :: lines).filter isFilled) =
      glue line (List.intercalate [' '] (lines.filter isFilled)) := by
  cases line with
  | nil => rfl
  | cons c line =>
      have hfilled : isFilled (c :: line) = true := rfl
      rw [List.filter_cons_of_pos hfilled]
      cases h : lines.filter isFilled with
      | nil => rw [List.intercalate_singleton]; rfl
      | cons next rest =>
          have hnext : next ≠ [] := by
            rintro rfl
            have hmem : [] ∈ lines.filter isFilled := by simp [h]
            exact absurd (List.mem_filter.1 hmem).2 (by decide)
          have hjoin : List.intercalate [' '] (next :: rest) ≠ [] := by
            cases rest <;> simp [hnext]
          rw [glue, if_neg (by simp), if_neg hjoin, List.intercalate_cons_cons, List.append_assoc]
          rfl

theorem trimmedLines_cons (first : Bool) (line : Text) {lines : List Text} (h : lines ≠ []) :
    trimmedLines first (line :: lines) =
      Text.dropWhileEnd isGap (if first then line else line.dropWhile isGap) ::
        trimmedLines false lines := by
  rw [trimmedLines]
  exact h

/-- A text without line breaks is shown as it is. -/
theorem shownLines_of_all {p : Text} (hp : ∀ c ∈ p, isBreak c = false) : shownLines p = p := by
  rw [shownLines, List.splitOnP_eq_singleton hp, trimmedLines, if_pos rfl]
  cases p with
  | nil => rfl
  | cons c p => exact List.intercalate_singleton

/-- A text without further line breaks is shown behind one without the blanks in front. -/
theorem shownBehind_of_all {p : Text} (hp : ∀ c ∈ p, isBreak c = false) :
    shownBehind p = p.dropWhile isGap := by
  rw [shownBehind, List.splitOnP_eq_singleton hp, trimmedLines, if_neg (by simp)]
  cases p.dropWhile isGap with
  | nil => rfl
  | cons c q => exact List.intercalate_singleton

section Line

variable {p : Text} {b : Char}

/-- The first line is shown without the blanks at its end, in front of the others. -/
theorem shownLines_append_cons (hp : ∀ c ∈ p, isBreak c = false) (hb : isBreak b = true) (q : Text) :
    shownLines (p ++ b :: q) = glue (Text.dropWhileEnd isGap p) (shownBehind q) := by
  rw [shownLines, List.splitOnP_append_cons_of_forall_mem hp _ hb,
    trimmedLines_cons _ _ (List.splitOnP_ne_nil _ _), intercalate_filter_cons]
  rfl

/-- A line in between is shown without the blanks at both of its ends, in front of the others. -/
theorem shownBehind_append_cons (hp : ∀ c ∈ p, isBreak c = false) (hb : isBreak b = true)
    (q : Text) : shownBehind (p ++ b :: q) =
      glue (Text.dropWhileEnd isGap (p.dropWhile isGap)) (shownBehind q) := by
  rw [shownBehind, List.splitOnP_append_cons_of_forall_mem hp _ hb,
    trimmedLines_cons _ _ (List.splitOnP_ne_nil _ _), intercalate_filter_cons]
  rfl

end Line

/-! ## White space around breaks -/

theorem isSpace_of_isGap {c : Char} (h : isGap c = true) : isSpace c = true := by
  simp only [isGap, Bool.or_eq_true, beq_iff_eq] at h
  rcases h with rfl | rfl <;> rfl

theorem isSpace_of_isBreak {c : Char} (h : isBreak c = true) : isSpace c = true := by
  simp only [isBreak, Bool.or_eq_true, beq_iff_eq] at h
  rcases h with rfl | rfl <;> rfl

theorem isGap_of_isBreak {c : Char} (h : isBreak c = true) : isGap c = false := by
  simp only [isBreak, Bool.or_eq_true, beq_iff_eq] at h
  rcases h with rfl | rfl <;> rfl

theorem dropWhileEnd_concat (p : Char → Bool) (s : Text) (c : Char) :
    Text.dropWhileEnd p (s ++ [c]) = if p c then Text.dropWhileEnd p s else s ++ [c] := by
  rw [Text.dropWhileEnd, List.reverse_append, List.reverse_singleton, List.singleton_append,
    List.dropWhile_cons]
  split
  · rfl
  · simp

/-- Blanks behind a space make no difference. -/
theorem alike_gap (p : Text) : Alike (' ' :: p) (' ' :: p.dropWhile isGap) := by
  induction p with
  | nil => exact .refl _
  | cons c p ih =>
      cases hc : isGap c with
      | true =>
          rw [List.dropWhile_cons_of_pos hc]
          have hspace := isSpace_of_isGap hc
          exact ((Alike.space rfl hspace p).trans (.swap hspace rfl p)).trans ih
      | false =>
          rw [List.dropWhile_cons_of_neg (by simp [hc])]
          exact .refl _

/-- A line break is as wide as a space, whatever blanks stand in front of it. -/
theorem alike_break {b : Char} (hb : isBreak b = true) (p : Text) :
    Alike (p ++ [b]) (Text.dropWhileEnd isGap p ++ [' ']) := by
  have hspace := isSpace_of_isBreak hb
  induction p using List.reverseRecOn with
  | nil => exact .swap hspace rfl []
  | append_singleton p c ih =>
      rw [dropWhileEnd_concat]
      split
      · next hc =>
        rw [List.append_assoc]
        exact ((Alike.refl p).append (.space (isSpace_of_isGap hc) hspace [])).trans ih
      · exact (Alike.refl _).append (.swap hspace rfl [])

/-- Whether only blanks stand behind the last line break, if there is one. -/
def closes (s : Text) : Bool := (s.reverse.dropWhile isGap).head?.all isBreak

/-- The blank that is left of the end of a text whose last line is blank. -/
def closing (s : Text) : Text := if closes s then [' '] else []

/-- A text without line breaks closes exactly if it is blank. -/
theorem closes_of_all {p : Text} (hp : ∀ c ∈ p, isBreak c = false) :
    closes p = true ↔ p.dropWhile isGap = [] := by
  have hreverse : p.reverse.dropWhile isGap = [] ↔ p.dropWhile isGap = [] := by
    simp [List.dropWhile_eq_nil_iff]
  rw [closes, ← hreverse]
  cases h : p.reverse.dropWhile isGap with
  | nil => simp
  | cons c t =>
      have hmem : c ∈ p := List.mem_reverse.1 ((List.dropWhile_suffix isGap).subset (by simp [h]))
      simp [hp c hmem]

/-- Whether a text closes is seen behind its last line break. -/
theorem closes_append_cons (p : Text) {b : Char} (hb : isBreak b = true) (q : Text) :
    closes (p ++ b :: q) = closes q := by
  have hgap := isGap_of_isBreak hb
  rw [closes, closes, List.reverse_append, List.reverse_cons, List.append_assoc,
    List.dropWhile_append]
  split
  · next h =>
    rw [List.isEmpty_iff.1 h, List.singleton_append, List.dropWhile_cons_of_neg (by simp [hgap])]
    simp [hb]
  · next h =>
    rw [List.head?_append]
    cases hq : q.reverse.dropWhile isGap with
    | nil => simp [hq] at h
    | cons c t => rfl

/-- Only in front of an empty line nothing is shown for a line break. -/
theorem alike_glue {line rest c : Text} (h : rest = [] → c = [' ']) :
    Alike (line ++ ' ' :: (rest ++ c)) ((if line = [] then [' '] else []) ++ (glue line rest ++ c)) := by
  unfold glue
  split
  · next hline =>
    rw [hline]
    exact .refl _
  · split
    · next hrest =>
      rw [hrest, h hrest]
      exact (Alike.refl line).append (.space rfl rfl [])
    · rw [List.nil_append, List.append_assoc, List.cons_append]
      exact .refl _

/-- Behind a line break only the white space at the end of a text is lost. -/
theorem alike_shownBehind (s : Text) :
    Alike (' ' :: s) (' ' :: (shownBehind s ++ closing s)) ∧
      (shownBehind s = [] → closing s = [' ']) := by
  induction s using lines_induction with
  | last p hp =>
      have hclosing : closing p = if p.dropWhile isGap = [] then [' '] else [] := by
        simp only [closing, closes_of_all hp]
      rw [shownBehind_of_all hp, hclosing]
      refine ⟨(alike_gap p).trans ?_, fun h => if_pos h⟩
      split
      · next h =>
        rw [h]
        exact (Alike.space rfl rfl []).symm
      · rw [List.append_nil]
        exact .refl _
  | line p b q hp hb ih =>
      obtain ⟨hq, hclosing⟩ := ih
      rw [shownBehind_append_cons hp hb, closing, closes_append_cons p hb, ← closing]
      generalize ht : Text.dropWhileEnd isGap (p.dropWhile isGap) = t
      have hline : Alike (' ' :: p ++ [b]) (' ' :: t ++ [' ']) := by
        rw [← ht]
        exact ((alike_gap p).append (.refl [b])).trans (.cons ' ' (alike_break hb _))
      have hboth : Alike (' ' :: (p ++ b :: q)) (' ' :: (t ++ ' ' :: (shownBehind q ++ closing q))) := by
        have hrest := (Alike.refl (' ' :: t)).append hq
        simpa using (hline.append (.refl q)).trans (by simpa using hrest)
      refine ⟨hboth.trans (((alike_glue hclosing).cons ' ').trans ?_), fun hglue => ?_⟩
      · split
        · exact .space rfl rfl _
        · exact .refl _
      · unfold glue at hglue
        split at hglue
        · exact hclosing hglue
        · next hne =>
          split at hglue
          · exact absurd hglue hne
          · simp at hglue

/-- Whether only blanks stand in front of the first line break of a text. -/
def opens (s : Text) : Bool := (s.dropWhile isGap).head?.any isBreak

/-- The space that is lost at the beginning of a text. -/
def lost (s : Text) : Text := if opens s then [' '] else []

theorem opens_of_all {p : Text} (hp : ∀ c ∈ p, isBreak c = false) : opens p = false := by
  rw [opens]
  cases h : p.dropWhile isGap with
  | nil => rfl
  | cons c t => simp [hp c ((List.dropWhile_suffix isGap).subset (by simp [h]))]

/-- A text opens exactly if only blanks stand on its first line. -/
theorem opens_append_cons {p : Text} (hp : ∀ c ∈ p, isBreak c = false) {b : Char}
    (hb : isBreak b = true) (q : Text) :
    opens (p ++ b :: q) = true ↔ Text.dropWhileEnd isGap p = [] := by
  have hend : Text.dropWhileEnd isGap p = [] ↔ p.dropWhile isGap = [] := by
    simp [Text.dropWhileEnd, List.dropWhile_eq_nil_iff]
  rw [hend, opens, List.dropWhile_append]
  cases h : p.dropWhile isGap with
  | nil => simp [isGap_of_isBreak hb, hb]
  | cons c t =>
      have hmem : c ∈ p := (List.dropWhile_suffix isGap).subset (by simp [h])
      simp [hp c hmem]

/-- A text opens backwards exactly if it closes. -/
theorem opens_reverse (p : Text) {b : Char} (hb : isBreak b = true) (q : Text) :
    opens (p ++ b :: q).reverse = closes q := by
  rw [← closes_append_cons p hb, opens, closes]
  cases h : (p ++ b :: q).reverse.dropWhile isGap with
  | nil =>
      have hgap := List.dropWhile_eq_nil_iff.1 h b (by simp)
      rw [isGap_of_isBreak hb] at hgap
      cases hgap
  | cons c t => rfl

/-- A text between tags is shown up to the spaces that are lost at its ends. -/
theorem alike_shownLines (s : Text) : Alike s (lost s ++ (shownLines s ++ lost s.reverse)) := by
  induction s using lines_induction with
  | last p hp =>
      have hreverse : ∀ c ∈ p.reverse, isBreak c = false := fun c hc => hp c (List.mem_reverse.1 hc)
      rw [shownLines_of_all hp, lost, lost, opens_of_all hp, opens_of_all hreverse]
      simpa using Alike.refl p
  | line p b q hp hb _ =>
      obtain ⟨hq, hclosing⟩ := alike_shownBehind q
      rw [shownLines_append_cons hp hb, lost, lost, opens_reverse p hb, ← closing]
      simp only [opens_append_cons hp hb]
      have hboth := ((alike_break hb p).append (.refl q)).trans (by simpa using (Alike.refl _).append hq)
      simpa using hboth.trans (alike_glue hclosing)

/-- Nothing is shown but white space and what stands in the text. -/
theorem mem_of_mem_shownLines {c : Char} (hc : isSpace c = false) {s : Text}
    (h : c ∈ shownLines s) : c ∈ s := by
  have hcollapse := (alike_shownLines s).collapse_eq
  rw [← mem_collapseFrom hc, ← collapse, hcollapse, collapse, mem_collapseFrom hc]
  simp [h]

/-! ## The ends of what is shown -/

theorem isLayout_of_isBreak {c : Char} (h : isBreak c = true) : isLayout c = true := by
  simp [isLayout, h]

theorem dropWhile_isLayout {p : Text} (hp : ∀ c ∈ p, isBreak c = false) :
    p.dropWhile isLayout = p.dropWhile isGap := by
  induction p with
  | nil => rfl
  | cons c p ih =>
      have hc : isLayout c = isGap c := by simp [isLayout, hp c (by simp)]
      simp [List.dropWhile_cons, hc, ih fun d hd => hp d (by simp [hd])]

/-- Behind its layout a text begins on its first line, or on the others if that line is blank. -/
theorem dropWhile_isLayout_append_cons {p : Text} (hp : ∀ c ∈ p, isBreak c = false) {b : Char}
    (hb : isBreak b = true) (q : Text) : ((p ++ b :: q).dropWhile isLayout).head? =
      ((p.dropWhile isGap).head?).or (q.dropWhile isLayout).head? := by
  rw [List.dropWhile_append, dropWhile_isLayout hp]
  cases h : p.dropWhile isGap with
  | nil => simp [isLayout_of_isBreak hb]
  | cons c t => rfl

theorem head?_glue (line rest : Text) : (glue line rest).head? = line.head?.or rest.head? := by
  cases line with
  | nil => rfl
  | cons c line => cases rest <;> rfl

theorem getLast?_glue (line rest : Text) :
    (glue line rest).getLast? = rest.getLast?.or line.getLast? := by
  unfold glue
  split
  · next h => cases rest.getLast? <;> simp [h]
  · split
    · next h => simp [h]
    · next h =>
      obtain ⟨rest, c, rfl⟩ := (List.eq_nil_or_concat rest).resolve_left h
      simp [List.getLast?_append, List.getLast?_cons]

theorem getLast?_dropWhileEnd (s : Text) :
    (Text.dropWhileEnd isGap s).getLast? = (s.reverse.dropWhile isGap).head? := by
  rw [Text.dropWhileEnd, List.getLast?_reverse]

theorem head?_dropWhileEnd (s : Text) :
    (Text.dropWhileEnd isGap (s.dropWhile isGap)).head? = (s.dropWhile isGap).head? := by
  cases h : s.dropWhile isGap with
  | nil => rfl
  | cons c t =>
      have hc : isGap c = false := by
        have hhead := List.head?_dropWhile_not isGap s
        rw [h] at hhead
        simpa using hhead
      rw [Text.dropWhileEnd, List.reverse_cons, List.dropWhile_append]
      split
      · simp [hc]
      · simp

theorem head?_dropWhile_reverse (s : Text) :
    ((s.dropWhile isGap).reverse.dropWhile isGap).head? = (s.reverse.dropWhile isGap).head? := by
  induction s with
  | nil => rfl
  | cons c s ih =>
      cases hc : isGap c with
      | false => rw [List.dropWhile_cons_of_neg (by simp [hc])]
      | true =>
          rw [List.dropWhile_cons_of_pos hc, ih, List.reverse_cons, List.dropWhile_append]
          cases s.reverse.dropWhile isGap <;> simp [hc]

/-- Behind a line break what is shown begins where no layout stands any more. -/
theorem head?_shownBehind (s : Text) :
    (shownBehind s).head? = (s.dropWhile isLayout).head? := by
  induction s using lines_induction with
  | last p hp => rw [shownBehind_of_all hp, dropWhile_isLayout hp]
  | line p b q hp hb ih =>
      rw [shownBehind_append_cons hp hb, head?_glue, head?_dropWhileEnd, ih,
        dropWhile_isLayout_append_cons hp hb]

/-- If a text opens, what is shown of it begins behind its layout. -/
theorem head?_shownLines {s : Text} (h : opens s = true) :
    (shownLines s).head? = (s.dropWhile isLayout).head? := by
  induction s using lines_induction with
  | last p hp =>
      rw [opens_of_all hp] at h
      cases h
  | line p b q hp hb _ =>
      have hline := (opens_append_cons hp hb q).1 h
      have hgap : p.dropWhile isGap = [] := by
        simpa [Text.dropWhileEnd, List.dropWhile_eq_nil_iff] using hline
      rw [shownLines_append_cons hp hb, head?_glue, hline, dropWhile_isLayout_append_cons hp hb,
        hgap, head?_shownBehind]

theorem dropWhile_isLayout_reverse {p : Text} (hp : ∀ c ∈ p, isBreak c = false) {b : Char}
    (hb : isBreak b = true) (q : Text) : ((p ++ b :: q).reverse.dropWhile isLayout).head? =
      ((q.reverse.dropWhile isLayout).head?).or (p.reverse.dropWhile isGap).head? := by
  have hreverse : ∀ c ∈ p.reverse, isBreak c = false := fun c hc => hp c (List.mem_reverse.1 hc)
  rw [List.reverse_append, List.reverse_cons, List.append_assoc, List.dropWhile_append,
    ← dropWhile_isLayout hreverse]
  cases h : q.reverse.dropWhile isLayout with
  | nil => simp [isLayout_of_isBreak hb]
  | cons c t => rfl

/-- What is shown ends where layout begins, if the layout holds a line break. -/
theorem getLast?_shownBehind {s : Text} (h : closes s = true) :
    (shownBehind s).getLast? = (s.reverse.dropWhile isLayout).head? := by
  induction s using lines_induction with
  | last p hp =>
      have hgap := (closes_of_all hp).1 h
      have hlayout : ∀ c ∈ p, isLayout c = true := fun c hc => by
        simp [isLayout, List.dropWhile_eq_nil_iff.1 hgap c hc]
      rw [shownBehind_of_all hp, hgap, List.dropWhile_eq_nil_iff.2]
      · rfl
      · exact fun c hc => hlayout c (List.mem_reverse.1 hc)
  | line p b q hp hb ih =>
      rw [closes_append_cons p hb] at h
      rw [shownBehind_append_cons hp hb, getLast?_glue, getLast?_dropWhileEnd, ih h,
        head?_dropWhile_reverse, dropWhile_isLayout_reverse hp hb]

/-- If a text closes with a line break, what is shown of it ends in front of its layout. -/
theorem getLast?_shownLines {s : Text} (h : opens s.reverse = true) :
    (shownLines s).getLast? = (s.reverse.dropWhile isLayout).head? := by
  induction s using lines_induction with
  | last p hp =>
      rw [opens_of_all fun c hc => hp c (List.mem_reverse.1 hc)] at h
      cases h
  | line p b q hp hb _ =>
      rw [opens_reverse p hb] at h
      rw [shownLines_append_cons hp hb, getLast?_glue, getLast?_dropWhileEnd,
        getLast?_shownBehind h, dropWhile_isLayout_reverse hp hb]

/-- Only a character itself shows it, unless it is white space. -/
theorem shownChar_eq_iff {c d : Char} (hc : isSpace c = false) : shownChar d = c ↔ d = c := by
  unfold shownChar
  split
  · next hd =>
    constructor
    · rintro rfl
      cases hc
    · rintro rfl
      rw [hd] at hc
      cases hc
  · rfl

theorem opens_cons {c : Char} (hc : isSpace c = false) (s : Text) : opens (c :: s) = false := by
  have hgap : ¬ isGap c = true := fun h => by simp [isSpace_of_isGap h] at hc
  have hbreak : ¬ isBreak c = true := fun h => by simp [isSpace_of_isBreak h] at hc
  rw [opens, List.dropWhile_cons_of_neg hgap]
  simpa using hbreak

theorem eq_space_of_mem_lost {c : Char} {s : Text} (h : c ∈ lost s) : c = ' ' := by
  unfold lost at h
  split at h
  · exact List.mem_singleton.1 h
  · cases h

/-- A text that does not begin with white space is shown from its beginning. -/
theorem head?_shownLines_of_solid {s : Text} {c : Char} (h : s.head? = some c)
    (hc : isSpace c = false) : (shownLines s).head? = some c := by
  have hopens : opens s = false := by
    obtain ⟨t, rfl⟩ := List.head?_eq_some_iff.1 h
    exact opens_cons hc t
  have hhead := congrArg List.head? (alike_shownLines s).collapse_eq
  rw [head?_collapse, head?_collapse, h, lost, hopens, Option.map_some,
    (shownChar_eq_iff hc).2 rfl] at hhead
  obtain ⟨d, hd, hdc⟩ := Option.map_eq_some_iff.1 hhead.symm
  rw [(shownChar_eq_iff hc).1 hdc] at hd
  cases hs : shownLines s with
  | nil =>
      rw [hs] at hd
      rw [eq_space_of_mem_lost (List.mem_of_mem_head? hd)] at hc
      cases hc
  | cons e t =>
      rw [hs] at hd
      exact hd

/-- A text that does not end in white space is shown to its end. -/
theorem getLast?_shownLines_of_solid {s : Text} {c : Char} (h : s.getLast? = some c)
    (hc : isSpace c = false) : (shownLines s).getLast? = some c := by
  have hopens : opens s.reverse = false := by
    obtain ⟨t, ht⟩ := List.head?_eq_some_iff.1 (List.head?_reverse.trans h)
    rw [ht]
    exact opens_cons hc t
  have hlast := congrArg List.getLast? (alike_shownLines s).collapse_eq
  rw [getLast?_collapse, getLast?_collapse, h, lost.eq_1 s.reverse, hopens, Option.map_some,
    (shownChar_eq_iff hc).2 rfl, if_neg (by simp), List.append_nil] at hlast
  obtain ⟨d, hd, hdc⟩ := Option.map_eq_some_iff.1 hlast.symm
  rw [(shownChar_eq_iff hc).1 hdc] at hd
  rcases List.eq_nil_or_concat (shownLines s) with hs | ⟨t, e, hs⟩
  · rw [hs, List.append_nil] at hd
    rw [eq_space_of_mem_lost (List.mem_of_getLast? hd)] at hc
    cases hc
  · rw [hs] at hd ⊢
    simpa using hd

/-- A text begins without a line break among its blanks, or with a form feed behind these, which is
white space but no layout. -/
def Keeps (s : Text) : Prop :=
  opens s = true → (s.dropWhile isLayout).head? = some (Char.ofNat 12)

/-- If what follows the layout is shown as a space, it is a form feed. -/
theorem head?_eq_formFeed {s : Text}
    (h : (s.dropWhile isLayout).head?.map shownChar = some ' ') :
    (s.dropWhile isLayout).head? = some (Char.ofNat 12) := by
  have hlayout := List.head?_dropWhile_not isLayout s
  cases hhead : (s.dropWhile isLayout).head? with
  | none => simp [hhead] at h
  | some c =>
      rw [hhead] at h hlayout
      have hspace : isSpace c = true := by
        by_contra hc
        simp only [Option.map_some, shownChar, if_neg hc, Option.some.injEq] at h
        exact hc (by rw [h]; rfl)
      simp only [isSpace, Bool.or_eq_true, beq_iff_eq] at hspace
      rcases hspace with (((rfl | rfl) | rfl) | rfl) | rfl <;> simp_all [isLayout, isGap, isBreak]

/-- The lines of a text are shown in the width of their white space exactly if both of its ends keep
theirs. -/
theorem collapse_shownLines_iff (s : Text) :
    collapse (shownLines s) = collapse s ↔ Keeps s ∧ Keeps s.reverse := by
  have halike := alike_shownLines s
  -- What is lost are spaces at the ends, which only a form feed can stand for.
  constructor
  · intro h
    rw [halike.collapse_eq] at h
    constructor
    · intro hopens
      have hhead := congrArg List.head? h
      rw [head?_collapse, head?_collapse, head?_shownLines hopens, lost, if_pos hopens] at hhead
      exact head?_eq_formFeed hhead
    · intro hcloses
      have hlast := congrArg List.getLast? h
      rw [getLast?_collapse, getLast?_collapse, getLast?_shownLines hcloses,
        lost.eq_1 s.reverse, if_pos hcloses, ← List.append_assoc, List.getLast?_concat] at hlast
      exact head?_eq_formFeed hlast
  · rintro ⟨hstart, hend⟩
    have hbehind : Alike (shownLines s ++ lost s.reverse) (shownLines s) := by
      rw [lost]
      split
      · next hcloses =>
        have hlast := getLast?_shownLines hcloses
        rw [hend hcloses] at hlast
        obtain ⟨r, hr⟩ := List.getLast?_eq_some_iff.1 hlast
        rw [hr, List.append_assoc]
        exact (Alike.refl r).append ((Alike.space rfl rfl []).trans (.swap rfl rfl []))
      · rw [List.append_nil]
        exact .refl _
    have hbefore : Alike (lost s ++ shownLines s) (shownLines s) := by
      rw [lost]
      split
      · next hopens =>
        have hhead := head?_shownLines hopens
        rw [hstart hopens] at hhead
        obtain ⟨r, hr⟩ := List.head?_eq_some_iff.1 hhead
        rw [hr]
        exact .space rfl rfl r
      · exact .refl _
    calc
      collapse (shownLines s) = collapse (lost s ++ shownLines s) := hbefore.symm.collapse_eq
      _ = collapse (lost s ++ (shownLines s ++ lost s.reverse)) :=
        ((Alike.refl _).append hbehind).symm.collapse_eq
      _ = collapse s := halike.symm.collapse_eq

end Viewloom.Spacing
