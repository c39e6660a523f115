import Mathlib.Algebra.Group.Nat.Defs
import Viewloom.Proofs.Script.Modules

/-!
# Class names as identifiers

The words of a label hold letters and numerals, and not all of these are characters of identifiers. A
class name is an identifier exactly if those of its label are, and a module that declares, requires or
exports a class of another name is none.
-/

namespace Viewloom

/-! ## Tables as bits -/

namespace Unicode

/-- The code points of some ranges, as the bits of a number. A search passes all ranges in front of a
code point; its bit is found at once. -/
def bitsOf : List (Nat × Nat) → Nat
  | [] => 0
  | r :: ranges => (2 ^ (r.2 + 1 - r.1) - 1) <<< r.1 ||| bitsOf ranges

/-- A range that is not empty ends before another one begins. -/
def IsBefore (r s : Nat × Nat) : Prop := r.1 ≤ r.2 ∧ r.2 < s.1

instance (r s : Nat × Nat) : Decidable (IsBefore r s) := inferInstanceAs (Decidable (_ ∧ _))

instance : Trans IsBefore IsBefore IsBefore where
  trans h h' := ⟨h.1, Nat.lt_trans h.2 (Nat.lt_of_le_of_lt h'.1 h'.2)⟩

/-- The bits of ascending ranges are the code points that a search finds in them. -/
theorem testBit_bitsOf {ranges : List (Nat × Nat)} (h : ranges.Pairwise IsBefore) (n : Nat) :
    (bitsOf ranges).testBit n = inRanges ranges n := by
  induction ranges with
  | nil => rw [bitsOf, Nat.zero_testBit, inRanges]
  | cons r ranges ih =>
      obtain ⟨hbefore, hranges⟩ := List.pairwise_cons.1 h
      rw [bitsOf, Nat.testBit_or, Nat.testBit_shiftLeft, Nat.testBit_two_pow_sub_one, ih hranges,
        inRanges]
      split
      · next hlow =>
        have hrest : inRanges ranges n = false := by
          cases ranges with
          | nil => rfl
          | cons s ranges =>
              obtain ⟨hr, hs⟩ := hbefore s List.mem_cons_self
              rw [inRanges, if_pos (by omega)]
        simp [hrest, Nat.not_le.2 hlow]
      · split
        · simp only [Bool.or_eq_true, Bool.and_eq_true, decide_eq_true_eq]
          omega
        · simp
          omega

/-- Whether a range holds characters only, and lies in the ranges of a table. -/
def isRangeOf (table : List (Nat × Nat)) (first last : Nat) : Bool :=
  decide (last < 0xd800 ∨ 0xdfff < first ∧ last < 0x110000) &&
    (bitsOf table >>> first) % 2 ^ (last + 1 - first) == 2 ^ (last + 1 - first) - 1

variable {table : List (Nat × Nat)} {first last n : Nat}

theorem toNat_ofNat (h : n < 0xd800 ∨ 0xdfff < n ∧ n < 0x110000) : (Char.ofNat n).toNat = n := by
  rw [Char.ofNat, dif_pos h]
  rfl

/-- The characters of a range that lies in a table are found in the table. -/
theorem inRanges_of_isRangeOf (htable : table.Pairwise IsBefore) (h : isRangeOf table first last = true)
    (hfirst : first ≤ n) (hlast : n ≤ last) : inRanges table (Char.ofNat n).toNat = true := by
  simp only [isRangeOf, Bool.and_eq_true, decide_eq_true_eq, beq_iff_eq] at h
  have hbit := congrArg (Nat.testBit · (n - first)) h.2
  have hlow : n - first < last + 1 - first := by omega
  simp only [Nat.testBit_mod_two_pow, Nat.testBit_shiftRight, Nat.testBit_two_pow_sub_one, hlow,
    decide_true, Bool.true_and, Nat.add_sub_cancel' hfirst] at hbit
  rwa [toNat_ofNat (by omega), ← testBit_bitsOf htable]

theorem isChain_tables : idStartTable.IsChain IsBefore ∧ idContinueTable.IsChain IsBefore := by
  decide +kernel

theorem pairwise_idStartTable : idStartTable.Pairwise IsBefore :=
  List.isChain_iff_pairwise.1 isChain_tables.1

theorem pairwise_idContinueTable : idContinueTable.Pairwise IsBefore :=
  List.isChain_iff_pairwise.1 isChain_tables.2

/-- Whether a range lies apart from all ranges of a table. -/
def isApart (table : List (Nat × Nat)) (first last : Nat) : Bool :=
  table.all fun r => r.2 < first || last < r.1

/-- The characters of a range that lies apart from a table are not found in it. -/
theorem inRanges_of_isApart (h : isApart table first last = true) (hfirst : first ≤ n) (hlast : n ≤ last) :
    inRanges table n = false := by
  rw [← Bool.not_eq_true]
  intro hn
  obtain ⟨r, hr, hbounds⟩ := exists_range_of_inRanges hn
  have hr := List.all_eq_true.1 h r hr
  simp only [Bool.or_eq_true, decide_eq_true_eq] at hr
  omega

end Unicode

open Unicode

namespace Script

open Viewloom.Script.Parser Viewloom.Script.Tree

/-! ## Identifiers -/

/-- The names that scripts admit: they begin with a character with the property ID_Start, a dollar
sign or an underscore, and go on with characters with the property ID_Continue, dollar signs and the two
joiners. -/
def isIdentifierName : Text → Bool
  | [] => false
  | c :: name =>
    (isIdStart c || c == '$' || c == '_') &&
      name.all fun d => isIdContinue d || d == '$' || d.toNat == 0x200c || d.toNat == 0x200d

theorem toNat_lt_of_isAlphanum {c : Char} (h : c.isAlphanum = true) : c.toNat < 0x80 := by
  delta Char.isAlphanum at h
  simp only [Bool.or_eq_true, isAlpha_iff, Char.isDigit, Bool.and_eq_true, decide_eq_true_eq] at h
  rcases h with h | ⟨-, hhigh⟩
  · omega
  · have hlast : c.toNat ≤ 57 := hhigh
    omega

/-- For ASCII characters the scanner does not look into the tables, but these agree with it. -/
theorem isName_ascii : ∀ n < 0x80,
    isNameStart (Char.ofNat n) =
        (isIdStart (Char.ofNat n) || Char.ofNat n == '$' || Char.ofNat n == '_') ∧
      isNamePart (Char.ofNat n) = (isIdContinue (Char.ofNat n) ||
        Char.ofNat n == '$' || (Char.ofNat n).toNat == 0x200c || (Char.ofNat n).toNat == 0x200d) := by
  decide +kernel

/-- The tests of the scanner for the characters of names, without its case for ASCII characters. -/
theorem isNameStart_eq (c : Char) : isNameStart c = (isIdStart c || c == '$' || c == '_') := by
  by_cases hc : c.toNat < 0x80
  · simpa only [Char.ofNat_toNat] using (isName_ascii c.toNat hc).1
  · have hletter : c.isAlpha = false := by
      rw [← Bool.not_eq_true]
      exact fun h => hc (toNat_lt_of_isAlphanum (by simp [Char.isAlphanum, h]))
    simp only [isNameStart, isAsciiLetter, hletter, Nat.le_of_not_lt hc, decide_true, Bool.false_or,
      Bool.true_and]
    rw [Bool.or_comm, Bool.or_assoc]

/-- What may stand in a name is what the standard allows in identifiers. -/
theorem isNamePart_eq (c : Char) : isNamePart c =
    (isIdContinue c || c == '$' || c.toNat == 0x200c || c.toNat == 0x200d) := by
  by_cases hc : c.toNat < 0x80
  · simpa only [Char.ofNat_toNat] using (isName_ascii c.toNat hc).2
  · have hletter : c.isAlpha = false ∧ c.isDigit = false := by
      simp only [← Bool.not_eq_true, ← not_or, ← Bool.or_eq_true]
      exact fun h => hc (toNat_lt_of_isAlphanum h)
    have hlow : c ≠ '_' := by
      rintro rfl
      exact hc (by decide)
    simp only [isNamePart, isAsciiLetter, hletter, Nat.le_of_not_lt hc, decide_true, Bool.false_or,
      Bool.true_and, Bool.or_false, beq_eq_false_iff_ne.2 hlow]
    ac_rfl

/-- Names of scripts are identifiers. -/
theorem isPlainName_eq (name : Text) : isPlainName name = isIdentifierName name := by
  cases name with
  | nil => rfl
  | cons c name => simp only [isPlainName, isIdentifierName, isNameStart_eq, ← isNamePart_eq]

theorem isPlainName_eq_and (name : Text) :
    isPlainName name = (name.head?.any isNameStart && name.all isNamePart) := by
  cases name with
  | nil => rfl
  | cons c name =>
      cases hc : isNameStart c with
      | false => simp [isPlainName, hc]
      | true => simp [isPlainName, hc, isNamePart_of_isNameStart hc]

/-! ## Capitals in identifiers -/

/-- The sign below a letter that becomes a letter of its own among capitals. -/
def iotaSubscript : Char := Char.ofNat 0x345

/-- It continues names, and becomes another sign. -/
theorem iotaSubscript_spec :
    isNamePart iotaSubscript = true ∧ shiftOf upperRuns iotaSubscript.toNat ≠ none := by
  decide +kernel

/-- What the capitals of a character have in common with it. -/
structure AreCapitals (c : Char) (capitals : Text) : Prop where
  part : capitals.all isNamePart = isNamePart c
  start : capitals.head?.any isNameStart = (isNameStart c || c == iotaSubscript)

instance (c : Char) (capitals : Text) : Decidable (AreCapitals c capitals) :=
  decidable_of_iff (capitals.all isNamePart = isNamePart c ∧
      capitals.head?.any isNameStart = (isNameStart c || c == iotaSubscript))
    ⟨fun ⟨hpart, hstart⟩ => ⟨hpart, hstart⟩, fun h => ⟨h.part, h.start⟩⟩

/-- A character that begins names may have any name for its capitals. -/
theorem areCapitals_of_isNameStart {c : Char} {capitals : Text} (hc : isNameStart c = true)
    (h : isPlainName capitals = true) : AreCapitals c capitals := by
  rw [isPlainName_eq_and, Bool.and_eq_true] at h
  exact ⟨by rw [h.2, isNamePart_of_isNameStart hc], by rw [h.1, hc, Bool.true_or]⟩

/-- What may not stand in a name may not begin one. -/
theorem isNameStart_of_isNamePart_eq_false {c : Char} (h : isNamePart c = false) :
    isNameStart c = false := by
  rw [← Bool.not_eq_true] at h ⊢
  exact mt isNamePart_of_isNameStart h

section Runs

variable {run : Nat × Nat × Nat × Int} {first last n : Nat} {c : Char}

/-- A range of beginnings of identifiers. -/
abbrev isStartRange (first last : Nat) : Bool := isRangeOf idStartTable first last

/-- The characters of a range of beginnings begin names. -/
theorem isNameStart_of_isStartRange (h : isStartRange first last = true) (hfirst : first ≤ n)
    (hlast : n ≤ last) : isNameStart (Char.ofNat n) = true := by
  have hstart : isIdStart (Char.ofNat n) = true :=
    inRanges_of_isRangeOf pairwise_idStartTable h hfirst hlast
  simp [isNameStart_eq, hstart]

theorem isNamePart_of_isRangeOf (h : isRangeOf idContinueTable n n = true) :
    isNamePart (Char.ofNat n) = true := by
  have hpart : isIdContinue (Char.ofNat n) = true :=
    inRanges_of_isRangeOf pairwise_idContinueTable h (Nat.le_refl n) (Nat.le_refl n)
  simp [isNamePart_eq, hpart]

/-- A range of characters behind the joiners that are no characters of identifiers. -/
def isStrangeRange (first last : Nat) : Bool :=
  decide (0x200d < first ∧ last < 0xd800) && isApart idContinueTable first last

/-- The characters of a strange range stand in no names. -/
theorem isNamePart_of_isStrangeRange (h : isStrangeRange first last = true) (hfirst : first ≤ n)
    (hlast : n ≤ last) : isNamePart (Char.ofNat n) = false := by
  simp only [isStrangeRange, Bool.and_eq_true, decide_eq_true_eq] at h
  have hn : (Char.ofNat n).toNat = n := toNat_ofNat (by omega)
  have hpart : isIdContinue (Char.ofNat n) = false := by
    rw [isIdContinue, hn]
    exact inRanges_of_isApart h.2 hfirst hlast
  have hdollar : Char.ofNat n ≠ '$' := by
    intro heq
    have hvalue : n = 36 := hn.symm.trans (congrArg Char.toNat heq)
    omega
  have hlow : n ≠ 0x200c ∧ n ≠ 0x200d := by omega
  simp [isNamePart_eq, hpart, hdollar, hn, hlow]

/-- Where a run takes a code point. -/
def image (run : Nat × Nat × Nat × Int) (n : Nat) : Nat := (n + run.2.2.2).toNat

/-- Whether a run takes letters to letters, or strange characters to strange ones, or each of its
characters to one that has as much in common with it. -/
def isSteady (run : Nat × Nat × Nat × Int) : Bool :=
  isStartRange run.1 run.2.1 && isStartRange (image run run.1) (image run run.2.1) ||
    isStrangeRange run.1 run.2.1 && isStrangeRange (image run run.1) (image run run.2.1) ||
    (List.range (run.2.1 + 1 - run.1)).all fun k => k % run.2.2.1 != 0 ||
      decide (AreCapitals (Char.ofNat (run.1 + k)) [Char.ofNat (image run (run.1 + k))])

/-- The capitals of a steady run may stand where its characters may. -/
theorem areCapitals_of_isSteady (h : isSteady run = true) (hfirst : run.1 ≤ n) (hlast : n ≤ run.2.1)
    (hstride : (n - run.1) % run.2.2.1 = 0) :
    AreCapitals (Char.ofNat n) [Char.ofNat (image run n)] := by
  simp only [isSteady, Bool.or_eq_true, Bool.and_eq_true] at h
  have himage : image run run.1 ≤ image run n ∧ image run n ≤ image run run.2.1 := by
    simp only [image]
    omega
  rcases h with (⟨hrun, hcapitals⟩ | ⟨hrun, hcapitals⟩) | heach
  · apply areCapitals_of_isNameStart (isNameStart_of_isStartRange hrun hfirst hlast)
    simp [isPlainName, isNameStart_of_isStartRange hcapitals himage.1 himage.2]
  · have hpart := isNamePart_of_isStrangeRange hrun hfirst hlast
    have hcapital := isNamePart_of_isStrangeRange hcapitals himage.1 himage.2
    have hne : Char.ofNat n ≠ iotaSubscript := by
      rintro heq
      rw [heq, iotaSubscript_spec.1] at hpart
      cases hpart
    constructor
    · simp [hpart, hcapital]
    · simp [isNameStart_of_isNamePart_eq_false hpart, isNameStart_of_isNamePart_eq_false hcapital, hne]
  · have hn := List.all_eq_true.1 heach (n - run.1) (List.mem_range.2 (by omega))
    simpa [hstride, Nat.add_sub_cancel' hfirst] using hn

/-- All runs of capitals are steady. -/
theorem isSteady_of_mem : ∀ run ∈ upperRuns, isSteady run = true := by decide +kernel

/-- A character with several capitals begins names, and its capitals are a name. -/
theorem isPlainName_of_mem : ∀ entry ∈ upperExpansions,
    isNameStart (Char.ofNat entry.1) = true ∧ isPlainName (entry.2.map Char.ofNat) = true := by
  have hbits : ∀ entry ∈ upperExpansions, isStartRange entry.1 entry.1 = true ∧
      (entry.2.head?.any fun m => isStartRange m m) = true ∧
      (entry.2.all fun m => isRangeOf idContinueTable m m) = true := by decide +kernel
  intro entry hentry
  obtain ⟨hstart, hhead, hall⟩ := hbits entry hentry
  refine ⟨isNameStart_of_isStartRange hstart (Nat.le_refl _) (Nat.le_refl _), ?_⟩
  rw [isPlainName_eq_and, List.head?_map, Option.any_map, List.all_map, Bool.and_eq_true]
  constructor
  · rw [Option.any_eq_true] at hhead ⊢
    obtain ⟨m, hm, hfirst⟩ := hhead
    exact ⟨m, hm, isNameStart_of_isStartRange hfirst (Nat.le_refl m) (Nat.le_refl m)⟩
  · rw [List.all_eq_true] at hall ⊢
    exact fun m hm => isNamePart_of_isRangeOf (hall m hm)

/-- Capitals may stand in names where their characters may, but for the subscript iota. -/
theorem areCapitals_upperChar (c : Char) : AreCapitals c (upperChar c) := by
  unfold upperChar
  split
  · next codes hcodes =>
    obtain ⟨l₁, l₂, hl, -⟩ := List.lookup_eq_some_iff.1 hcodes
    obtain ⟨hstart, hplain⟩ := isPlainName_of_mem (c.toNat, codes) (by simp [hl])
    rw [Char.ofNat_toNat] at hstart
    exact areCapitals_of_isNameStart hstart hplain
  · unfold shiftChar
    split
    · next shift hshift =>
      obtain ⟨run, hrun, rfl, hfirst, hlast, hstride⟩ := exists_stride_of_shiftOf hshift
      have hcapitals := areCapitals_of_isSteady (isSteady_of_mem run hrun) hfirst hlast hstride
      rwa [Char.ofNat_toNat] at hcapitals
    · next hshift =>
      have hne : c ≠ iotaSubscript := by
        rintro rfl
        exact iotaSubscript_spec.2 hshift
      exact ⟨by simp, by simp [hne]⟩

end Runs

/-- Capitalizing a word does not change whether its characters may stand in names. -/
theorem all_isNamePart_capitalize (word : Text) :
    (Names.capitalize word).all isNamePart = word.all isNamePart := by
  cases word with
  | nil => rfl
  | cons c word =>
      rw [Names.capitalize, List.all_append, (areCapitals_upperChar c).part, List.all_cons]

theorem all_isNamePart_flatMap (words : List Text) :
    (words.flatMap Names.capitalize).all isNamePart = words.flatten.all isNamePart := by
  induction words with
  | nil => rfl
  | cons word words ih =>
      rw [List.flatMap_cons, List.all_append, all_isNamePart_capitalize, ih, List.flatten_cons,
        List.all_append]

section Alphanumeric

variable {c : Char} (hc : isAlphanumeric c = true)
include hc

/-- Dollar signs, underscores and the joiners are neither letters nor numerals. -/
theorem toNat_ne_of_isAlphanumeric :
    c.toNat ≠ 0x24 ∧ c.toNat ≠ 0x5f ∧ c.toNat ≠ 0x200c ∧ c.toNat ≠ 0x200d := by
  have hall : ∀ n ∈ [0x24, 0x5f, 0x200c, 0x200d], isAlphanumeric (Char.ofNat n) = false := by
    decide +kernel
  have hne : ∀ n ∈ [0x24, 0x5f, 0x200c, 0x200d], c.toNat ≠ n := by
    rintro n hn rfl
    have hother := hall c.toNat hn
    rw [Char.ofNat_toNat, hc] at hother
    cases hother
  simpa using hne

/-- Letters and numerals begin names exactly if they have the property ID_Start. -/
theorem isNameStart_of_isAlphanumeric : isNameStart c = isIdStart c := by
  obtain ⟨hdollar, hlow, -, -⟩ := toNat_ne_of_isAlphanumeric hc
  have hdollar : (c == '$') = false :=
    beq_eq_false_iff_ne.2 fun heq => hdollar (congrArg Char.toNat heq)
  have hlow : (c == '_') = false := beq_eq_false_iff_ne.2 fun heq => hlow (congrArg Char.toNat heq)
  simp only [isNameStart_eq, hdollar, hlow, Bool.or_false]

/-- Letters and numerals stand in names exactly if they have the property ID_Continue. -/
theorem isNamePart_of_isAlphanumeric : isNamePart c = isIdContinue c := by
  obtain ⟨hdollar, -, hjoiner, hjoiner'⟩ := toNat_ne_of_isAlphanumeric hc
  have hdollar : (c == '$') = false :=
    beq_eq_false_iff_ne.2 fun heq => hdollar (congrArg Char.toNat heq)
  simp only [isNamePart_eq, hdollar, beq_eq_false_iff_ne.2 hjoiner, beq_eq_false_iff_ne.2 hjoiner',
    Bool.or_false]

end Alphanumeric

end Script

/-! ## Names of labels -/

namespace Names

open Script

/-- Whether the letters and numerals of a phrase are characters of identifiers. The first one must begin
an identifier when it is raised, unless it is a numeral and an underscore leads it. -/
def fitsIdentifier (phrase : Text) : Bool :=
  let letters := phrase.filter isAlphanumeric
  letters.all isIdContinue &&
    letters.head?.any fun c => isNumeric c || isIdStart c || c == iotaSubscript

/-- Words give an identifier exactly if all their characters continue one and the first is a numeral
or begins one. -/
theorem isPlainName_pascalCase {c : Char} {word suffix : Text} {words : List Text}
    (hletters : ∀ d ∈ ((c :: word) :: words).flatten, isAlphanumeric d = true)
    (hsuffix : suffix.all isNamePart = true) :
    isPlainName (pascalCase ((c :: word) :: words) suffix) =
      (((c :: word) :: words).flatten.all isIdContinue &&
        (isNumeric c || isIdStart c || c == iotaSubscript)) := by
  have hparts : (((c :: word) :: words).flatMap capitalize ++ suffix).all isNamePart =
      ((c :: word) :: words).flatten.all isIdContinue := by
    rw [List.all_append, hsuffix, Bool.and_true, all_isNamePart_flatMap, Bool.eq_iff_iff,
      List.all_eq_true, List.all_eq_true]
    exact forall₂_congr fun d hd => by rw [isNamePart_of_isAlphanumeric (hletters d hd)]
  have hstart : (((c :: word) :: words).flatMap capitalize ++ suffix).head?.any isNameStart =
      (isIdStart c || c == iotaSubscript) := by
    have hc := isNameStart_of_isAlphanumeric (hletters c (by simp))
    obtain ⟨d, t, hupper⟩ := List.exists_cons_of_ne_nil (upperChar_ne_nil c)
    rw [← hc, ← (areCapitals_upperChar c).start]
    simp [capitalize, hupper]
  cases hnumeric : isNumeric c with
  | true =>
      have hlead : pascalCase ((c :: word) :: words) suffix =
          '_' :: (((c :: word) :: words).flatMap capitalize ++ suffix) := by
        simp [pascalCase, lead, hnumeric]
      have hlow : isNameStart '_' = true := by decide
      rw [hlead, isPlainName, hparts, hlow, Bool.true_and, Bool.true_or, Bool.true_or, Bool.and_true]
  | false =>
      have hlead : pascalCase ((c :: word) :: words) suffix =
          ((c :: word) :: words).flatMap capitalize ++ suffix := by
        simp [pascalCase, lead, hnumeric]
      rw [hlead, isPlainName_eq_and, hparts, hstart, Bool.false_or, Bool.and_comm]

end Names

/-! ## Declared classes -/

namespace Script

open Viewloom.Script.Parser Viewloom.Script.Tree
open Template (quoted)

/-- What stands in modules where a class is declared, required and exported. -/
def classDeclarations (name path : Text) : List Text :=
  [text "class " ++ name ++ text " extends React.Component \x7b\x7d",
    Module.requireLine name path,
    text "exports." ++ name ++ text " = require(" ++ quoted path ++ text ")"]

/-- The same as lines of a module. -/
def classLinesOf (name path : Text) : List Line :=
  [⟨classText name (text "React.Component") [] [], ['\n'], []⟩,
    importLine name path ['\n'],
    ⟨text "exports." ++ (name ++ (text " = " ++ requireCall path)), ['\n'], [.required path]⟩]

theorem classDeclarations_eq (name path : Text) :
    classDeclarations name path = (classLinesOf name path).map Line.code := by
  simp [classDeclarations, classLinesOf, classText, importLine, requireCall, Line.printAll]
  exact ⟨rfl, rfl⟩

section Declarations

variable {must : Bool} {name path : Text}

/-- An export of a required module is a statement. -/
theorem isStatement_exports (hname : isVariable name = true) :
    IsStatement must false true [.required path]
      (text "exports." ++ (name ++ (text " = " ++ requireCall path))) := by
  have hplain := isPlainName_of_isVariable hname
  have hlinks : [Link.member name].all Link.isSound = true := by simp [Link.isSound, hplain]
  have hset : IsStatement must false true [.required path]
      (chain (text "exports") [.member name] ++ (text " = " ++ requireCall path)) :=
    isStatement_set (by decide) hlinks rfl (needs_node rfl (allNeed_one (needs_leaf rfl)))
      (fun _ _ => rfl) (by decide) (isExpression_require path)
  have hchain : chain (text "exports") [.member name] = text "exports." ++ name := by
    simp [chain, Link.print]
    rfl
  rwa [hchain, List.append_assoc] at hset

/-- The lines that name a class are read as lines if the class may be declared. -/
theorem isLine_classLinesOf (hname : IsClassName must name) :
    ∀ l ∈ classLinesOf name path, IsLine must false l := by
  simp only [classLinesOf, List.forall_mem_cons, List.not_mem_nil, false_imp_iff, implies_true, and_true]
  refine ⟨?_, isLine_import hname rfl rfl, ?_⟩
  · rcases hname with hname | ⟨rfl, hname⟩
    · have hclass : IsStatement must false false (Line.itemsAll [])
          (classText name (chain (text "React") [.member (text "Component")]) [] []) :=
        isStatement_class hname isSound_component.1 isSound_component.2 rfl (by simp)
      refine ⟨?_, ⟨false, hclass⟩, rfl, rfl⟩
      exact beginsStatement_of (w := text "class") (List.cons_ne_nil _ _) rfl rfl rfl
    · exact isLine_strangeClass hname rfl rfl
  · refine ⟨?_, ?_, rfl, rfl⟩
    · exact beginsStatement_of (w := text "exports") (List.cons_ne_nil _ _) rfl rfl rfl
    · rcases hname with hname | ⟨rfl, hname⟩
      · exact ⟨true, isStatement_exports hname⟩
      · exact ⟨false, hname.isStatement_exports⟩

/-- No statement is read where a name stands that is none. -/
theorem reads_statement_of_isStrange {rounds depth : Nat} {c : Context} {s : Source} {x : Text}
    {l : Line} {Q : Tree → Source → Prop} (hname : IsStrange name)
    (hl : l ∈ classLinesOf name path) (hs : s.rest = l.code ++ x)
    (hfit : Suffices 2 rounds depth s.rest.length) :
    Reads false (statement (grammarWithin rounds depth) c) s Q := by
  simp only [classLinesOf, List.mem_cons, List.not_mem_nil, or_false] at hl
  rcases hl with rfl | rfl | rfl
  · exact hname.reads_statement_class hs
  · rw [importLine, requireLine_eq] at hs
    exact hname.reads_statement_const hfit.rounds_pos hs
  · exact hname.reads_statement_exports hs hfit

/-- A line with a class that is no identifier is no module. -/
theorem parse_eq_none_of_isStrange {l : Line} (hname : IsStrange name)
    (hl : l ∈ classLinesOf name path) : parse l.print = none := by
  have hline : ∀ l' ∈ [l], IsLine false false l' :=
    List.forall_mem_singleton.2 (isLine_classLinesOf (.inr ⟨rfl, hname⟩) l hl)
  obtain ⟨hhead, hsolid⟩ := beginning_of_lines hline
  have hprint : Line.printAll [l] = l.print := by simp [Line.printAll]
  rw [hprint] at hhead hsolid
  have hstatement : ∀ l' ∈ [l], ∀ rounds depth s x u, Source.rest s = (id l').code ++ x → EndsLine x →
      Source.ofText x = some u → Ended u → Suffices 2 rounds depth s.rest.length →
        Reads false (statement (grammarWithin rounds depth) Context.top) s fun _ _ => False := by
    intro l' hl' rounds depth s x u hs _ _ _ hfit
    obtain rfl := List.mem_singleton.1 hl'
    exact reads_statement_of_isStrange hname hl hs hfit
  rw [Option.eq_none_iff_forall_ne_some]
  intro t hparse
  obtain ⟨ts, -, hts⟩ := exists_program_of_parse hhead hsolid
    (reads_moduleTree id (fun _ _ => False) hline hstatement (by simp [hprint])) hparse
  cases hts with
  | cons h _ => exact h

/-- The declarations of a class make modules exactly if its name is the name of a variable. -/
theorem check_classDeclarations_iff {view code : Text}
    (hname : isVariable name = true ∨ IsStrange name) (hcode : code ∈ classDeclarations name path) :
    Module.check view (code ++ ['\n']) = .ok () ↔ isPlainName name = true := by
  rw [classDeclarations_eq] at hcode
  obtain ⟨l, hl, rfl⟩ := List.mem_map.1 hcode
  have hgap : l.gap = ['\n'] := by
    simp only [classLinesOf, List.mem_cons, List.not_mem_nil, or_false] at hl
    rcases hl with rfl | rfl | rfl <;> rfl
  have hprint : l.code ++ ['\n'] = l.print := by rw [Line.print, hgap]
  rw [hprint]
  rcases hname with hname | hname
  · have hline : ∀ l' ∈ [l], IsLine true false l' :=
      List.forall_mem_singleton.2 (isLine_classLinesOf (.inl hname) l hl)
    have hcheck : Module.check view l.print = .ok () := by
      have hscript := (tells_lines hline).isScript
      rw [Line.printAll, List.flatMap_singleton] at hscript
      exact hscript.check_eq
    simp only [hcheck, isPlainName_of_isVariable hname]
  · have hcheck : Module.check view l.print ≠ .ok () := by
      simp [Module.check, Module.treeOf, parse_eq_none_of_isStrange hname hl]
    simp [hcheck, hname.notName]

end Declarations

end Script

/-! ## Class names of labels -/

namespace Names

open Script

/-- The classes of a view and its controller are the same words with different endings. -/
theorem exists_suffix_of_mem {words : List Text} {name : Text}
    (hname : name ∈ [(ofWords words).className, (ofWords words).controllerClassName]) :
    ∃ suffix, (suffix = text "View" ∨ suffix = text "Controller") ∧ name = pascalCase words suffix := by
  simp only [List.mem_cons, List.not_mem_nil, or_false] at hname
  rcases hname with rfl | rfl
  · exact ⟨_, .inl rfl, rfl⟩
  · exact ⟨_, .inr rfl, rfl⟩

/-- Both class names of a label are identifiers exactly if its letters and numerals fit, and only then
their classes may be declared, required and exported. -/
theorem isIdentifierName_iff_fitsIdentifier {label name : Text} {names : Names}
    (h : ofLabel label = .ok names) (hname : name ∈ [names.className, names.controllerClassName]) :
    (isIdentifierName name = true ↔ fitsIdentifier (Label.phrase label) = true) ∧
      ∀ view path, ∀ code ∈ classDeclarations name path,
        Module.check view (code ++ ['\n']) = .ok () ↔ fitsIdentifier (Label.phrase label) = true := by
  obtain ⟨words, hlabel, hwords, rfl, hmem⟩ := exists_words h
  obtain ⟨suffix, hends, rfl⟩ := exists_suffix_of_mem hname
  have hwordy : suffix.all isWordy = true := by rcases hends with rfl | rfl <;> decide
  have hpart : suffix.all isNamePart = true := by rcases hends with rfl | rfl <;> decide
  have hplain : isPlainName (pascalCase words suffix) = fitsIdentifier (Label.phrase label) := by
    obtain ⟨word, rest, rfl⟩ := List.exists_cons_of_ne_nil hwords
    obtain ⟨c, word, rfl⟩ := List.exists_cons_of_ne_nil (hmem word (by simp)).1
    have hletters : ((c :: word) :: rest).flatten = (Label.phrase label).filter isAlphanumeric := by
      rw [hlabel, Label.flatten_words]
    rw [isPlainName_pascalCase ?_ hpart, fitsIdentifier, ← hletters]
    · rfl
    · intro d hd
      rw [hletters] at hd
      exact (List.mem_filter.1 hd).2
  have hvariable : isVariable (pascalCase words suffix) = true ∨ IsStrange (pascalCase words suffix) := by
    obtain ⟨hall, hbegins⟩ := exists_pascalCase hmem hwords hwordy
    cases hname : isPlainName (pascalCase words suffix) with
    | true => exact .inl (isVariable_of_suffix hname hends (List.suffix_append _ _))
    | false => exact .inr ⟨hall, hname, hbegins⟩
  refine ⟨by rw [← isPlainName_eq, hplain], fun view path code hcode => ?_⟩
  rw [check_classDeclarations_iff hvariable hcode, hplain]

/-- A label that begins with digits, and one that begins with a raised two, which is a numeral but no
character of identifiers. -/
theorem isIdentifierName_iff_fitsIdentifier_numerals :
    (isIdentifierName (text "_404PageView") = true ∧
      ∀ view path, ∀ code ∈ classDeclarations (text "_404PageView") path,
        Module.check view (code ++ ['\n']) = .ok ()) ∧
    (isIdentifierName ('_' :: Char.ofNat 0xb2 :: text "aView") = false ∧
      ∀ view path, ∀ code ∈ classDeclarations ('_' :: Char.ofNat 0xb2 :: text "aView") path,
        Module.check view (code ++ ['\n']) ≠ .ok ()) := by
  have hnumeral : ofLabel (text "404-page") = .ok (ofWords [text "404", text "page"]) := by
    decide +kernel
  have hsquare : ofLabel (Char.ofNat 0xb2 :: ['a']) = .ok (ofWords [Char.ofNat 0xb2 :: ['a']]) := by
    decide +kernel
  have hfits : fitsIdentifier (Label.phrase (text "404-page")) = true := by decide +kernel
  have hnot : ¬ fitsIdentifier (Label.phrase (Char.ofNat 0xb2 :: ['a'])) = true := by decide +kernel
  obtain ⟨hname, hcheck⟩ := isIdentifierName_iff_fitsIdentifier hnumeral
    (show text "_404PageView" ∈ _ by decide +kernel)
  obtain ⟨hname', hcheck'⟩ := isIdentifierName_iff_fitsIdentifier hsquare
    (show '_' :: Char.ofNat 0xb2 :: text "aView" ∈ _ by decide +kernel)
  refine ⟨⟨hname.2 hfits, fun view path code hcode => (hcheck view path code hcode).2 hfits⟩, ?_, ?_⟩
  · rw [← Bool.not_eq_true]
    exact fun h => hnot (hname'.1 h)
  · exact fun view path code hcode h => hnot ((hcheck' view path code hcode).1 h)

end Names

end Viewloom
