import Mathlib.Data.List.TakeWhile
import Viewloom.Proofs.Script.Blocks
import Viewloom.Proofs.Tags

/-!
# Names that are none

A class name may hold letters and numerals of other scripts that no name of a variable can hold. Neither
a constant nor a class is read under such a name.
-/

namespace Viewloom

/-! ## Starts of names as parts of names -/

namespace Unicode

/-- Whether every range of an ascending list lies in a range of another one. -/
def covers (wider : List (Nat × Nat)) : List (Nat × Nat) → Bool
  | [] => true
  | r :: ranges =>
    match wider.dropWhile fun q => q.1 ≤ q.2 ∧ q.2 < r.1 with
    | [] => false
    | q :: rest => decide (q.1 ≤ r.1 ∧ r.2 ≤ q.2) && covers (q :: rest) ranges

/-- Ranges that end below a point do not matter for it. -/
theorem inRanges_of_dropWhile {ranges : List (Nat × Nat)} {first n : Nat} (hn : first ≤ n)
    (h : inRanges (ranges.dropWhile fun q => q.1 ≤ q.2 ∧ q.2 < first) n = true) :
    inRanges ranges n = true := by
  induction ranges with
  | nil => exact h
  | cons q ranges ih =>
      by_cases hq : q.1 ≤ q.2 ∧ q.2 < first
      · rw [List.dropWhile_cons_of_pos (by simpa using hq)] at h
        have hlow : ¬ n < q.1 := by omega
        have hhigh : ¬ n ≤ q.2 := by omega
        simpa only [inRanges, hlow, hhigh, if_false] using ih h
      · rwa [List.dropWhile_cons_of_neg (by simpa using hq)] at h

/-- A point in some ranges is in the ranges that cover them. -/
theorem inRanges_of_covers {wider ranges : List (Nat × Nat)} {n : Nat}
    (h : covers wider ranges = true) (hn : inRanges ranges n = true) : inRanges wider n = true := by
  induction ranges generalizing wider with
  | nil => cases hn
  | cons r ranges ih =>
      rw [covers] at h
      split at h
      · cases h
      · next q rest hrest =>
        simp only [Bool.and_eq_true, decide_eq_true_eq] at h
        obtain ⟨⟨hfirst, hlast⟩, hcovers⟩ := h
        simp only [inRanges] at hn
        split at hn
        · cases hn
        · next hlow =>
          apply inRanges_of_dropWhile (Nat.le_of_not_lt hlow)
          rw [hrest]
          split at hn
          · have hlow' : ¬ n < q.1 := by omega
            have hhigh' : n ≤ q.2 := by omega
            simp only [inRanges, hlow', hhigh', if_false, if_true]
          · exact ih hcovers hn

/-- A letter that begins an identifier can continue one. -/
theorem isIdContinue_of_isIdStart {c : Char} (h : isIdStart c = true) : isIdContinue c = true :=
  inRanges_of_covers (by decide +kernel) h

end Unicode

namespace Script

open Viewloom.Script.Parser Viewloom.Script.Tree

/-- What begins a name can be a part of one. -/
theorem isNamePart_of_isNameStart {c : Char} (h : isNameStart c = true) : isNamePart c = true := by
  simp only [isNameStart, Bool.or_eq_true, Bool.and_eq_true] at h
  rcases h with h | ⟨hlow, h⟩
  · simp [isNamePart, h]
  · simp [isNamePart, hlow, Unicode.isIdContinue_of_isIdStart h]

variable {must : Bool} {g : Grammar} {c : Context} {rounds depth n : Nat} {s : Source}
  {e x name : Text} {items : List Item}

/-- Whether a character is no blank and, if it is an ASCII character, part of a name. -/
def isWordy (d : Char) : Bool := isNamePart d || !isBlank d && decide (0x80 ≤ d.toNat)

/-- A text of letters and numerals that is no name. -/
structure IsStrange (name : Text) : Prop where
  wordy : name.all isWordy = true
  notName : isPlainName name = false
  begins : ∃ d t, name = d :: t ∧ d ≠ 'e'

/-- The name of a class, which must be the name of a variable if the script must be a module. -/
def IsClassName (must : Bool) (name : Text) : Prop :=
  isVariable name = true ∨ must = false ∧ IsStrange name

/-! ## Characters of such names -/

section Wordy

variable {d : Char} (hd : isWordy d = true)
include hd

theorem isBlank_of_isWordy : isBlank d = false := by
  simp only [isWordy, Bool.or_eq_true, Bool.and_eq_true, Bool.not_eq_true'] at hd
  rcases hd with hd | ⟨hd, -⟩
  · exact isBlank_of_isNamePart hd
  · exact hd

theorem ne_of_isWordy {e : Char} (he : isWordy e = false) : d ≠ e := by
  rintro rfl
  rw [hd] at he
  cases he

theorem isSolid_of_isWordy : isSolid (d :: x) = true := by
  simp [isSolid, isBlank_of_isWordy hd, ne_of_isWordy hd (show isWordy '/' = false by decide)]

/-- A character of words begins no punctuator. -/
theorem readPunctuator_of_isWordy : readPunctuator (d :: x) = none := by
  refine readPunctuator_of_not_mem fun hmem => ?_
  have hnone : (punctuators.map Prod.fst).all (fun e => !isWordy e) = true := by decide
  simpa [hd] using List.all_eq_true.1 hnone d hmem

end Wordy

/-- A text that begins with no name and no punctuator. -/
structure Stuck (u : Source) : Prop where
  begins : ∃ d y, u.rest = d :: y ∧ isWordy d = true
  mark : u.mark = []
  word : u.word = []
  unnamed : readName u.rest = none

/-- The reader is stuck at a character of words that begins no name. -/
theorem stuck_cons {d : Char} {u : Source} (hd : isWordy d = true) (hstart : isNameStart d = false)
    (hu : u.rest = d :: x) : Stuck u := by
  have hname : readName u.rest = none := by
    rw [hu]
    exact readName_eq_none hstart (ne_of_isWordy hd (by decide))
  refine ⟨⟨d, x, hu, hd⟩, ?_, ?_, hname⟩
  · simp only [Source.mark, hu, readPunctuator_of_isWordy hd]
  · simp only [Source.word, hname]

/-- Where the reader is stuck, an expression may end. -/
theorem Stuck.endsExpression {u : Source} (h : Stuck u) : u.endsExpression = true := by
  obtain ⟨d, y, hu, hd⟩ := h.begins
  have hnone : (text ".[(\x60").contains d = false := by
    rw [← Bool.not_eq_true]
    intro hmem
    have hall : (text ".[(\x60").all (fun d => !isWordy d) = true := by decide
    simpa [hd] using List.all_eq_true.1 hall d (List.contains_iff_mem.1 hmem)
  have haccess : u.endsAccess = true := by
    simp only [Source.endsAccess, hu, List.head?_cons, Option.all_some, hnone, h.mark]
    decide
  simp only [Source.endsExpression, Source.endsOperand, Source.endsOperation,
    Source.endsAssignment, haccess, h.mark, h.word]
  decide

/-- A reader that needs another mark than the next one fails. -/
theorem reads_mark_ne {m : Text} {Q : Unit → Source → Prop} (h : s.mark ≠ m) :
    Reads false (mark m) s Q := by
  simp only [mark, Reads.bind_iff, Reads.token_iff, implies_true, and_true]
  intro found x hread
  have hne : (found == m) = false := by
    rw [beq_eq_false_iff_ne]
    rwa [Source.mark, hread] at h
  unfold Skips
  split
  · simp [hne]
  · rfl

/-! ## Reading them -/

namespace IsStrange

variable (hname : IsStrange name)
include hname

/-- Nothing is read off the text, or a name with the rest of it behind. -/
theorem cases (hs : s.rest = name ++ x) :
    Stuck s ∨ ∃ w y, s.rest = w ++ y ∧ isPlainName w = true ∧ endsName y = true ∧
      w.head? ≠ some 'e' ∧ Source.ofText y = some ⟨y, false, []⟩ ∧ Stuck ⟨y, false, []⟩ := by
  obtain ⟨hwordy, hnot, d, t, rfl, hne⟩ := hname
  simp only [List.all_cons, Bool.and_eq_true] at hwordy
  cases hd : isNameStart d with
  | false => exact .inl (stuck_cons hwordy.1 hd hs)
  | true =>
      right
      have hrest : t.dropWhile isNamePart ≠ [] := by
        intro hnil
        have hall := List.dropWhile_eq_nil_iff.1 hnil
        simp [isPlainName, hd, List.all_eq_true.2 hall] at hnot
      obtain ⟨e, y, hy⟩ := List.exists_cons_of_ne_nil hrest
      have hpart : isNamePart e = false := by
        have hhead := List.head?_dropWhile_not isNamePart t
        simpa [hy] using hhead
      have hmem : e ∈ t := (List.dropWhile_sublist isNamePart).subset (by simp [hy])
      have hwordy' : isWordy e = true := List.all_eq_true.1 hwordy.2 e hmem
      have hstart : isNameStart e = false := by
        rw [← Bool.not_eq_true]
        intro hstart
        rw [isNamePart_of_isNameStart hstart] at hpart
        cases hpart
      refine ⟨d :: t.takeWhile isNamePart, e :: (y ++ x), ?_, ?_, ?_, ?_, ?_, ?_⟩
      · have ht := List.takeWhile_append_dropWhile (p := isNamePart) (l := t)
        rw [hy] at ht
        have heq : t ++ x = t.takeWhile isNamePart ++ e :: (y ++ x) := by
          rw [← List.cons_append, ← List.append_assoc, ht]
        rw [hs, List.cons_append, heq]
        rfl
      · simp only [isPlainName, hd, Bool.true_and]
        exact List.all_takeWhile
      · simp [endsName, hpart, ne_of_isWordy hwordy' (show isWordy '\\' = false by decide)]
      · simpa using hne
      · exact Source.ofText_of_isSolid (isSolid_of_isWordy hwordy')
      · exact stuck_cons hwordy' hstart rfl

/-- If a name is read off the text, nothing is read behind it. -/
theorem reads_variableName {Q : Text → Source → Prop} (hs : s.rest = name ++ x)
    (h : ∀ w u, Stuck u → Q w u) : Reads false (variableName c) s Q := by
  simp only [variableName, Reads.bind_iff]
  rcases hname.cases hs with hstuck | ⟨w, y, hw, hplain, hends, -, hy, hstuck⟩
  · rw [Reads.token_iff, hstuck.unnamed]
    exact ⟨by simp, fun _ => rfl⟩
  · apply reads_name hw hplain hends
    rw [Skips, hy]
    simp only [Reads.require_iff, Reads.pure_iff, implies_true, and_true]
    exact fun _ => h w _ hstuck

/-- A declarator with a name that is no identifier is not read. -/
theorem reads_declarator {Q : Tree → Source → Prop} (hs : s.rest = name ++ x) :
    Reads false (declarator g c true true) s Q := by
  obtain ⟨hwordy, -, d, t, rfl, -⟩ := id hname
  simp only [List.all_cons, Bool.and_eq_true] at hwordy
  have hhead : s.rest.head? = some d := by
    rw [hs]
    rfl
  simp only [declarator, declared, Reads.bind_iff, Reads.nextChar_iff]
  split
  · next heq =>
      cases hhead.symm.trans heq
      exact absurd hwordy.1 (by decide)
  · next heq =>
      cases hhead.symm.trans heq
      exact absurd hwordy.1 (by decide)
  · rw [Reads.bind_iff]
    apply hname.reads_variableName hs
    intro w u hstuck
    simp [hstuck.mark, leaf]

/-- A constant with a name that is no identifier is not read. -/
theorem reads_statement_const {Q : Tree → Source → Prop} (hg : 0 < g.rounds)
    (hs : s.rest = text "const " ++ (name ++ (text " = " ++ e)) ++ x) :
    Reads false (statement g c) s Q := by
  have hs : s.rest = text "const" ++ ([' '] ++ (name ++ (text " = " ++ (e ++ x)))) := by
    rw [hs]
    simp
    rfl
  have hsolid : isSolid (name ++ (text " = " ++ (e ++ x))) = true := by
    obtain ⟨hwordy, -, d, t, rfl, -⟩ := id hname
    simp only [List.all_cons, Bool.and_eq_true] at hwordy
    exact isSolid_of_isWordy hwordy.1
  exact reads_statement_variables hg hs rfl hsolid rfl
    (reads_atVariables_const hs rfl) (hname.reads_declarator rfl)

theorem isStatement_const : IsStatement false false false items
    (text "const " ++ (name ++ (text " = " ++ e))) where
  reads _ _ _ _ _ _ _ hs _ _ _ hfit := hname.reads_statement_const hfit.rounds_pos hs

/-- A class with a name that is no identifier is not read. -/
theorem reads_classTree {Q : Tree → Source → Prop}
    (hs : s.rest = text "class" ++ ([' '] ++ (name ++ x))) : Reads false (classTree g c) s Q := by
  obtain ⟨hwordy, -, d, t, rfl, -⟩ := id hname
  simp only [List.all_cons, Bool.and_eq_true] at hwordy
  generalize hu : Source.mk (d :: t ++ x) false [] = u
  have hrest : u.rest = d :: t ++ x := by rw [← hu]
  have hmark : (u.mark == ['\x7b']) = false := by
    simp only [Source.mark, hrest, List.cons_append, readPunctuator_of_isWordy hwordy.1]
    rfl
  have hword : (u.word == text "extends") = false := by
    rw [beq_eq_false_iff_ne]
    rcases hname.cases hrest with hstuck | ⟨w, y, hw, hplain, hends, hhead, -⟩
    · rw [hstuck.word]
      decide
    · rw [Source.word_of_isPlainName hw hplain hends]
      rintro rfl
      exact hhead rfl
  simp only [classTree, Reads.bind_iff]
  apply reads_word_gap hs rfl rfl rfl (isSolid_of_isWordy hwordy.1)
  have hbreak : [' '].any isLineEnd = false := rfl
  simp only [hbreak, List.cons_append] at hu ⊢
  simp only [hu, Reads.nextWord_iff, Reads.atMark_iff, hword, hmark, Bool.false_or, Bool.false_eq_true,
    if_false, Reads.bind_iff]
  apply hname.reads_variableName hrest
  intro w v hstuck
  simp only [Reads.skipWord_iff, hstuck.word]
  refine ⟨fun heq => absurd heq (by decide), fun _ => ?_⟩
  have hopen : v.mark ≠ ['\x7b'] := by
    rw [hstuck.mark]
    decide
  simp only [Bool.false_eq_true, if_false, Reads.bind_iff, Reads.pure_iff]
  exact reads_mark_ne hopen

/-- Whatever stands behind the name, no class is read. -/
theorem reads_statement_class {Q : Tree → Source → Prop}
    (hs : s.rest = text "class " ++ (name ++ e) ++ x) : Reads false (statement g c) s Q := by
  have hs : s.rest = text "class" ++ ([' '] ++ (name ++ (e ++ x))) := by
    rw [hs]
    simp
    rfl
  have hword : s.word = text "class" := Source.word_of_isPlainName hs rfl rfl
  have hasync : (text "class" == text "async") = false := by decide
  apply reads_statement_word hs rfl rfl rfl
  simp only [declarationTree, atAsyncFunction, Reads.bind_iff, Reads.atWord_iff, hword, hasync,
    Bool.false_eq_true, if_false, Reads.pure_iff, beq_self_eq_true, if_true]
  exact hname.reads_classTree hs

theorem isStatement_class :
    IsStatement false false false items (text "class " ++ (name ++ e)) where
  reads _ _ _ _ _ _ _ hs _ _ _ _ := hname.reads_statement_class hs

/-- The like for a name behind a point. -/
theorem reads_memberName {Q : Text → Source → Prop} (hs : s.rest = name ++ x)
    (h : ∀ w u, Stuck u → u.hasBreak = false → Q w u) : Reads false memberName s Q := by
  have hhash : s.rest.head? ≠ some '#' := by
    obtain ⟨hwordy, -, d, t, rfl, -⟩ := id hname
    simp only [List.all_cons, Bool.and_eq_true] at hwordy
    simp [hs, ne_of_isWordy hwordy.1 (show isWordy '#' = false by decide)]
  simp only [memberName, Reads.bind_iff, Reads.nextChar_iff, Reads.ite_iff, beq_iff_eq]
  refine ⟨fun heq => absurd heq hhash, fun _ => ?_⟩
  rcases hname.cases hs with hstuck | ⟨w, y, hw, hplain, hends, -, hy, hstuck⟩
  · rw [Reads.token_iff, hstuck.unnamed]
    exact ⟨by simp, fun _ => rfl⟩
  · apply reads_name hw hplain hends
    rw [Skips, hy]
    exact h w _ hstuck rfl

/-- No member of such a name is read in front of the end of a statement. -/
theorem reads_statement_exports {Q : Tree → Source → Prop}
    (hs : s.rest = text "exports." ++ (name ++ e) ++ x)
    (hfit : Suffices 2 rounds depth s.rest.length) :
    Reads false (statement (grammarWithin rounds depth) c) s Q := by
  have hs : s.rest = text "exports" ++ '.' :: (name ++ (e ++ x)) := by
    rw [hs]
    simp
    rfl
  have hhead : isHead (text "exports") = true := by decide
  have hrounds : 0 < (grammarWithin rounds depth).rounds := hfit.rounds_pos
  have hperiod : readPunctuator ('.' :: (name ++ (e ++ x))) = some (['.'], name ++ (e ++ x)) := by
    obtain ⟨hwordy, -, d, t, rfl, -⟩ := id hname
    simp only [List.all_cons, Bool.and_eq_true] at hwordy
    exact readPunctuator_period (ne_of_isWordy hwordy.1 (by decide)).symm
  have hsolid : isSolid (name ++ (e ++ x)) = true := by
    obtain ⟨hwordy, -, d, t, rfl, -⟩ := id hname
    simp only [List.all_cons, Bool.and_eq_true] at hwordy
    exact isSolid_of_isWordy hwordy.1
  have hbegins : s.beginsOperand = true := beginsOperand_of_isHead hs hhead rfl
  apply reads_statement hs rfl rfl
  have htree : Reads false (expressionStatement (grammarWithin rounds depth) c) s Q := by
    simp only [expressionStatement, Reads.bind_iff]
    apply reads_expression hrounds
    apply reads_assignmentWithin hfit
    intro d _ hfit
    obtain ⟨n, hn⟩ : ∃ n, (grammarWithin rounds d).rounds = n + 1 + 1 := by
      refine ⟨rounds - 2, ?_⟩
      have hlength := hfit.1
      rw [hs] at hlength
      change rounds = _
      simp at hlength
      omega
    apply reads_assignment_operand hfit.rounds_pos hbegins
    apply reads_operand_primary hfit.rounds_pos hbegins
    apply reads_primary_word hs hhead rfl
    apply skips_of_isSolid rfl
    rw [hn]
    simp only [suffixes, Reads.bind_iff, Reads.nextChar_iff, List.head?_cons]
    apply Reads.mark hperiod
    apply skips_of_isSolid hsolid
    apply hname.reads_memberName rfl
    intro w u hstuck hbreak
    -- The name falls apart, and behind its first part no statement can end.
    have hends := hstuck.endsExpression
    have hmark (m : Text) (hm : m ≠ []) : u.mark ≠ m := by
      rw [hstuck.mark]
      exact hm.symm
    apply reads_suffixes_end (Nat.succ_pos n)
      (endsAccess_of_endsOperand (endsOperand_of_endsExpression hends))
    refine ⟨endsOperand_of_endsExpression hends, hends, hmark [','] (List.cons_ne_nil _ _), ?_⟩
    have hkind : ((Tree.node (.member false) w [leaf (wordKind (text "exports"))
        (text "exports")]).kind == .identifier) = false := rfl
    simp only [hkind, Bool.false_and, Bool.false_eq_true, if_false, Reads.bind_iff]
    obtain ⟨d, y, hu, hd⟩ := hstuck.begins
    have hbrace : d ≠ '\x7d' := ne_of_isWordy hd (by decide)
    simp [semicolon, hmark [';'] (List.cons_ne_nil _ _), hbreak, hu, hbrace]
  have hword : s.word = text "exports" := Source.word_of_isPlainName hs rfl rfl
  have hlookup : (wordStatements (grammarWithin rounds depth) c).lookup (text "exports") = none := rfl
  have hvariables : text "exports" ≠ text "var" ∧ text "exports" ≠ text "const" ∧
      text "exports" ≠ text "let" ∧ text "exports" ≠ text "async" ∧
        text "exports" ≠ text "import" := by decide
  simpa [hlookup, atVariables, atLet, atAsyncFunction, atImport, hword, hvariables] using htree

theorem isStatement_exports :
    IsStatement false false false items (text "exports." ++ (name ++ e)) where
  reads _ _ _ _ _ _ _ hs _ _ _ hfit := hname.reads_statement_exports hs hfit

end IsStrange

/-! ## The names of classes -/

section Labels

variable {label : Text} {names : Names} {d e : Char}

/-- Whether a range of code points holds capitals of ASCII only, or characters that are neither ASCII
characters nor blanks. -/
def isWordyRange (first last : Int) : Bool :=
  decide (0x41 ≤ first ∧ last ≤ 0x5a) ||
    decide (0x80 ≤ first ∧ (last < 0xd800 ∨ 0xdfff < first ∧ last < 0x110000)) &&
      blanks.all fun d => decide ((d.toNat : Int) < first ∨ last < d.toNat)

/-- Every point of a range of words is a character of words, and not the letter of exponents. -/
theorem isWordy_of_isWordyRange {first last n : Int} (h : isWordyRange first last = true)
    (hfirst : first ≤ n) (hlast : n ≤ last) :
    isWordy (Char.ofNat n.toNat) = true ∧ Char.ofNat n.toNat ≠ 'e' := by
  simp only [isWordyRange, Bool.or_eq_true, Bool.and_eq_true, decide_eq_true_eq] at h
  rcases h with ⟨hlow, hhigh⟩ | ⟨⟨hlow, hvalid⟩, hblanks⟩
  · have hall : ∀ n < 0x5b, 0x41 ≤ n → isWordy (Char.ofNat n) = true ∧ Char.ofNat n ≠ 'e' := by
      decide +kernel
    exact hall n.toNat (by omega) (by omega)
  · have hchar : n.toNat.isValidChar := by
      rw [Nat.isValidChar]
      omega
    have hn : (Char.ofNat n.toNat).toNat = n.toNat := by
      rw [Char.ofNat, dif_pos hchar]
      rfl
    have hblank : isBlank (Char.ofNat n.toNat) = false := by
      rw [← Bool.not_eq_true]
      intro hblank
      have hd := List.all_eq_true.1 hblanks _ (mem_blanks_of_isBlank hblank)
      rw [hn, decide_eq_true_eq] at hd
      omega
    have hascii : decide (0x80 ≤ n.toNat) = true := decide_eq_true (by omega)
    constructor
    · simp [isWordy, hblank, hn, hascii]
    · intro heq
      have hcode : (Char.ofNat n.toNat).toNat = 0x65 := congrArg Char.toNat heq
      omega

/-- A letter or a digit is a character of words. -/
theorem isWordy_of_isAlphanumeric (h : Unicode.isAlphanumeric d = true) : isWordy d = true := by
  have hblank : isBlank d = false := isBlank_eq_false (by decide +kernel) h
  by_cases hlow : d.toNat < 0x80
  · have hall : ∀ n < 0x80, Unicode.isAlphanumeric (Char.ofNat n) = true →
        isNamePart (Char.ofNat n) = true := by decide +kernel
    have hpart := hall d.toNat hlow
    rw [Char.ofNat_toNat] at hpart
    simp [isWordy, hpart h]
  · simp [isWordy, hblank, Nat.le_of_not_lt hlow]

/-- The capitals of a letter or numeral are such characters, and none of them is a small one. -/
theorem isWordy_of_mem_upperChar (h : Unicode.isAlphanumeric d = true) (he : e ∈ Unicode.upperChar d) :
    isWordy e = true ∧ e ≠ 'e' := by
  unfold Unicode.upperChar at he
  split at he
  · next codes hcodes =>
    obtain ⟨l₁, l₂, hl, -⟩ := List.lookup_eq_some_iff.1 hcodes
    have hall : ∀ entry ∈ Unicode.upperExpansions, ∀ n ∈ entry.2,
        isWordy (Char.ofNat n) = true ∧ Char.ofNat n ≠ 'e' := by
      decide +kernel
    obtain ⟨n, hn, rfl⟩ := List.mem_map.1 he
    exact hall (d.toNat, codes) (by simp [hl]) n hn
  · obtain rfl := List.mem_singleton.1 he
    unfold Unicode.shiftChar
    split
    · next shift hshift =>
      obtain ⟨run, hrun, hs, hfirst, hlast⟩ := Unicode.exists_run_of_shiftOf hshift
      have hall : ∀ run ∈ Unicode.upperRuns,
          isWordyRange (run.1 + run.2.2.2) (run.2.1 + run.2.2.2) = true := by decide +kernel
      exact isWordy_of_isWordyRange (hall run hrun) (by omega) (by omega)
    · next hshift =>
      refine ⟨isWordy_of_isAlphanumeric h, ?_⟩
      rintro rfl
      exact absurd hshift (by decide +kernel)

theorem upperChar_ne_nil (d : Char) : Unicode.upperChar d ≠ [] := by
  unfold Unicode.upperChar
  split
  · next codes hcodes =>
    obtain ⟨l₁, l₂, hl, -⟩ := List.lookup_eq_some_iff.1 hcodes
    have hall : ∀ entry ∈ Unicode.upperExpansions, entry.2 ≠ [] := by decide
    simpa using hall (d.toNat, codes) (by simp [hl])
  · exact List.cons_ne_nil _ _

/-- A capitalized word consists of characters of words. -/
theorem isWordy_of_mem_capitalize {word : Text} (hword : ∀ d ∈ word, Unicode.isAlphanumeric d = true)
    (he : e ∈ Names.capitalize word) : isWordy e = true := by
  cases word with
  | nil => cases he
  | cons d word =>
      rcases List.mem_append.1 he with he | he
      · exact (isWordy_of_mem_upperChar (hword d (by simp)) he).1
      · exact isWordy_of_isAlphanumeric (hword e (by simp [he]))

theorem isWordy_of_mem_lead {words : List Text} (he : e ∈ Names.lead words) : isWordy e = true := by
  unfold Names.lead at he
  split at he
  · split at he
    · obtain rfl := List.mem_singleton.1 he
      decide
    · cases he
  · cases he

/-- What words are put together to. -/
theorem exists_pascalCase {words : List Text} {suffix : Text}
    (hmem : ∀ word ∈ words, word ≠ [] ∧ ∀ d ∈ word, Unicode.isAlphanumeric d = true)
    (hwords : words ≠ []) (hsuffix : suffix.all isWordy = true) :
    (Names.pascalCase words suffix).all isWordy = true ∧
      ∃ d t, Names.pascalCase words suffix = d :: t ∧ d ≠ 'e' := by
  obtain ⟨word, words, rfl⟩ := List.exists_cons_of_ne_nil hwords
  constructor
  · rw [List.all_eq_true]
    intro d hd
    simp only [Names.pascalCase, List.mem_append, List.mem_flatMap] at hd
    rcases hd with (hd | ⟨word', hword, hd⟩) | hd
    · exact isWordy_of_mem_lead hd
    · exact isWordy_of_mem_capitalize (hmem word' hword).2 hd
    · exact List.all_eq_true.1 hsuffix d hd
  · obtain ⟨hne, hletters⟩ := hmem word (by simp)
    obtain ⟨d, word, rfl⟩ := List.exists_cons_of_ne_nil hne
    obtain ⟨e, t, hupper⟩ := List.exists_cons_of_ne_nil (upperChar_ne_nil d)
    have he : e ≠ 'e' := (isWordy_of_mem_upperChar (hletters d (by simp)) (by simp [hupper])).2
    simp only [Names.pascalCase, Names.lead, List.flatMap_cons, Names.capitalize, hupper]
    split
    · exact ⟨'_', _, rfl, by decide⟩
    · exact ⟨e, _, rfl, he⟩

/-- The words of a label with names. -/
theorem exists_words (h : Names.ofLabel label = .ok names) :
    ∃ words, words = Label.words (Label.phrase label) ∧ words ≠ [] ∧ names = Names.ofWords words ∧
      ∀ word ∈ words, word ≠ [] ∧ ∀ d ∈ word, Unicode.isAlphanumeric d = true := by
  refine ⟨_, rfl, ?_, ?_, fun word hword => ⟨Label.ne_nil_of_mem_words hword, fun d hd =>
    Label.isAlphanumeric_of_mem_words hword hd⟩⟩
  · intro hnil
    simp [Names.ofLabel, hnil] at h
  · unfold Names.ofLabel at h
    split at h
    · cases h
    · exact (Except.ok.inj h).symm

/-- What the words of a label are put together to: no reserved word, since it ends like none. -/
theorem exists_className (h : Names.ofLabel label = .ok names) :
    names.className.all isWordy = true ∧ text "View" <:+ names.className ∧
      ∃ d t, names.className = d :: t ∧ d ≠ 'e' := by
  obtain ⟨words, -, hwords, rfl, hmem⟩ := exists_words h
  have hsuffix : (text "View").all isWordy = true := by decide
  obtain ⟨hwordy, hbegins⟩ := exists_pascalCase hmem hwords hsuffix
  exact ⟨hwordy, List.suffix_append _ _, hbegins⟩

/-- No word that has a meaning of its own ends like a class name. -/
theorem isVariable_of_suffix {suffix : Text} (hplain : isPlainName name = true)
    (hends : suffix = text "View" ∨ suffix = text "Controller") (hsuffix : suffix <:+ name) :
    isVariable name = true := by
  have hnone {words : List Text} (hwords : ∀ w ∈ words, ¬ suffix <:+ w) :
      words.contains name = false := by
    rw [← Bool.not_eq_true]
    intro hmem
    exact hwords name (List.contains_iff_mem.1 hmem) hsuffix
  have hreserved : ∀ w ∈ reservedWords, ¬ suffix <:+ w := by rcases hends with rfl | rfl <;> decide
  have hleading : ∀ w ∈ Source.leadingWords, ¬ suffix <:+ w := by
    rcases hends with rfl | rfl <;> decide
  have hconstants : ∀ w ∈ constants, ¬ suffix <:+ w := by rcases hends with rfl | rfl <;> decide
  simp [isVariable, isHead, hplain, -List.contains_eq_mem, hnone hreserved, hnone hleading,
    hnone hconstants]

/-- The class of a view is the name of a variable, or no name at all. -/
theorem isClassName_of_label (h : Names.ofLabel label = .ok names)
    (hplain : must = true → isPlainName names.className = true) : IsClassName must names.className := by
  obtain ⟨hwordy, hsuffix, hbegins⟩ := exists_className h
  cases hname : isPlainName names.className with
  | true => exact .inl (isVariable_of_suffix hname (.inl rfl) hsuffix)
  | false =>
      have hmust : must = false := by
        rw [← Bool.not_eq_true]
        intro hmust
        rw [hplain hmust] at hname
        cases hname
      exact .inr ⟨hmust, hwordy, hname, hbegins⟩

end Labels

end Script

end Viewloom
