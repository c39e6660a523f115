import Mathlib.Algebra.Order.Field.Rat
import Mathlib.Tactic.Ring
import Viewloom.Proofs.Script.Objects
import Viewloom.Script.Number

/-!
# Object literals on their own

What an object literal denotes whose keys are plain and whose values are single literals: its members
in order. The code is strict, so no octal digits stand in it, and a prototype is set once at most.

## Implementation notes

Numbers keep the exact values of their spellings, which an evaluation rounds. No gap holds a comment
here. The characters of a number are taken together and must be one number as a whole: what may follow a
number in an object literal goes on with none.
-/

namespace Viewloom.Script

open Template

/-! ## Reading -/

/-- What a literal denotes. -/
inductive Literal where
  | string (value : Text)
  | number (value : ℚ)

/-- A member of an object, with a literal for its value. -/
structure Member where
  key : Text
  value : Literal

/-- The number that digits and an exponent denote. -/
def Scaled.toRat (v : Scaled) : ℚ := v.digits * 10 ^ v.exponent

def skip (s : Text) : Text := s.dropWhile isBlank

def isQuote (c : Char) : Bool := c == '"' || c == '\''

/-- Reads a string without octal escapes; gives its value. -/
def readStrictString : Text → Option (Text × Text)
  | [] => none
  | quote :: s =>
    match readQuoted quote s with
    | some (source, rest) =>
      if isSoundChunk source then (unescape source).map fun value => (value, rest) else none
    | none => none

/-- Whether a digit follows a leading zero, which strict code has no meaning for. -/
def isZeroLed : Text → Bool
  | '0' :: c :: _ => c.isDigit
  | _ => false

/-- Whether a text is a number as a whole. A comma stands for what ends it. -/
def isStrictNumber (spelling : Text) : Bool :=
  !isZeroLed spelling && decide (readNumber (spelling ++ [',']) = some (spelling, [',']))

def readStrictNumber (s : Text) : Option (Text × Text) :=
  if isStrictNumber (s.takeWhile isNumberPart) then
    some (s.takeWhile isNumberPart, s.dropWhile isNumberPart)
  else none

/-- Whether a number is one without limits, by its last letter. -/
def isBig (spelling : Text) : Bool := spelling.getLast? == some 'n'

/-- The name of the property that a number is the key of. -/
def numberName (spelling : Text) : Text :=
  if isBig spelling then Decimal.digitsOf (numberValue spelling.dropLast).digits
  else
    match (numberValue spelling).nearest with
    | some b => b.toText
    | none => text "Infinity"

/-- Reads a plain key; gives the name of its property. -/
def readKey : Text → Option (Text × Text)
  | [] => none
  | c :: s =>
    if isQuote c then readStrictString (c :: s)
    else if isNumeralPart c then
      (readStrictNumber (c :: s)).map fun (spelling, rest) => (numberName spelling, rest)
    else (readName (c :: s)).map fun (name, rest) => (name.word, rest)

/-- Reads a string or a number. -/
def readLiteral : Text → Option (Literal × Text)
  | [] => none
  | c :: s =>
    if isQuote c then
      (readStrictString (c :: s)).map fun (value, rest) => (.string value, rest)
    else if isNumeralPart c then
      match readStrictNumber (c :: s) with
      | some (spelling, rest) =>
        if isBig spelling then none else some (.number (numberValue spelling).toRat, rest)
      | none => none
    else none

/-- Reads a key, a colon and a literal. -/
def readMember (s : Text) : Option (Member × Text) :=
  match readKey s with
  | some (key, rest) =>
    match skip rest with
    | ':' :: rest => (readLiteral (skip rest)).map fun (value, rest) => (⟨key, value⟩, rest)
    | _ => none
  | none => none

/-- Reads members up to the brace at the end, in so many rounds. A comma may stand behind the last. -/
def readMembers : Nat → Text → Option (List Member)
  | 0, _ => none
  | rounds + 1, s =>
    match skip s with
    | ['\x7d'] => some []
    | s =>
      match readMember s with
      | some (member, rest) =>
        match skip rest with
        | ',' :: rest => (readMembers rounds rest).map (member :: ·)
        | ['\x7d'] => some [member]
        | _ => none
      | none => none

/-- The key that sets the prototype of an object. -/
def prototypeKey : Text := text "__proto__"

/-- The members of an object literal, in order. -/
def readObject : Text → Option (List Member)
  | '\x7b' :: s =>
    match readMembers (s.length + 1) s with
    | some members =>
      if (members.map Member.key).count prototypeKey ≤ 1 then some members else none
    | none => none
  | _ => none

/-! ## Strings -/

/-- A spelling is no shorter than what it stands for, and a colon in it stands for itself. -/
def Spells (spelling value : Text) : Prop :=
  value.length ≤ spelling.length ∧ (':' ∈ spelling → ':' ∈ value)

namespace Spells

variable {s t v w : Text}

/-- Every text spells itself. -/
theorem refl (s : Text) : Spells s s := ⟨Nat.le_refl _, id⟩

theorem trans (h : Spells s t) (h' : Spells t v) : Spells s v :=
  ⟨Nat.le_trans h'.1 h.1, fun hs => h'.2 (h.2 hs)⟩

theorem append (h : Spells s v) (h' : Spells t w) : Spells (s ++ t) (v ++ w) := by
  refine ⟨?_, fun hcolon => ?_⟩
  · have hlength := Nat.add_le_add h.1 h'.1
    simpa only [List.length_append] using hlength
  · rw [List.mem_append] at hcolon ⊢
    exact hcolon.imp h.2 h'.2

theorem of_not_mem (hlength : v.length ≤ s.length) (hcolon : ':' ∉ s) : Spells s v :=
  ⟨hlength, fun h => absurd h hcolon⟩

end Spells

/-- The value of a hexadecimal digit is below sixteen, and no colon is one. -/
theorem hexValue?_lt {c : Char} {digit : Nat} (h : hexValue? c = some digit) :
    digit < 16 ∧ c ≠ ':' := by
  have hcolon : c ≠ ':' := by
    rintro rfl
    cases h
  refine ⟨?_, hcolon⟩
  unfold hexValue? at h
  simp only [Char.le_def, UInt32.le_iff_toNat_le] at h
  change (if 48 ≤ c.toNat ∧ c.toNat ≤ 57 then some (c.toNat - 48)
    else if 97 ≤ c.toNat ∧ c.toNat ≤ 102 then some (c.toNat - 87)
    else if 65 ≤ c.toNat ∧ c.toNat ≤ 70 then some (c.toNat - 55) else none) = some digit at h
  split at h
  · cases h
    omega
  split at h
  · cases h
    omega
  split at h
  · cases h
    omega
  · cases h

/-- The bound of a value that another hexadecimal digit is added to. -/
theorem hexBound_succ {value digit n bound : Nat} (hdigit : digit < 16)
    (h : n < (16 * value + digit + 1) * bound) : n < (value + 1) * (bound * 16) :=
  calc
    n < (16 * value + digit + 1) * bound := h
    _ ≤ (16 * (value + 1)) * bound := Nat.mul_le_mul_right _ (by omega)
    _ = (value + 1) * (bound * 16) := by ring

/-- Hexadecimal digits hold no colon and bound the number that they spell. -/
theorem exists_of_hexDigits {count value n : Nat} {s rest : Text}
    (h : hexDigits count value s = some (n, rest)) :
    ∃ digits, s = digits ++ rest ∧ digits.length = count ∧ ':' ∉ digits ∧
      n < (value + 1) * 16 ^ digits.length := by
  induction count generalizing value s with
  | zero =>
      simp only [hexDigits, Option.some.injEq, Prod.mk.injEq] at h
      obtain ⟨rfl, rfl⟩ := h
      exact ⟨[], rfl, rfl, by simp, by simp⟩
  | succ count ih =>
      cases s with
      | nil => cases h
      | cons c s =>
          simp only [hexDigits] at h
          split at h
          · next digit hdigit =>
            obtain ⟨hlt, hcolon⟩ := hexValue?_lt hdigit
            obtain ⟨digits, rfl, rfl, hnot, hbound⟩ := ih h
            refine ⟨c :: digits, rfl, rfl, by simp [hcolon.symm, hnot], ?_⟩
            rw [List.length_cons, pow_succ]
            exact hexBound_succ hlt hbound
          · cases h

/-- Digits in front of a closing brace hold no colon and bound the number that they spell. -/
theorem exists_of_bracedDigits {value n : Nat} {some? : Bool} {s rest : Text}
    (h : bracedDigits value some? s = some (n, rest)) :
    ∃ digits, s = digits ++ '\x7d' :: rest ∧ ':' ∉ digits ∧
      n < (value + 1) * 16 ^ digits.length := by
  induction s generalizing value some? with
  | nil => cases h
  | cons c s ih =>
      simp only [bracedDigits] at h
      split at h
      · next hc =>
        split at h
        · cases h
          exact ⟨[], by rw [hc]; rfl, by simp, by simp⟩
        · cases h
      split at h
      · next digit hdigit =>
        split at h
        · obtain ⟨hlt, hcolon⟩ := hexValue?_lt hdigit
          obtain ⟨digits, rfl, hnot, hbound⟩ := ih h
          refine ⟨c :: digits, rfl, by simp [hcolon.symm, hnot], ?_⟩
          rw [List.length_cons, pow_succ]
          exact hexBound_succ hlt hbound
        · cases h
      · cases h

/-- A code point takes some text without a colon and is bounded by it. -/
theorem exists_of_codePoint {n : Nat} {s rest : Text} (h : codePoint s = some (n, rest)) :
    ∃ taken, s = taken ++ rest ∧ taken ≠ [] ∧ ':' ∉ taken ∧ n < 16 ^ taken.length := by
  unfold codePoint at h
  split at h
  · next s =>
    obtain ⟨digits, rfl, hnot, hbound⟩ := exists_of_bracedDigits h
    refine ⟨'\x7b' :: digits ++ ['\x7d'], by simp, by simp, by simp [hnot], ?_⟩
    rw [Nat.zero_add, Nat.one_mul] at hbound
    exact Nat.lt_of_lt_of_le hbound (Nat.pow_le_pow_right (by decide) (by simp; omega))
  · obtain ⟨digits, rfl, hlength, hnot, hbound⟩ := exists_of_hexDigits h
    rw [Nat.zero_add, Nat.one_mul] at hbound
    exact ⟨digits, rfl, List.ne_nil_of_length_eq_add_one hlength, hnot, hbound⟩

/-- Half of a pair is written with a mark, and with no more digits than its spelling has. -/
theorem length_decoded_le {n k : Nat} (hk : 0 < k) (h : n < 16 ^ k) :
    (decoded n).length ≤ k + 1 := by
  unfold decoded
  split
  · have hdigits := (Nat.length_toDigits_le_iff (b := 16) (by decide) hk).2 h
    simpa using hdigits
  · simp

/-- The characters of a code point are at most one more than the text that spells it. -/
theorem exists_of_readCodePoint {s value rest : Text} (h : readCodePoint s = some (value, rest)) :
    ∃ taken, s = taken ++ rest ∧ ':' ∉ taken ∧ value.length ≤ taken.length + 1 := by
  unfold readCodePoint at h
  split at h
  · cases h
  · next n t hcode =>
    obtain ⟨taken, rfl, hne, hnot, hbound⟩ := exists_of_codePoint hcode
    have hpos : 0 < taken.length := List.length_pos_iff.2 hne
    have hone : some (decoded n, t) = some (value, rest) → ∃ found, taken ++ t = found ++ rest ∧
        ':' ∉ found ∧ value.length ≤ found.length + 1 := by
      intro heq
      cases heq
      exact ⟨taken, rfl, hnot, length_decoded_le hpos hbound⟩
    split at h
    · split at h
      · next after =>
        split at h
        · next low after' hlow =>
          obtain ⟨second, rfl, -, hnot', -⟩ := exists_of_codePoint hlow
          split at h
          · cases h
            exact ⟨taken ++ ('\\' :: 'u' :: second), by simp, by simp [hnot, hnot'], by simp⟩
          · exact hone h
        · cases h
      · exact hone h
    · exact hone h

/-- The value of an octal digit is below eight, and no colon is one. -/
theorem isOctalDigit_lt {c : Char} (h : isOctalDigit c = true) : c.toNat - 48 < 8 ∧ c ≠ ':' := by
  have hcolon : c ≠ ':' := by
    rintro rfl
    exact absurd h (by decide)
  simp only [isOctalDigit, Bool.and_eq_true, decide_eq_true_eq, Char.le_def,
    UInt32.le_iff_toNat_le] at h
  have hhigh : c.toNat ≤ 55 := h.2
  exact ⟨by omega, hcolon⟩

/-- An octal escape takes some text without a colon. -/
theorem exists_of_octalEscape {c : Char} {s : Text} (hc : isOctalDigit c = true) :
    ∃ taken, c :: s = taken ++ (octalEscape (c :: s)).2 ∧ taken ≠ [] ∧ ':' ∉ taken := by
  have hoctal {d : Char} {t : Text} (h : d ∈ t.takeWhile isOctalDigit) : d ≠ ':' :=
    (isOctalDigit_lt (List.all_eq_true.1 List.all_takeWhile d h)).2
  unfold octalEscape
  dsimp only
  generalize hdigits : ((c :: s).takeWhile isOctalDigit).take 3 = digits
  have hprefix : digits <+: c :: s := by
    rw [← hdigits]
    exact (List.take_prefix _ _).trans (List.takeWhile_prefix _)
  have hnot : ':' ∉ digits := by
    rw [← hdigits]
    exact fun h => hoctal (List.mem_of_mem_take h) rfl
  have hcons : ∃ more, digits = c :: more := by
    rw [← hdigits, List.takeWhile_cons_of_pos hc, List.take_succ_cons]
    exact ⟨_, rfl⟩
  obtain ⟨more, rfl⟩ := hcons
  obtain ⟨rest, hrest⟩ := hprefix
  split
  · exact ⟨c :: more, by rw [← hrest, List.drop_left], by simp, hnot⟩
  · next hlarge =>
    -- A single digit is small, so there is a second one.
    cases more with
    | nil =>
        have hsmall := (isOctalDigit_lt hc).1
        simp at hlarge
        omega
    | cons d more =>
        have hmore : c :: d :: more = [c, d] ++ more := rfl
        rw [hmore, List.mem_append, not_or] at hnot
        exact ⟨[c, d], by rw [← hrest]; rfl, by simp, hnot.1⟩

/-- An escape spells its value. -/
theorem exists_of_readEscape {s value rest : Text} (h : readEscape s = some (value, rest)) :
    ∃ taken, s = taken ++ rest ∧ Spells taken value := by
  unfold readEscape at h
  split at h
  · cases h
  · next s =>
    obtain ⟨⟨n, t⟩, hdigits, heq⟩ := Option.map_eq_some_iff.1 h
    cases heq
    obtain ⟨digits, rfl, -, hnot, -⟩ := exists_of_hexDigits hdigits
    exact ⟨'x' :: digits, rfl, .of_not_mem (by simp) (by simp [hnot])⟩
  · next s =>
    obtain ⟨taken, rfl, hnot, hlength⟩ := exists_of_readCodePoint h
    exact ⟨'u' :: taken, rfl, .of_not_mem (by simpa using hlength) (by simp [hnot])⟩
  · next c s _ _ =>
    split at h
    · next hline =>
      cases h
      refine ⟨[c], rfl, .of_not_mem (by simp) ?_⟩
      rw [List.mem_singleton]
      rintro rfl
      exact absurd hline (by decide)
    split at h
    · next hoctal =>
      cases h
      obtain ⟨taken, heq, hne, hnot⟩ := exists_of_octalEscape (s := s) hoctal
      exact ⟨taken, heq, .of_not_mem (List.length_pos_iff.2 hne) hnot⟩
    split at h
    · next n hsimple =>
      cases h
      refine ⟨[c], rfl, .of_not_mem (by simp) ?_⟩
      rw [List.mem_singleton]
      rintro rfl
      cases hsimple
    · cases h
      exact ⟨[c], rfl, .refl _⟩

/-- A text with escapes spells its value. -/
theorem spells_of_unescapeWithin {rounds : Nat} {source value : Text}
    (h : unescapeWithin rounds source = some value) : Spells source value := by
  fun_induction unescapeWithin rounds source generalizing value with
  | case1 => cases h
  | case2 =>
      cases h
      exact .refl []
  | case3 rounds s value' rest hescape ih =>
      obtain ⟨more, hmore, rfl⟩ := Option.map_eq_some_iff.1 h
      obtain ⟨taken, rfl, hspells⟩ := exists_of_readEscape hescape
      have hcons : Spells ('\\' :: taken) value' :=
        ⟨Nat.le_succ_of_le hspells.1, fun hcolon => hspells.2 (by simpa using hcolon)⟩
      exact hcons.append (ih hmore)
  | case4 => cases h
  | case5 rounds c s _ ih =>
      obtain ⟨more, hmore, rfl⟩ := Option.map_eq_some_iff.1 h
      exact (Spells.refl [c]).append (ih hmore)

/-- What is read off in front of the rest of a string goes in front of its spelling. -/
theorem exists_of_map_readQuoted {quote : Char} {taken made s source rest : Text}
    (hmade : Spells taken made)
    (ih : ∀ {source : Text}, readQuoted quote s = some (source, rest) →
      ∃ spelling, s = spelling ++ quote :: rest ∧ Spells spelling source)
    (h : (readQuoted quote s).map (fun (source, rest) => (made ++ source, rest)) =
      some (source, rest)) :
    ∃ spelling, taken ++ s = spelling ++ quote :: rest ∧ Spells spelling source := by
  obtain ⟨⟨more, t⟩, hread, heq⟩ := Option.map_eq_some_iff.1 h
  cases heq
  obtain ⟨spelling, rfl, hspells⟩ := ih hread
  exact ⟨taken ++ spelling, (List.append_assoc ..).symm, hmade.append hspells⟩

/-- What is read between quotes is spelled by what stands there. -/
theorem exists_of_readQuoted {quote : Char} {s source rest : Text}
    (h : readQuoted quote s = some (source, rest)) :
    ∃ spelling, s = spelling ++ quote :: rest ∧ Spells spelling source := by
  fun_induction readQuoted quote s generalizing source with
  | case1 => cases h
  | case2 s ih =>
      have hline : Spells ['\\', '\r', '\n'] ['\\', '\n'] := .of_not_mem (by simp) (by decide)
      exact exists_of_map_readQuoted hline ih h
  | case3 c s _ ih => exact exists_of_map_readQuoted (Spells.refl ['\\', c]) ih h
  | case4 s _ _ =>
      cases h
      exact ⟨[], rfl, .refl _⟩
  | case5 => cases h
  | case6 c s _ _ _ _ ih => exact exists_of_map_readQuoted (Spells.refl [c]) ih h

/-- A string that is read is spelled between its quotes. -/
theorem exists_of_readStrictString {quote : Char} {s value rest : Text}
    (h : readStrictString (quote :: s) = some (value, rest)) :
    ∃ spelling, s = spelling ++ quote :: rest ∧ Spells spelling value := by
  rw [readStrictString] at h
  split at h
  · next source t hread =>
    split at h
    · obtain ⟨found, hvalue, heq⟩ := Option.map_eq_some_iff.1 h
      cases heq
      obtain ⟨spelling, rfl, hspells⟩ := exists_of_readQuoted hread
      exact ⟨spelling, rfl, hspells.trans (spells_of_unescapeWithin hvalue)⟩
    · cases h
  · cases h

theorem isSoundChunk_quotedChar (c : Char) (s : Text) :
    isSoundChunk (quotedChar c ++ s) = isSoundChunk s := by
  unfold quotedChar
  split
  · rfl
  · next hslash =>
    split_ifs
    · rfl
    · rfl
    · rfl
    · rfl
    · rfl
    · rw [List.singleton_append, isSoundChunk]
      rintro d t rfl
      exact absurd rfl hslash

/-- A quoted text is read to its end whatever is quoted. -/
theorem isSoundChunk_flatMap (s : Text) : isSoundChunk (s.flatMap quotedChar) = true := by
  induction s with
  | nil => rfl
  | cons c s ih => rw [List.flatMap_cons, isSoundChunk_quotedChar, ih]

/-- A quoted text is read as what is quoted. -/
theorem readStrictString_quoted (v x : Text) :
    readStrictString (quoted v ++ x) = some (v, x) := by
  have hlength := length_le_length_flatMap_quotedChar v
  have happend : quoted v ++ x = '\'' :: (v.flatMap quotedChar ++ '\'' :: x) := by simp [quoted]
  rw [happend, readStrictString, readQuoted_flatMap]
  simp only [isSoundChunk_flatMap, if_true, unescape]
  rw [unescapeWithin_flatMap (by omega)]
  rfl

/-! ## Names -/

/-- Whether a word begins with an allowed character, if any, and goes on with parts of names. -/
def isWordFrom (allowed : Char → Bool) : Text → Bool
  | [] => true
  | c :: w => allowed c && w.all isNamePart

theorem isWordFrom_isNamePart (w : Text) : isWordFrom isNamePart w = w.all isNamePart := by
  cases w <;> rfl

theorem isWordFrom_nameParts (allowed : Char → Bool) (rounds : Nat) (s : Text) :
    isWordFrom allowed (nameParts allowed rounds s).1 = true := by
  fun_induction nameParts allowed rounds s with
  | case1 => rfl
  | case2 => rfl
  | case3 _ _ _ _ _ _ hc name _ _ hparts ih =>
      rw [hparts, isWordFrom_isNamePart] at ih
      simp [isWordFrom, hc, ih]
  | case4 => rfl
  | case5 => rfl
  | case6 _ _ _ _ _ hc name _ _ hparts ih =>
      rw [hparts, isWordFrom_isNamePart] at ih
      simp [isWordFrom, hc, ih]
  | case7 => rfl

/-- The word of a name is a name without escapes, however it is spelled. -/
theorem isPlainName_of_readName {s rest : Text} {name : Name}
    (h : readName s = some (name, rest)) : isPlainName name.word = true := by
  unfold readName at h
  split at h
  · cases h
  · next c s =>
    have hword := isWordFrom_nameParts isNameStart ((c :: s).length + 1) (c :: s)
    split at h
    · split at h
      · cases h
      · next word escaped rest' hne heq =>
        cases h
        rw [heq] at hword
        cases word with
        | nil => exact (hne rfl).elim
        | cons d w => exact hword
    · cases h

/-! ## Names of numbers -/

theorem all_isNumberPart_digitsOf (n : Nat) : (Decimal.digitsOf n).all isNumberPart = true :=
  List.all_eq_true.2 fun _ hc =>
    isNumberPart_of_isDigit (Nat.isDigit_of_mem_toDigits (by decide) (by decide) hc)

theorem all_isNumberPart_zeros (n : Nat) : (Decimal.zeros n).all isNumberPart = true :=
  List.all_eq_true.2 fun _ hc => by
    rw [List.eq_of_mem_replicate hc]
    decide

/-- The search for the shortest digits finds parts of a number. -/
theorem all_isNumberPart_search (i : Decimal.Interval) (point : Int) (rounds digits : Nat) :
    (Decimal.search i point rounds digits).digits.all isNumberPart = true := by
  induction rounds generalizing digits with
  | zero => rfl
  | succ rounds ih =>
      simp only [Decimal.search]
      split
      · next n _ =>
        refine List.all_eq_true.2 fun c hc => ?_
        refine List.all_eq_true.1 (all_isNumberPart_digitsOf n) c ?_
        have hreverse := (List.dropWhile_sublist _).mem (List.mem_reverse.1 hc)
        exact List.mem_reverse.1 hreverse
      · exact ih _

theorem all_isNumberPart_withPoint {digits : Text} (whole : Nat)
    (h : digits.all isNumberPart = true) :
    (Decimal.withPoint whole digits).all isNumberPart = true := by
  have hsplit : (digits.take whole ++ digits.drop whole).all isNumberPart = true := by
    rwa [List.take_append_drop]
  rw [List.all_append, Bool.and_eq_true] at hsplit
  rw [Decimal.withPoint, List.all_append, List.all_cons, hsplit.1, hsplit.2]
  decide

/-- A decimal is written with parts of a number. -/
theorem all_isNumberPart_decimal {d : Decimal} (h : d.digits.all isNumberPart = true) :
    d.toText.all isNumberPart = true := by
  have hmantissa : (if d.digits.length ≤ 1 then d.digits else Decimal.withPoint 1 d.digits).all
      isNumberPart = true := by
    split
    · exact h
    · exact all_isNumberPart_withPoint 1 h
  have hplus : (text "e+").all isNumberPart = true := by decide
  have hminus : (text "e-").all isNumberPart = true := by decide
  have hzero : (text "0.").all isNumberPart = true := by decide
  unfold Decimal.toText
  dsimp only
  generalize (if d.digits.length ≤ 1 then d.digits else Decimal.withPoint 1 d.digits) = mantissa at *
  split_ifs
  · rw [List.all_append, h, all_isNumberPart_zeros]
    rfl
  · exact all_isNumberPart_withPoint _ h
  · rw [List.all_append, List.all_append, hzero, all_isNumberPart_zeros, h]
    rfl
  · rw [List.all_append, List.all_append, hmantissa, hplus, all_isNumberPart_digitsOf]
    rfl
  · rw [List.all_append, List.all_append, hmantissa, hminus, all_isNumberPart_digitsOf]
    rfl

/-- A binary number is written with parts of a number. -/
theorem all_isNumberPart_toText (b : Binary) : b.toText.all isNumberPart = true := by
  unfold Binary.toText
  split
  · decide
  · exact all_isNumberPart_decimal (all_isNumberPart_search _ _ _ _)

/-- The name that a numeral stands for is written with parts of a number. -/
theorem all_isNumberPart_numberName (spelling : Text) :
    (numberName spelling).all isNumberPart = true := by
  unfold numberName
  split
  · exact all_isNumberPart_digitsOf _
  · split
    · exact all_isNumberPart_toText _
    · decide

/-! ## Numbers -/

/-- A number in strict form is written with parts of a number. -/
theorem all_isNumberPart_of_isStrictNumber {v : Text} (h : isStrictNumber v = true) :
    v.all isNumberPart = true := by
  simp only [isStrictNumber, Bool.and_eq_true, decide_eq_true_eq] at h
  obtain ⟨⟨digits, heq, hall⟩, -⟩ := pastNumber_readNumber h.2
  rwa [List.append_cancel_right heq]

theorem takeWhile_isNumberPart {v x : Text} (hv : v.all isNumberPart = true)
    (hx : x.head?.all (fun c => !isNumberPart c) = true) :
    (v ++ x).takeWhile isNumberPart = v ∧ (v ++ x).dropWhile isNumberPart = x := by
  rw [List.takeWhile_append_of_pos (List.all_eq_true.1 hv),
    List.dropWhile_append_of_pos (List.all_eq_true.1 hv)]
  cases x with
  | nil => simp
  | cons c x =>
      have hc : isNumberPart c = false := by simpa using hx
      simp [hc]

/-- What is made of parts of a number is read as a number exactly if it is one in strict form. -/
theorem readStrictNumber_append {v x : Text} (hv : v.all isNumberPart = true)
    (hx : x.head?.all (fun c => !isNumberPart c) = true) :
    readStrictNumber (v ++ x) = if isStrictNumber v then some (v, x) else none := by
  obtain ⟨htake, hdrop⟩ := takeWhile_isNumberPart hv hx
  rw [readStrictNumber, htake, hdrop]

theorem isOctalPointed_of_isZeroLed {v : Text} (h : isZeroLed v = false) :
    isOctalPointed v = false := by
  rw [← Bool.not_eq_true]
  intro hoctal
  obtain ⟨d, s, rfl, hd, -⟩ := exists_cons_of_isOctalPointed hoctal
  rw [isZeroLed, hd] at h
  cases h

/-- A numeral is a number in strict form exactly if no zero leads it. -/
theorem isStrictNumber_numeral {v : Text} (hv : isNumeral v = true) :
    isStrictNumber v = !isZeroLed v := by
  cases hzero : isZeroLed v with
  | true => simp [isStrictNumber, hzero]
  | false =>
      have hread : readNumber (v ++ [',']) = some (v, [',']) :=
        readNumber_numeral hv (isOctalPointed_of_isZeroLed hzero) (by decide) (by decide)
      simp [isStrictNumber, hzero, hread]

/-- What is read in front of a character that is no digit is nothing, or begins with a low line. -/
theorem readDigits_of_not_isDigit {c : Char} (hc : c.isDigit = false) (s : Text) :
    ∃ digits rest, readDigits Char.isDigit (c :: s) = (digits, rest) ∧ digits.head?.all (· == '_') := by
  simp only [readDigits, hc, if_false, Bool.false_eq_true]
  split
  · next hlow =>
    subst hlow
    split
    · split
      · exact ⟨_, _, rfl, rfl⟩
      · exact ⟨_, _, rfl, rfl⟩
    · exact ⟨_, _, rfl, rfl⟩
  · exact ⟨_, _, rfl, rfl⟩

/-- What is read as a whole number begins with a digit. -/
theorem isDigit_of_readWhole {c : Char} {s : Text} {found : Text × Text}
    (h : readWhole Char.isDigit (c :: s) = some found) : c.isDigit = true := by
  rw [← Bool.not_eq_false]
  intro hc
  obtain ⟨digits, rest, hread, hhead⟩ := readDigits_of_not_isDigit hc s
  rw [readWhole, hread] at h
  cases digits with
  | nil => cases h
  | cons d digits =>
      obtain rfl : d = '_' := by simpa using hhead
      cases h

/-- A number begins with a digit or a point. -/
theorem isNumeralPart_of_readNumber {c : Char} {s x spelling : Text}
    (h : readNumber (c :: s) = some (spelling, x)) : isNumeralPart c = true := by
  have hunbounded : ∃ y, readUnbounded (c :: s) = some (spelling, y) := by
    unfold readNumber at h
    split at h
    · next heq =>
      split at h
      · cases h
      · cases h
        exact ⟨_, heq⟩
    · exact ⟨_, h⟩
  obtain ⟨y, hread⟩ := hunbounded
  have hdigit (hc : c.isDigit = true) : isNumeralPart c = true := by simp [isNumeralPart, hc]
  unfold readUnbounded at hread
  split at hread
  · next heq =>
    cases heq
    rfl
  · next heq =>
    cases heq
    rfl
  · split at hread
    · next hwhole => exact hdigit (isDigit_of_readWhole hwhole)
    · next hwhole => exact hdigit (isDigit_of_readWhole hwhole)
    · cases hread

/-! ## Keys -/

/-- Whether a number is the name of the property that it is the key of. -/
def isNumberName (key : Text) : Bool := isStrictNumber key && numberName key == key

/-- Whether a key denotes itself without quotes. -/
def isBareKey (key : Text) : Bool := isPlainName key || isNumberName key

/-- A class of characters without quotes holds none. -/
theorem isQuote_eq_false {p : Char → Bool} (hdouble : p '"' = false) (hsingle : p '\'' = false)
    {c : Char} (h : p c = true) : isQuote c = false := by
  simp only [isQuote, Bool.or_eq_false_iff, beq_eq_false_iff_ne]
  constructor
  · rintro rfl
    rw [h] at hdouble
    cases hdouble
  · rintro rfl
    rw [h] at hsingle
    cases hsingle

theorem isQuote_of_isNumeralPart {c : Char} (h : isNumeralPart c = true) : isQuote c = false :=
  isQuote_eq_false (by decide) (by decide) h

theorem isQuote_of_isNameStart {c : Char} (h : isNameStart c = true) : isQuote c = false :=
  isQuote_eq_false (by decide) (by decide) h

/-- A strict number begins like one. -/
theorem exists_cons_of_isStrictNumber {v : Text} (h : isStrictNumber v = true) :
    ∃ c w, v = c :: w ∧ isNumeralPart c = true := by
  cases v with
  | nil => exact absurd h (by decide)
  | cons c w =>
      simp only [isStrictNumber, Bool.and_eq_true, decide_eq_true_eq] at h
      exact ⟨c, w, rfl, isNumeralPart_of_readNumber h.2⟩

/-- A plain name in front of a colon is read as a key. -/
theorem readKey_of_isPlainName {k : Text} (h : isPlainName k = true) (x : Text) :
    readKey (k ++ ':' :: x) = some (k, ':' :: x) := by
  have hread := readName_append (x := ':' :: x) h rfl
  cases k with
  | nil => cases h
  | cons c w =>
      simp only [isPlainName, Bool.and_eq_true] at h
      have hnumeral : isNumeralPart c = false := by
        rw [← Bool.not_eq_true]
        intro hnumeral
        rw [(ne_of_isNumeralPart hnumeral).2.1] at h
        cases h.1
      rw [List.cons_append] at hread ⊢
      simp [readKey, isQuote_of_isNameStart h.1, hnumeral, hread]

/-- A numeral that is its own name is read as a key. -/
theorem readKey_of_isNumberName {k : Text} (h : isNumberName k = true) (x : Text) :
    readKey (k ++ ':' :: x) = some (k, ':' :: x) := by
  simp only [isNumberName, Bool.and_eq_true, beq_iff_eq] at h
  obtain ⟨hstrict, hname⟩ := h
  have hread : readStrictNumber (k ++ ':' :: x) = some (k, ':' :: x) := by
    rw [readStrictNumber_append (all_isNumberPart_of_isStrictNumber hstrict) rfl,
      if_pos hstrict]
  obtain ⟨c, w, rfl, hc⟩ := exists_cons_of_isStrictNumber hstrict
  rw [List.cons_append] at hread ⊢
  simp [readKey, isQuote_of_isNumeralPart hc, hc, hread, hname]

/-- A bare key in front of a colon is read as it is. -/
theorem readKey_of_isBareKey {k : Text} (h : isBareKey k = true) (x : Text) :
    readKey (k ++ ':' :: x) = some (k, ':' :: x) := by
  rw [isBareKey, Bool.or_eq_true] at h
  exact h.elim (readKey_of_isPlainName · x) (readKey_of_isNumberName · x)

/-- A quoted key is read as what is quoted. -/
theorem readKey_quoted (v x : Text) : readKey (quoted v ++ x) = some (v, x) :=
  readStrictString_quoted v x

/-- No string that begins in a text without colons denotes it: one that ends in it is too short, and
one that does not holds the colon behind it. -/
theorem readStrictString_ne {k k' x rest : Text} {quote : Char} (hcolon : ':' ∉ k)
    (hk : quote :: k' <:+ k) :
    readStrictString (quote :: (k' ++ ':' :: x)) ≠ some (k, rest) := by
  intro h
  obtain ⟨spelling, heq, hlength, hmem⟩ := exists_of_readStrictString h
  rcases List.append_eq_append_iff.1 heq with ⟨more, rfl, hmore⟩ | ⟨more, rfl, -⟩
  · cases more with
    | nil =>
        simp only [List.nil_append, List.cons.injEq] at hmore
        have hle := hk.length_le
        simp at hlength hle
        omega
    | cons d more =>
        rw [List.cons_append, List.cons.injEq] at hmore
        exact hcolon (hmem (by simp [← hmore.1]))
  · have hle := hk.length_le
    simp at hle
    omega

theorem skip_cons {c : Char} {s : Text} (hc : isBlank c = false) : skip (c :: s) = c :: s :=
  List.dropWhile_cons_of_neg (by simp [hc])

theorem skip_bareKey {k : Text} (h : isBareKey k = true) (x : Text) : skip (k ++ x) = k ++ x := by
  simp only [isBareKey, isNumberName, Bool.or_eq_true, Bool.and_eq_true] at h
  rcases h with h | h
  · cases k with
    | nil => cases h
    | cons c w =>
        simp only [isPlainName, Bool.and_eq_true] at h
        exact skip_cons (isBlank_of_isNameStart h.1)
  · obtain ⟨c, w, rfl, hc⟩ := exists_cons_of_isStrictNumber h.1
    exact skip_cons (isBlank_of_isNumberPart (isNumberPart_of_isNumeralPart hc))

/-- The name of a number has no blanks. -/
theorem skip_numberName (spelling : Text) : skip (numberName spelling) = numberName spelling := by
  have hall := all_isNumberPart_numberName spelling
  cases hname : numberName spelling with
  | nil => rfl
  | cons c s =>
      rw [hname, List.all_cons, Bool.and_eq_true] at hall
      exact skip_cons (isBlank_of_isNumberPart hall.1)

/-- A key without a colon that is read as itself is a name or a number. -/
theorem isBareKey_of_readKey {k x rest : Text} (hcolon : ':' ∉ k)
    (h : readKey (skip (k ++ ':' :: x)) = some (k, rest)) : isBareKey k = true := by
  have hskip : skip (k ++ ':' :: x) = skip k ++ ':' :: x := by
    cases hk : k.dropWhile isBlank <;>
      simp [skip, List.dropWhile_append, hk, show isBlank ':' = false by decide]
  rw [hskip] at h
  cases hk : skip k with
  | nil =>
      rw [hk] at h
      cases h
  | cons c k' =>
      have hsuffix : c :: k' <:+ k := hk ▸ List.dropWhile_suffix _
      rw [hk, List.cons_append, readKey] at h
      split at h
      · exact absurd h (readStrictString_ne hcolon hsuffix)
      split at h
      · obtain ⟨⟨spelling, rest⟩, hread, heq⟩ := Option.map_eq_some_iff.1 h
        cases heq
        -- The number that is read is all of the key.
        rw [skip_numberName] at hk
        rw [← List.cons_append, ← hk,
          readStrictNumber_append (all_isNumberPart_numberName spelling) rfl] at hread
        split at hread
        · next hstrict =>
          obtain ⟨hspelling, -⟩ := Prod.mk.inj (Option.some.inj hread)
          rw [hspelling] at hstrict
          simp [isBareKey, isNumberName, hspelling, hstrict]
        · cases hread
      · obtain ⟨⟨name, rest⟩, hread, heq⟩ := Option.map_eq_some_iff.1 h
        cases heq
        simp [isBareKey, isPlainName_of_readName hread]

/-- A text without a colon is read as its own key exactly if it is a bare key. -/
theorem readKey_bare_iff {k x rest : Text} (hcolon : ':' ∉ k) :
    readKey (skip (k ++ ':' :: x)) = some (k, rest) ↔ isBareKey k = true ∧ rest = ':' :: x := by
  constructor
  · intro h
    have hbare := isBareKey_of_readKey hcolon h
    rw [skip_bareKey hbare, readKey_of_isBareKey hbare] at h
    exact ⟨hbare, (Prod.mk.inj (Option.some.inj h)).2.symm⟩
  · rintro ⟨hbare, rfl⟩
    rw [skip_bareKey hbare, readKey_of_isBareKey hbare]

/-! ## Values -/

/-- A quoted text is read as a string. -/
theorem readLiteral_quoted (v x : Text) : readLiteral (quoted v ++ x) = some (.string v, x) := by
  have hread := readStrictString_quoted v x
  have hquote : isQuote '\'' = true := rfl
  rw [quoted, List.cons_append, List.cons_append] at hread ⊢
  rw [readLiteral, if_pos hquote, hread]
  rfl

/-- The characters of a numeral, which begins with a digit. -/
theorem exists_cons_of_isNumeral {v : Text} (hv : isNumeral v = true) :
    ∃ d w, v = d :: w ∧ isNumeralPart d = true ∧ v.all isNumeralPart = true := by
  simp only [isNumeral, Bool.and_eq_true] at hv
  cases v with
  | nil => simp at hv
  | cons d w =>
      have hd : d.isDigit = true := by simpa using hv.1.1
      exact ⟨d, w, rfl, by simp [isNumeralPart, hd], hv.1.2⟩

/-- A numeral is no big integer. -/
theorem isBig_of_isNumeral {v : Text} (hv : isNumeral v = true) : isBig v = false := by
  obtain ⟨-, -, -, -, hall⟩ := exists_cons_of_isNumeral hv
  rw [← Bool.not_eq_true, isBig, beq_iff_eq]
  intro hlast
  exact absurd (List.all_eq_true.1 hall _ (List.mem_of_getLast? hlast)) (by decide)

/-- A numeral is a number unless a digit follows a leading zero. -/
theorem readLiteral_numeral {v x : Text} (hv : isNumeral v = true)
    (hx : x.head?.all (fun c => !isNumberPart c) = true) :
    readLiteral (v ++ x) =
      if isZeroLed v then none else some (.number (numberValue v).toRat, x) := by
  obtain ⟨d, w, hcons, hd, hall⟩ := exists_cons_of_isNumeral hv
  have hparts : v.all isNumberPart = true :=
    List.all_eq_true.2 fun c hc => isNumberPart_of_isNumeralPart (List.all_eq_true.1 hall c hc)
  have hread : readLiteral (v ++ x) =
      match readStrictNumber (v ++ x) with
      | some (spelling, rest) =>
        if isBig spelling then none else some (.number (numberValue spelling).toRat, rest)
      | none => none := by
    rw [hcons, List.cons_append, readLiteral, isQuote_of_isNumeralPart hd, hd]
    rfl
  rw [hread, readStrictNumber_append hparts hx, isStrictNumber_numeral hv]
  cases isZeroLed v <;> simp [isBig_of_isNumeral hv]

/-! ## Members -/

/-- A member is a key, a colon and a literal. -/
theorem readMember_eq_some {s rest : Text} {m : Member} :
    readMember s = some (m, rest) ↔ ∃ after more, readKey s = some (m.key, after) ∧
      skip after = ':' :: more ∧ readLiteral (skip more) = some (m.value, rest) := by
  unfold readMember
  constructor
  · intro h
    split at h
    · next key after hkey =>
      split at h
      · next more hcolon =>
        obtain ⟨⟨value, t⟩, hvalue, heq⟩ := Option.map_eq_some_iff.1 h
        cases heq
        exact ⟨after, more, hkey, hcolon, hvalue⟩
      · cases h
    · cases h
  · rintro ⟨after, more, hkey, hcolon, hvalue⟩
    simp only [hkey, hcolon, hvalue, Option.map_some]

/-- What follows the first one of several members. -/
theorem readMembers_eq_cons {rounds : Nat} {s : Text} {m : Member} {members : List Member} :
    readMembers (rounds + 1) s = some (m :: members) ↔ ∃ rest, readMember (skip s) = some (m, rest) ∧
      (skip rest = ['\x7d'] ∧ members = [] ∨
        ∃ more, skip rest = ',' :: more ∧ readMembers rounds more = some members) := by
  rw [readMembers]
  constructor
  · intro h
    split at h
    · cases h
    · split at h
      · next member rest hmember =>
        refine ⟨rest, ?_⟩
        split at h
        · next more hcomma =>
          obtain ⟨found, hmore, heq⟩ := Option.map_eq_some_iff.1 h
          cases heq
          exact ⟨hmember, .inr ⟨more, hcomma, hmore⟩⟩
        · next hbrace =>
          cases h
          exact ⟨hmember, .inl ⟨hbrace, rfl⟩⟩
        · cases h
      · cases h
  · rintro ⟨rest, hmember, hrest⟩
    split
    · next hbrace =>
      rw [hbrace] at hmember
      cases hmember
    · rw [hmember]
      rcases hrest with ⟨hbrace, rfl⟩ | ⟨more, hcomma, hmore⟩
      · simp only [hbrace]
      · simp only [hcomma, hmore, Option.map_some]

end Viewloom.Script
