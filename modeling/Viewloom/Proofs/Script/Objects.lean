import Viewloom.Proofs.Script.Expressions
import Viewloom.Proofs.Script.Numbers

/-!
# Object literals

The members of the objects that a view writes: a key, which is a string or consists of parts of names,
and a value.
-/

namespace Viewloom.Script

open Viewloom.Script.Parser Viewloom.Script.Tree Template

variable {must : Bool} {g : Grammar} {c : Context} {rounds depth n : Nat} {s : Source}

/-- A string, or parts of a name, which must be a name as a whole if the script must be a module. -/
def IsKey (must : Bool) (key : Text) : Prop :=
  (∃ value, key = quoted value) ∨
    key.all isNamePart = true ∧ (must = true → isPlainName key = true)

/-- A comma or a closing brace stands in front of a text. -/
def EndsItem (x : Text) : Prop :=
  ∃ d y hasBreak, (d = ',' ∨ d = '\x7d') ∧ Source.ofText x = some ⟨d :: y, hasBreak, []⟩

/-- Where an item of an object ends, its expression does. -/
theorem endsExpression_of_endsItem {x : Text} {u : Source} (hx : EndsItem x)
    (hu : Source.ofText x = some u) : u.endsExpression = true := by
  obtain ⟨d, y, hasBreak, hd, hy⟩ := hx
  rw [hy] at hu
  cases hu
  rcases hd with rfl | rfl <;> rfl

theorem EndsItem.skips {x : Text} {P : Source → Prop} (hx : EndsItem x)
    (h : ∀ u, Source.ofText x = some u → P u) : Skips must x P := by
  obtain ⟨d, y, hasBreak, -, hy⟩ := hx
  rw [Skips, hy]
  exact h _ hy

/-- The values of an object that require nothing. -/
structure IsValue (must : Bool) (value : Text) : Prop where
  solid : ∀ x, isSolid (value ++ x) = true
  reads : ∀ rounds depth c x s, EndsItem x → Source.rest s = value ++ x →
    Suffices 1 rounds depth s.rest.length →
      Reads must (assignment (grammarWithin rounds depth) c) s fun t u =>
        t.Needs [] ∧ Source.ofText x = some u

/-- A quoted text is a value. -/
theorem isValue_quoted (v : Text) : IsValue must (quoted v) where
  solid _ := rfl
  reads rounds depth c x s hx hs hfit := by
    have hrounds : 0 < (grammarWithin rounds depth).rounds := hfit.rounds_pos
    apply reads_assignment_string hrounds hs
    apply hx.skips
    intro u hu
    exact ⟨endsExpression_of_endsItem hx hu, needs_leaf rfl, hu⟩

/-! ## Numbers as values -/

theorem isBlank_of_isNumberPart {d : Char} (hd : isNumberPart d = true) : isBlank d = false :=
  isBlank_eq_false (by decide +kernel) hd

/-- What stands behind a value goes on with no number. -/
theorem exists_cons_of_endsItem {x : Text} (hx : EndsItem x) :
    ∃ e y, x = e :: y ∧ isNumberPart e = false ∧ e ≠ '\\' := by
  obtain ⟨d, y, hasBreak, hd, hy⟩ := hx
  cases x with
  | nil => cases hy
  | cons e x =>
      have hsolid (hblank : isBlank e = false) (hslash : e ≠ '/') : e = ',' ∨ e = '\x7d' := by
        rw [Source.ofText_of_isSolid (by simp [isSolid, hblank, hslash])] at hy
        cases hy
        exact hd
      refine ⟨e, x, rfl, ?_, ?_⟩
      · rw [← Bool.not_eq_true]
        intro he
        have hslash : e ≠ '/' := by
          rintro rfl
          exact absurd he (by decide)
        rcases hsolid (isBlank_of_isNumberPart he) hslash with rfl | rfl <;>
          exact absurd he (by decide)
      · rintro rfl
        rcases hsolid (by decide) (by decide) with heq | heq <;> exact absurd heq (by decide)

/-- No member begins with a character that begins no name. -/
theorem reads_memberName_none {Q : Text → Source → Prop}
    (h : ∀ d, s.rest.head? = some d → d ≠ '#' ∧ isNameStart d = false ∧ d ≠ '\\') :
    Reads false memberName s Q := by
  have hread : readName s.rest = none := by
    cases hs : s.rest with
    | nil => rfl
    | cons d rest =>
        obtain ⟨-, hstart, hslash⟩ := h d (by simp [hs])
        exact readName_eq_none hstart hslash
  simp only [memberName, Reads.bind_iff, Reads.nextChar_iff, Reads.ite_iff, beq_iff_eq]
  constructor
  · intro heq
    exact absurd rfl (h '#' heq).1
  · intro _
    simp [Reads.token_iff, hread]

/-- The characters of numerals. -/
def isNumeralPart (d : Char) : Bool := d.isDigit || d == '.'

theorem isNumberPart_of_isNumeralPart {d : Char} (hd : isNumeralPart d = true) :
    isNumberPart d = true := by
  simp only [isNumeralPart, Bool.or_eq_true, beq_iff_eq] at hd
  rcases hd with hd | rfl
  · exact isNumberPart_of_isDigit hd
  · decide

theorem ne_of_isNumeralPart {d : Char} (hd : isNumeralPart d = true) :
    d ≠ '#' ∧ isNameStart d = false ∧ d ≠ '\\' := by
  refine ⟨?_, ?_, ?_⟩
  · rintro rfl
    exact absurd hd (by decide)
  · rw [← Bool.not_eq_true]
    intro hstart
    simp only [isNumeralPart, isDigit_of_isNameStart hstart, Bool.false_or, beq_iff_eq] at hd
    subst hd
    exact absurd hstart (by decide)
  · rintro rfl
    exact absurd hd (by decide)

theorem isSolid_of_isNumeralPart {d : Char} {x : Text} (hd : isNumeralPart d = true) :
    isSolid (d :: x) = true := by
  have hslash : d ≠ '/' := by
    rintro rfl
    exact absurd hd (by decide)
  simp [isSolid, isBlank_of_isNumberPart (isNumberPart_of_isNumeralPart hd), hslash]

/-- A point behind a number that has ended leads to no member. -/
theorem reads_suffixes_point {digits x : Text} {t : Tree} {Q : Tree → Source → Prop}
    (hn : 0 < n) (hs : s.rest = '.' :: (digits ++ x)) (hdigits : digits.all isNumeralPart = true)
    (hx : EndsItem x) : Reads false (suffixes g c true false n t) s Q := by
  obtain ⟨k, rfl⟩ : ∃ k, n = k + 1 := ⟨n - 1, by omega⟩
  simp only [suffixes, Reads.bind_iff, Reads.nextChar_iff, hs, List.head?_cons]
  have hnone (u : Source) (hu : Source.ofText (digits ++ x) = some u) (Q : Text → Source → Prop) :
      Reads false memberName u Q := by
    apply reads_memberName_none
    intro d hd
    cases digits with
    | nil =>
        obtain ⟨e, y, hasBreak, he, hy⟩ := hx
        rw [List.nil_append, hy] at hu
        cases hu
        cases hd
        rcases he with rfl | rfl <;> decide
    | cons e digits =>
        simp only [List.all_cons, Bool.and_eq_true] at hdigits
        rw [List.cons_append, Source.ofText_of_isSolid (isSolid_of_isNumeralPart hdigits.1)] at hu
        cases hu
        cases hd
        exact ne_of_isNumeralPart hdigits.1
  rw [Parser.mark, Reads.bind_iff, Reads.token_iff]
  constructor
  · intro m y hread
    rw [Skips]
    split
    · next u hu =>
      rw [Reads.require_iff]
      refine ⟨fun hpoint => ?_, fun _ => rfl⟩
      obtain rfl : m = ['.'] := by simpa using hpoint
      obtain ⟨-, heq⟩ := eq_append_of_readPunctuator hread
      rw [hs, List.singleton_append, List.cons.injEq] at heq
      rw [← heq.2] at hu
      exact hnone u hu _
    · rfl
  · intro _
    rfl

/-- What is read as a number is a primary. -/
theorem reads_primary_number {spelling x : Text} {d : Char} {Q : Tree → Source → Prop}
    (hhead : s.rest.head? = some d) (hd : d.isDigit = true)
    (hread : readNumber s.rest = some (spelling, x))
    (h : Skips must x (Q (leaf .number spelling))) : Reads must (primary g c) s Q := by
  have hnumber : Reads must (token readNumber) s fun spelling u => Q (leaf .number spelling) u :=
    Reads.token hread h
  have hsigns : operandSigns.all (fun e => !e.isDigit) = true := by decide
  apply reads_primary_of_head hhead
  · intro hmem
    have hsign := List.all_eq_true.1 hsigns d hmem
    rw [hd] at hsign
    cases hsign
  · simpa [hd] using hnumber

/-- The values that are written as numbers. -/
theorem isValue_numeral {v : Text} (hv : isNumeral v = true)
    (hoctal : must = true → isOctalPointed v = false) : IsValue must v := by
  obtain ⟨whole, fraction, rfl, hne, hwhole, -⟩ := exists_digits_of_isNumeral hv
  obtain ⟨d, digits, rfl⟩ := List.exists_cons_of_ne_nil hne
  have hd : d.isDigit = true := by
    simp only [List.all_cons, Bool.and_eq_true] at hwhole
    exact hwhole.1
  have hpart : isNumeralPart d = true := by simp [isNumeralPart, hd]
  constructor
  · exact fun x => isSolid_of_isNumeralPart hpart
  intro rounds depth c x s hx hs hfit
  have hhead : s.rest.head? = some d := by
    rw [hs]
    rfl
  have hmark : s.mark = [] := by
    have hname : isNamePart d = true := by simp [isNamePart, hd]
    simp only [Source.mark, hs, List.cons_append, readPunctuator_of_isNamePart hname]
  have hword : s.word = [] := by
    obtain ⟨-, hstart, hslash⟩ := ne_of_isNumeralPart hpart
    simp only [Source.word, hs, List.cons_append, readName_eq_none hstart hslash]
  have hbegins : s.beginsOperand = true := by
    rw [Source.beginsOperand, hmark, hword]
    decide
  have hrounds : 0 < (grammarWithin rounds depth).rounds := hfit.rounds_pos
  apply reads_assignment_operand hrounds hbegins
  apply reads_operand_primary hrounds hbegins
  cases hcase : isOctalPointed (d :: digits ++ fraction) with
  | false =>
      obtain ⟨e, y, rfl, he, hescape⟩ := exists_cons_of_endsItem hx
      have hread : readNumber s.rest = some (d :: digits ++ fraction, e :: y) := by
        rw [hs]
        exact readNumber_numeral hv hcase he hescape
      apply reads_primary_number hhead hd hread
      apply hx.skips
      intro u hu
      have hexpression := endsExpression_of_endsItem hx hu
      have hoperand := endsOperand_of_endsExpression hexpression
      exact reads_suffixes_end hrounds (endsAccess_of_endsOperand hoperand)
        ⟨hoperand, hexpression, needs_leaf rfl, hu⟩
  | true =>
      have hmust : must = false := by
        rw [← Bool.not_eq_true]
        intro hmust
        rw [hoctal hmust] at hcase
        cases hcase
      subst hmust
      obtain ⟨number, rest, -, hrest, hread⟩ := readNumber_octal (x := x) hv hcase
      rw [← hs] at hread
      apply reads_primary_number hhead hd hread
      apply skips_of_isSolid (x := '.' :: (rest ++ x)) rfl
      refine reads_suffixes_point hrounds rfl (List.all_eq_true.2 fun e he => ?_) hx
      simp [isNumeralPart, List.all_eq_true.1 hrest e he]

/-! ## Keys -/

theorem readName_digits {k x : Text} {d : Char} (hd : isNameStart d = false)
    (hk : (d :: k).all isNamePart = true) : readName (d :: k ++ x) = none := by
  simp only [List.all_cons, Bool.and_eq_true] at hk
  exact readName_eq_none hd (ne_backslash_of_isNamePart hk.1)

/-- The next word in front of a key is the key itself, or there is none. -/
theorem word_of_isKey {k x : Text} (hs : s.rest = k ++ ':' :: x) (hk : IsKey must k) :
    isPlainName k = true ∧ s.word = k ∨ readName s.rest = none ∧ s.word = [] := by
  have hnone (h : readName s.rest = none) : readName s.rest = none ∧ s.word = [] := by
    refine ⟨h, ?_⟩
    rw [Source.word, h]
  rcases hk with ⟨value, rfl⟩ | ⟨hk, -⟩
  · right
    apply hnone
    rw [hs]
    rfl
  · cases k with
    | nil =>
        right
        apply hnone
        rw [hs]
        rfl
    | cons d k =>
        cases hd : isNameStart d with
        | true =>
            left
            have hname : isPlainName (d :: k) = true := by
              simp only [List.all_cons, Bool.and_eq_true] at hk
              simp [isPlainName, hd, hk.2]
            exact ⟨hname, Source.word_of_isPlainName hs hname rfl⟩
        | false =>
            right
            apply hnone
            rw [hs]
            exact readName_digits hd hk

/-- In front of a key stands no mark but the colon. -/
theorem mark_of_isKey {k x : Text} (hs : s.rest = k ++ ':' :: x) (hk : IsKey must k) :
    s.mark = [] ∨ s.mark = [':'] := by
  rcases hk with ⟨value, rfl⟩ | ⟨hk, -⟩
  · left
    simp only [Source.mark, hs]
    rfl
  · cases k with
    | nil =>
        right
        simp only [Source.mark, hs]
        rfl
    | cons d k =>
        left
        simp only [List.all_cons, Bool.and_eq_true] at hk
        simp only [Source.mark, hs, List.cons_append, readPunctuator_of_isNamePart hk.1]

theorem isSolid_of_isKey {k x : Text} (hk : IsKey must k) : isSolid (k ++ ':' :: x) = true := by
  rcases hk with ⟨value, rfl⟩ | ⟨hk, -⟩
  · rfl
  · cases k with
    | nil => rfl
    | cons d k =>
        simp only [List.all_cons, Bool.and_eq_true] at hk
        have hslash : d ≠ '/' := by
          rintro rfl
          exact absurd hk.1 (by decide)
        simp [isSolid, isBlank_of_isNamePart hk.1, hslash]

/-- A key has no words in front of it: words that are the key itself are left to it. -/
theorem reads_memberHead_key {k x : Text} {Q : Head → Source → Prop} (hs : s.rest = k ++ ':' :: x)
    (hk : IsKey must k) (h : Q ⟨[], false, false⟩ s) : Reads must memberHead s Q := by
  have hmark : s.mark ≠ ['*'] := by
    rcases mark_of_isKey hs hk with hmark | hmark <;> rw [hmark] <;> decide
  have hbehind {p : Parser Bool} (hname : isPlainName k = true)
      (hp : Reads must p ⟨':' :: x, false, []⟩ fun ends _ => ends = true) :
      Reads must (behindWord p) s fun ends u => ends = true ∧ u = s := by
    rw [Reads.behindWord_iff]
    apply reads_name hs hname rfl
    apply skips_of_isSolid (x := ':' :: x) rfl
    apply hp.mono
    intro ends _ hends
    exact ⟨hends, rfl⟩
  have hends : Reads must endsKey ⟨':' :: x, false, []⟩ fun ends _ => ends = true := by
    simp only [endsKey, Reads.bind_iff, Reads.nextChar_iff, List.head?_cons, Reads.pure_iff]
    decide
  have hbreak : Reads must (do
      let ends ← endsKey
      let breaks ← hasBreak
      pure (ends || breaks)) ⟨':' :: x, false, []⟩ fun ends _ => ends = true := by
    simp only [Reads.bind_iff]
    apply hends.mono
    intro ends u hends
    simp [hends]
  simp only [memberHead, Reads.bind_iff, Reads.nextWord_iff]
  rcases word_of_isKey hs hk with ⟨hname, -⟩ | ⟨-, hword⟩
  · simp only [Reads.ite_iff]
    refine ⟨fun _ => ?_, fun _ => ⟨fun _ => ?_, fun _ => ?_⟩⟩
    · rw [Reads.bind_iff]
      apply (hbehind hname hends).mono
      rintro ends u ⟨rfl, rfl⟩
      simpa using h
    · rw [Reads.bind_iff]
      apply (hbehind hname hbreak).mono
      rintro ends u ⟨rfl, rfl⟩
      simpa using h
    · simpa [hmark] using h
  · have hget : ([] == text "get" || [] == text "set") = false := by decide
    have hasync : ([] == text "async") = false := by decide
    simp only [hword, hget, hasync, Bool.false_eq_true, if_false, Reads.bind_iff,
      Reads.skipMark_iff]
    exact ⟨fun heq => absurd heq hmark, fun _ => h⟩

/-- A number in front of a colon is read up to the colon. -/
theorem readNumber_key {k x spelling y : Text} (hk : k.all isNamePart = true)
    (h : readNumber (k ++ ':' :: x) = some (spelling, y)) : y = ':' :: x := by
  obtain ⟨hpast, hends⟩ := pastNumber_readNumber h
  obtain ⟨digits, more, rfl, rfl⟩ := hpast.eq_append rfl
  cases more with
  | nil => rfl
  | cons d more =>
      simp only [List.all_append, List.all_cons, Bool.and_eq_true] at hk
      simp [endsName, hk.2.1] at hends

theorem head_key {k x : Text} {d : Char} (hk : k.all isNamePart = true)
    (hd : (k ++ ':' :: x).head? = some d) : d = ':' ∨ isNamePart d = true := by
  cases k with
  | nil => exact .inl (Option.some.inj hd).symm
  | cons e k =>
      obtain rfl : e = d := Option.some.inj hd
      simp only [List.all_cons, Bool.and_eq_true] at hk
      exact .inr hk.1

theorem isNameStart_head_key {k x : Text} {d : Char} (hk : isPlainName k = true)
    (hd : (k ++ ':' :: x).head? = some d) : isNameStart d = true := by
  cases k with
  | nil => cases hk
  | cons e k =>
      obtain rfl : e = d := Option.some.inj hd
      simp only [isPlainName, Bool.and_eq_true] at hk
      exact hk.1

/-- A key that is printed as it stands, read as a name. -/
theorem reads_readName_key {k x : Text} {Q : Name → Source → Prop} (hs : s.rest = k ++ ':' :: x)
    (hk : k.all isNamePart = true) (hmust : must = true → isPlainName k = true)
    (h : Skips must (':' :: x) (Q ⟨k, false⟩)) : Reads must (token readName) s Q := by
  cases hplain : isPlainName k with
  | true => exact reads_name hs hplain rfl h
  | false =>
      have hnone : readName s.rest = none := by
        have hloose : IsKey false k := .inr ⟨hk, by rintro ⟨⟩⟩
        rcases word_of_isKey hs hloose with ⟨htrue, -⟩ | ⟨hnone, -⟩
        · rw [hplain] at htrue
          cases htrue
        · exact hnone
      have hfalse : must = false := by
        rw [← Bool.not_eq_true]
        intro htrue
        rw [hmust htrue] at hplain
        cases hplain
      simp [Reads.token_iff, hnone, hfalse]

/-- A key is read with no items and is no private name. -/
theorem reads_key {k x : Text} {Q : Tree → Source → Prop} (hs : s.rest = k ++ ':' :: x)
    (hk : IsKey must k)
    (h : ∀ t u, t.Needs [] → t.kind ≠ .privateName → u.rest = ':' :: x → Q t u) :
    Reads must (key g c) s Q := by
  have hQ (kind : Kind) (word : Text) (hplain : isPlain kind = true) (hkind : kind ≠ .privateName) :
      Skips must (':' :: x) (Q (leaf kind word)) :=
    skips_of_isSolid (x := ':' :: x) rfl (h _ _ (needs_leaf hplain) hkind rfl)
  rcases hk with ⟨value, rfl⟩ | ⟨hk, hmust⟩
  · have hhead : s.rest.head? = some '\'' := by
      rw [hs]
      rfl
    have hread : readString s.rest = some (value, ':' :: x) := by
      rw [hs]
      exact readString_quoted value _
    simp only [key, Reads.bind_iff, Reads.nextChar_iff, hhead]
    exact Reads.token hread (hQ .string value rfl (by decide))
  · simp only [key, Reads.bind_iff, Reads.nextChar_iff]
    rw [hs]
    split
    · next heq => exact absurd (head_key hk heq) (by decide)
    · next heq => exact absurd (head_key hk heq) (by decide)
    · next heq => exact absurd (head_key hk heq) (by decide)
    · next heq => exact absurd (head_key hk heq) (by decide)
    · next d _ _ _ _ heq =>
        simp only [Reads.ite_iff, Reads.bind_iff, Reads.pure_iff]
        refine ⟨fun hdigit => ?_, fun _ =>
          reads_readName_key hs hk hmust (hQ .identifier k rfl (by decide))⟩
        rw [Reads.token_iff]
        refine ⟨fun spelling y hread => ?_, fun _ => ?_⟩
        · rw [hs] at hread
          obtain rfl := readNumber_key hk hread
          exact hQ .number spelling rfl (by decide)
        · -- A name does not begin like a number.
          rw [← Bool.not_eq_true]
          intro htrue
          have hstart := isNameStart_head_key (hmust htrue) heq
          simp only [isDigit_of_isNameStart hstart, Bool.false_or, beq_iff_eq] at hdigit
          subst hdigit
          exact absurd hstart (by decide)
    · next heq => cases k <;> cases heq

/-! ## Members -/

/-- A key and a value. -/
def entry (key value : Text) : Text := key ++ ':' :: ' ' :: value

/-- An entry is read as a member of an object with no items. -/
theorem reads_objectMember {k v x : Text} {Q : Tree → Source → Prop}
    (hfit : Suffices 1 rounds depth s.rest.length) (hs : s.rest = entry k v ++ x)
    (hk : IsKey must k) (hv : IsValue must v) (hx : EndsItem x)
    (h : ∀ t u, t.Needs [] → Source.ofText x = some u → Q t u) :
    Reads must (objectMember (grammarWithin rounds depth) c) s Q := by
  have hs : s.rest = k ++ ':' :: (' ' :: v ++ x) := by simp [hs, entry]
  have hlength : (v ++ x).length < s.rest.length := by
    simp only [hs, List.length_append, List.length_cons, List.cons_append]
    omega
  have hmark : s.mark ≠ text "..." := by
    rcases mark_of_isKey hs hk with hmark | hmark <;> rw [hmark] <;> decide
  have hvalue (key : Tree) (hkey : key.Needs []) (hasBreak : Bool) :
      Reads must ((grammarWithin rounds depth).assignment c.allowIn) ⟨v ++ x, hasBreak, []⟩
        fun value w => Q (inner .property [key, value]) w := by
    apply reads_assignmentWithin
    · dsimp only
      omega
    intro d hd hfit
    apply (hv.reads rounds d _ x _ hx rfl hfit).mono
    rintro value w ⟨hneeds, hw⟩
    exact h _ w (needs_node rfl (allNeed_cons hkey (allNeed_one hneeds))) hw
  simp only [objectMember, Reads.bind_iff, Reads.skipMark_iff, Reads.ite_iff]
  refine ⟨fun heq => absurd heq hmark, fun _ => ⟨by simp, fun _ => ?_⟩⟩
  apply reads_memberHead_key hs hk
  apply reads_key hs hk
  intro t u ht hkind hu
  have hcolon : u.mark = [':'] := Source.mark_of_rest hu rfl
  apply Reads.require (by simpa using hkind)
  simp only [Reads.atMark_iff, hcolon]
  refine ⟨fun heq => absurd heq (by decide), fun _ => ⟨by simp, fun _ => ?_⟩⟩
  refine ⟨fun _ => ?_, by simp⟩
  have hread : readPunctuator u.rest = some ([':'], [' '] ++ (v ++ x)) := by
    rw [hu]
    rfl
  apply reads_mark_gap hread rfl (hv.solid x)
  simpa using hvalue t ht _

/-! ## Objects -/

theorem beginsOperand_brace {x : Text} (hs : s.rest = '\x7b' :: x) : s.beginsOperand = true :=
  Source.beginsOperand_of_rest hs rfl

/-- An object is read as an operand. -/
theorem reads_operand_object {x : Text} {Q : Tree → Source → Prop} (hn : 0 < n)
    (hs : s.rest = '\x7b' :: x)
    (h : Skips must x fun u =>
      Reads must (commaList ['\x7d'] (objectMember g c) g.rounds) u fun found u =>
        Reads must (suffixes g c true false g.rounds
          (.node .object (if found.2 then [','] else []) found.1)) u fun t u =>
            u.endsOperand = true ∧ Q t u) :
    Reads must (operand g c n) s Q := by
  have hhead : s.rest.head? = some '\x7b' := by
    rw [hs]
    rfl
  have hread : readPunctuator s.rest = some (['\x7b'], x) := by
    rw [hs]
    rfl
  apply reads_operand_primary hn (beginsOperand_brace hs)
  simp only [primary, object, Reads.bind_iff, Reads.nextChar_iff, hhead]
  exact Reads.mark hread h

/-- An object is read as an assignment. -/
theorem reads_assignment_object {x : Text} {Q : Tree → Source → Prop} (hg : 0 < g.rounds)
    (hs : s.rest = '\x7b' :: x)
    (h : Skips must x fun u =>
      Reads must (commaList ['\x7d'] (objectMember g c) g.rounds) u fun found u =>
        u.endsExpression = true ∧ Q (.node .object (if found.2 then [','] else []) found.1) u) :
    Reads must (assignment g c) s Q := by
  apply reads_assignment_operand hg (beginsOperand_brace hs)
  apply reads_operand_object hg hs
  apply h.mono
  intro u _ hu
  apply hu.mono
  rintro found v ⟨hends, hQ⟩
  have hoperand := endsOperand_of_endsExpression hends
  exact reads_suffixes_end hg (endsAccess_of_endsOperand hoperand) ⟨hoperand, hends, hQ⟩

/-- An entry does not close its object. -/
theorem mark_entry_ne {k v y : Text} (hk : IsKey must k) (hs : s.rest = entry k v ++ y) :
    s.mark ≠ ['\x7d'] := by
  have hs : s.rest = k ++ ':' :: (' ' :: v ++ y) := by simp [hs, entry]
  rcases mark_of_isKey hs hk with hmark | hmark <;> rw [hmark] <;> decide

theorem intercalate_entries {e e' : Text × Text} {entries : List (Text × Text)} {x : Text} :
    List.intercalate (text ", ") ((e :: e' :: entries).map fun e => entry e.1 e.2) ++ x =
      entry e.1 e.2 ++ (text ", " ++ (List.intercalate (text ", ")
        ((e' :: entries).map fun e => entry e.1 e.2) ++ x)) := by
  simp

theorem isSolid_intercalate {e : Text × Text} {entries : List (Text × Text)} {x : Text}
    (he : IsKey must e.1) :
    isSolid (List.intercalate (text ", ") ((e :: entries).map fun e => entry e.1 e.2) ++ x) = true := by
  have hentry (y : Text) : isSolid (entry e.1 e.2 ++ y) = true := by
    rw [entry, List.append_assoc]
    exact isSolid_of_isKey he
  cases entries with
  | nil =>
      rw [List.map_singleton, List.intercalate_singleton]
      exact hentry x
  | cons e' entries =>
      rw [intercalate_entries]
      exact hentry _

theorem reads_comma {y : Text} {Q : Unit → Source → Prop} (hs : s.rest = ',' :: y)
    (h : Skips must y (Q ())) : Reads must (mark [',']) s Q := by
  refine Reads.mark ?_ h
  rw [hs]
  rfl

theorem mark_brace (x : Text) (hasBreak : Bool) (comments : List Comment) :
    Source.mark ⟨'\x7d' :: x, hasBreak, comments⟩ = ['\x7d'] :=
  rfl

section Entries

variable {entries : List (Text × Text)} {b b' x : Text} {Q : List Tree × Bool → Source → Prop}
  (hentries : ∀ e ∈ entries, IsKey must e.1 ∧ IsValue must e.2) (hb : b.all isBlank = true)
include hentries hb

/-- The members of an object with commas between them. -/
theorem reads_entries (hne : entries ≠ []) (hfit : Suffices 1 rounds depth s.rest.length)
    (hn : s.rest.length < n)
    (hs : s.rest =
      List.intercalate (text ", ") (entries.map fun e => entry e.1 e.2) ++ (b ++ '\x7d' :: x))
    (h : ∀ ts, AllNeed [] ts → Skips must x (Q (ts, false))) :
    Reads must (commaList ['\x7d'] (objectMember (grammarWithin rounds depth) c) n) s Q := by
  have hends : EndsItem (b ++ '\x7d' :: x) :=
    ⟨'\x7d', x, _, .inr rfl, Source.ofText_append hb rfl⟩
  induction entries generalizing s n Q with
  | nil => exact absurd rfl hne
  | cons e entries ih =>
      obtain ⟨hkey, hvalue⟩ := hentries e (by simp)
      cases entries with
      | nil =>
          rw [List.map_singleton, List.intercalate_singleton] at hs
          apply reads_commaList_last (by omega) (mark_entry_ne hkey hs)
          apply reads_objectMember hfit hs hkey hvalue hends
          intro t u ht hu
          rw [Source.ofText_append hb rfl] at hu
          cases hu
          exact ⟨rfl, Reads.mark (x := x) rfl (h [t] (allNeed_one ht))⟩
      | cons e' entries =>
          rw [intercalate_entries] at hs
          generalize hy : List.intercalate (text ", ") ((e' :: entries).map fun e => entry e.1 e.2) ++
            (b ++ '\x7d' :: x) = y at hs
          have hsolid : isSolid y = true := by
            rw [← hy]
            exact isSolid_intercalate (hentries e' (by simp)).1
          have hlength : y.length + 2 ≤ s.rest.length := by
            rw [hs, List.length_append, List.length_append]
            exact Nat.le_trans (Nat.le_of_eq (Nat.add_comm y.length 2)) (Nat.le_add_left _ _)
          have hcomma : EndsItem (text ", " ++ y) :=
            ⟨',', ' ' :: y, false, .inl rfl, Source.ofText_of_isSolid (x := text ", " ++ y) rfl⟩
          apply reads_commaList_cons (by omega) (mark_entry_ne hkey hs)
          apply reads_objectMember hfit hs hkey hvalue hcomma
          intro t u ht hu
          rw [Source.ofText_of_isSolid (x := text ", " ++ y) rfl] at hu
          cases hu
          refine ⟨fun heq => absurd (show [','] = ['\x7d'] from heq) (by decide), ?_⟩
          apply reads_comma rfl
          apply skips_append (b := [' ']) rfl hsolid
          apply ih (fun e he => hentries e (by simp [he])) (by simp)
          · dsimp only
            omega
          · dsimp only
            omega
          · exact hy.symm
          intro ts hts
          exact h (t :: ts) (allNeed_cons ht hts)

/-- The members of an object, each one with a comma behind it. -/
theorem reads_closedEntries (hb' : b'.all isBlank = true)
    (hfit : Suffices 1 rounds depth ((entries.flatMap fun e => b ++ entry e.1 e.2 ++ [',']) ++
      (b' ++ '\x7d' :: x)).length)
    (hn : ((entries.flatMap fun e => b ++ entry e.1 e.2 ++ [',']) ++
      (b' ++ '\x7d' :: x)).length < n)
    (h : ∀ ts, AllNeed [] ts → Skips must x (Q (ts, true))) :
    Skips must ((entries.flatMap fun e => b ++ entry e.1 e.2 ++ [',']) ++ (b' ++ '\x7d' :: x))
      fun s => Reads must (commaList ['\x7d'] (objectMember (grammarWithin rounds depth) c) n) s Q := by
  induction entries generalizing n Q with
  | nil =>
      rw [List.flatMap_nil, List.nil_append]
      apply skips_append hb' rfl
      refine reads_commaList_close ?_ (mark_brace x _ _) ?_
      · rw [List.flatMap_nil, List.nil_append] at hn
        omega
      exact Reads.mark (x := x) rfl (h [] allNeed_nil)
  | cons e entries ih =>
      obtain ⟨hkey, hvalue⟩ := hentries e (by simp)
      generalize hy : (entries.flatMap fun e => b ++ entry e.1 e.2 ++ [',']) ++
        (b' ++ '\x7d' :: x) = y at ih
      have heq : ((e :: entries).flatMap fun e => b ++ entry e.1 e.2 ++ [',']) ++
          (b' ++ '\x7d' :: x) = b ++ (entry e.1 e.2 ++ ',' :: y) := by
        simp [← hy]
      have hsolid : isSolid (entry e.1 e.2 ++ ',' :: y) = true := by
        rw [entry, List.append_assoc]
        exact isSolid_of_isKey hkey
      have hlength : (b ++ (entry e.1 e.2 ++ ',' :: y)).length =
          b.length + (entry e.1 e.2).length + 1 + y.length := by
        simp only [List.length_append, List.length_cons]
        omega
      have hentry : (entry e.1 e.2 ++ ',' :: y).length = (entry e.1 e.2).length + 1 + y.length := by
        simp only [List.length_append, List.length_cons]
        omega
      have hcomma : Source.ofText (',' :: y) = some ⟨',' :: y, false, []⟩ :=
        Source.ofText_of_isSolid rfl
      rw [heq] at hfit hn ⊢
      apply skips_append hb hsolid
      apply reads_commaList_cons (by omega) (mark_entry_ne hkey rfl)
      refine reads_objectMember ?_ rfl hkey hvalue ⟨',', y, false, .inl rfl, hcomma⟩ ?_
      · dsimp only
        omega
      intro t u ht hu
      rw [hcomma] at hu
      cases hu
      refine ⟨fun heq => absurd (show [','] = ['\x7d'] from heq) (by decide), ?_⟩
      apply reads_comma rfl
      apply ih (fun e he => hentries e (by simp [he])) (by omega) (by omega)
      intro ts hts
      exact h (t :: ts) (allNeed_cons ht hts)

end Entries

/-! ## Objects as expressions -/

theorem needs_object {ts : List Tree} (word : Text) (hts : AllNeed [] ts) :
    (Tree.node .object word ts).Needs [] :=
  needs_node rfl hts

section Whole

variable {x : Text} {Q : Tree → Source → Prop}
  (h : ∀ t, t.Needs [] → t.kind = .object → Skips must x fun u => u.endsExpression = true ∧ Q t u)
include h

/-- The empty object is an assignment with no items. -/
theorem reads_assignment_emptyObject (hg : 0 < g.rounds) (hs : s.rest = text "\x7b\x7d" ++ x) :
    Reads must (assignment g c) s Q := by
  apply reads_assignment_object (x := '\x7d' :: x) hg hs
  apply skips_of_isSolid (x := '\x7d' :: x) rfl
  apply reads_commaList_close hg (mark_brace x _ _)
  exact Reads.mark (x := x) rfl (h _ (needs_object _ allNeed_nil) rfl)

section Entries

variable {entries : List (Text × Text)} {b b' : Text}
  (hentries : ∀ e ∈ entries, IsKey must e.1 ∧ IsValue must e.2)
  (hfit : Suffices 1 rounds depth s.rest.length)
include hentries hfit

/-- An object with its entries on one line is an assignment with no items. -/
theorem reads_assignment_entries (hne : entries ≠ [])
    (hs : s.rest = '\x7b' :: ([' '] ++ (List.intercalate (text ", ")
      (entries.map fun e => entry e.1 e.2) ++ ([' '] ++ '\x7d' :: x)))) :
    Reads must (assignment (grammarWithin rounds depth) c) s Q := by
  have hlength := congrArg List.length hs
  simp only [List.length_cons, List.length_append, List.length_nil] at hlength
  obtain ⟨e, entries, rfl⟩ := List.exists_cons_of_ne_nil hne
  apply reads_assignment_object hfit.rounds_pos hs
  apply skips_append (b := [' ']) rfl (isSolid_intercalate (hentries e (by simp)).1)
  refine reads_entries hentries (b := [' ']) rfl hne ?_ ?_ rfl ?_
  · simp only [List.length_cons, List.length_append, List.length_nil]
    omega
  · change _ < rounds
    simp only [List.length_cons, List.length_append, List.length_nil]
    omega
  intro ts hts
  exact h _ (needs_object _ hts) rfl

/-- An object with every entry on a line of its own is an assignment with no items. -/
theorem reads_assignment_closedEntries (hb : b.all isBlank = true) (hb' : b'.all isBlank = true)
    (hs : s.rest = '\x7b' :: ((entries.flatMap fun e => b ++ entry e.1 e.2 ++ [',']) ++
      (b' ++ '\x7d' :: x))) :
    Reads must (assignment (grammarWithin rounds depth) c) s Q := by
  have hlength := congrArg List.length hs
  rw [List.length_cons] at hlength
  apply reads_assignment_object hfit.rounds_pos hs
  apply reads_closedEntries hentries hb hb' (by omega)
  · change _ < rounds
    omega
  intro ts hts
  exact h _ (needs_object _ hts) rfl

end Entries

end Whole

theorem isValue_emptyObject : IsValue must (text "\x7b\x7d") where
  solid _ := rfl
  reads rounds depth c x s hx hs hfit := by
    have hrounds : 0 < (grammarWithin rounds depth).rounds := hfit.rounds_pos
    refine reads_assignment_emptyObject (fun t ht _ => hx.skips ?_) hrounds hs
    intro u hu
    exact ⟨endsExpression_of_endsItem hx hu, ht, hu⟩

end Viewloom.Script
