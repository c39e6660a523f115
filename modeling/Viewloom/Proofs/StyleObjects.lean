import Mathlib.Data.List.Forall2
import Mathlib.Data.List.TakeWhile
import Mathlib.Tactic.FieldSimp
import Viewloom.Proofs.OpeningTags
import Viewloom.Proofs.Script.Literals
import Viewloom.Proofs.Script.Templates

/-!
# Style objects

An inline style is printed as an object literal with one member for each declaration. The literal is
read as these declarations exactly if every key that is printed without quotes is a name or a number
that names itself, and every bare numeral is a number in stylesheets and in strict code.
-/

namespace Viewloom.Template

open Script

/-! ## Numbers of stylesheets -/

def digitValue (c : Char) : Nat := c.toNat - 48

/-- The integer that decimal digits denote. -/
def wholeValue : Text → Nat
  | [] => 0
  | c :: digits => digitValue c * 10 ^ digits.length + wholeValue digits

/-- The fraction that decimal digits behind a point denote. -/
def fractionValue : Text → ℚ
  | [] => 0
  | c :: digits => (digitValue c + fractionValue digits) / 10

/-- What a number of a stylesheet without a sign and an exponent denotes. A point needs digits behind
it. -/
def cssNumber? (value : Text) : Option ℚ :=
  let whole := value.takeWhile Char.isDigit
  match value.dropWhile Char.isDigit with
  | [] => if whole = [] then none else some (wholeValue whole)
  | '.' :: part =>
    if part ≠ [] ∧ part.all Char.isDigit = true then some (wholeValue whole + fractionValue part)
    else none
  | _ => none

/-! ## Members and declarations -/

/-- A member that stands for a declaration: its key is the name of the property, and its value is the
text of the value or the number that the value denotes. -/
def Denotes (d : Declaration) (m : Member) : Prop :=
  m.key = styleKey d.property ∧
    (m.value = .string d.value ∨ ∃ q, cssNumber? d.value = some q ∧ m.value = .number q)

/-- The object literal of an inline style. -/
def styleObject : List Declaration → Text
  | [] => text "\x7b\x7d"
  | declarations =>
    text "\x7b " ++ List.intercalate (text ", ") (declarations.map styleEntry) ++ text " \x7d"

/-- A declaration that its entry in a style object denotes. -/
structure Declaration.IsLegible (d : Declaration) : Prop where
  key : isCustom (styleKey d.property) = true ∨ isBareKey (styleKey d.property) = true
  strict : isNumeral d.value = true → isZeroLed d.value = false
  fraction : isNumeral d.value = true → d.value.getLast? ≠ some '.'

/-- The member that an entry is read as, if it is read. -/
def Declaration.member (d : Declaration) : Member :=
  ⟨styleKey d.property,
    if isNumeral d.value then .number (numberValue d.value).toRat else .string d.value⟩

variable {d : Declaration} {ds : List Declaration}

/-- A style is written as an object between braces. -/
theorem printValue_style (ds : List Declaration) :
    printValue (.style ds) = text "=\x7b" ++ styleObject ds ++ ['\x7d'] := by
  cases ds with
  | nil => rfl
  | cons d ds =>
      rw [printValue, styleObject]
      · have hopen : text "=\x7b\x7b " = text "=\x7b" ++ text "\x7b " := by decide
        have hclose : text " \x7d\x7d" = text " \x7d" ++ ['\x7d'] := by decide
        rw [hopen, hclose]
        simp only [List.append_assoc]
      · simp
      · simp

/-! ## Numerals -/

/-- Reading decimal digits adds their value to what stands in front of them. -/
theorem foldl_digits (n : Nat) {digits : Text} (h : digits.all Char.isDigit = true) :
    digits.foldl (fun n c => 10 * n + (hexValue? c).getD 0) n =
      n * 10 ^ digits.length + wholeValue digits := by
  induction digits generalizing n with
  | nil => simp [wholeValue]
  | cons c digits ih =>
      simp only [List.all_cons, Bool.and_eq_true] at h
      have hc : (hexValue? c).getD 0 = digitValue c := by
        have hdigit := h.1
        simp only [Char.isDigit, Bool.and_eq_true, decide_eq_true_eq] at hdigit
        rw [hexValue?, if_pos ⟨hdigit.1, hdigit.2⟩]
        rfl
      rw [List.foldl_cons, ih _ h.2, hc, wholeValue, List.length_cons]
      ring

/-- Digits in front of others count by the power of ten of their places. -/
theorem wholeValue_append (s t : Text) :
    wholeValue (s ++ t) = wholeValue s * 10 ^ t.length + wholeValue t := by
  induction s with
  | nil => simp [wholeValue]
  | cons c s ih =>
      rw [List.cons_append, wholeValue, ih, wholeValue, List.length_append]
      ring

/-- The value of digits behind a point is that of the whole number over a power of ten. -/
theorem fractionValue_eq (digits : Text) :
    fractionValue digits = wholeValue digits / 10 ^ digits.length := by
  induction digits with
  | nil => simp [fractionValue, wholeValue]
  | cons c digits ih =>
      rw [fractionValue, ih, wholeValue, List.length_cons]
      push_cast
      field_simp
      ring

section Numerals

variable {v whole fraction part : Text}

/-- A number without other marks than a point is decimal. -/
theorem numberValue_eq_decimalValue (hv : v.all isNumeralPart = true) (hzero : isZeroLed v = false) :
    numberValue v = decimalValue v := by
  have hfilter : v.filter (· != '_') = v := by
    refine List.filter_eq_self.2 fun c hc => ?_
    have hpart := List.all_eq_true.1 hv c hc
    rw [bne_iff_ne]
    rintro rfl
    exact absurd hpart (by decide)
  rw [numberValue, hfilter]
  split
  · next c digits =>
    have hpoint : c = '.' := by
      simp only [List.all_cons, Bool.and_eq_true, isNumeralPart, Bool.or_eq_true, beq_iff_eq] at hv
      rw [isZeroLed] at hzero
      simpa [hzero] using hv.2.1
    subst hpoint
    rfl
  · rfl

/-- The whole part of a numeral ends at its point. -/
theorem takeWhile_digits (hwhole : whole.all Char.isDigit = true)
    (hfraction : fraction = [] ∨ ∃ part, fraction = '.' :: part) :
    (whole ++ fraction).takeWhile Char.isDigit = whole ∧
      (whole ++ fraction).dropWhile Char.isDigit = fraction := by
  rw [List.takeWhile_append_of_pos (List.all_eq_true.1 hwhole),
    List.dropWhile_append_of_pos (List.all_eq_true.1 hwhole)]
  rcases hfraction with rfl | ⟨part, rfl⟩
  · simp
  · simp

/-- A numeral with a point is read as a whole number that is scaled down. -/
theorem decimalValue_append (hv : (whole ++ fraction).all isNumeralPart = true)
    (hwhole : whole.all Char.isDigit = true)
    (hfraction : fraction = [] ∨ ∃ part, fraction = '.' :: part) :
    decimalValue (whole ++ fraction) =
      ⟨valueInBase 10 (whole ++ fraction.drop 1), -((fraction.drop 1).length : Int)⟩ := by
  have hmantissa : (whole ++ fraction).takeWhile (fun c => c != 'e' && c != 'E') =
      whole ++ fraction := by
    refine List.takeWhile_eq_self_iff.2 fun c hc => ?_
    have hpart := List.all_eq_true.1 hv c hc
    rw [Bool.and_eq_true, bne_iff_ne, bne_iff_ne]
    constructor <;>
      · rintro rfl
        exact absurd hpart (by decide)
  have hscale : exponentValue [] = 0 := rfl
  unfold decimalValue
  simp only [hmantissa, (takeWhile_digits hwhole hfraction).1]
  rw [List.drop_eq_nil_of_le (Nat.le_succ _), hscale, Int.zero_sub, List.drop_append,
    List.drop_eq_nil_of_le (Nat.le_succ _), List.nil_append, Nat.add_sub_cancel_left]

/-- The value of a numeral is that of its whole part and of its fraction. -/
theorem toRat_digits (hwhole : whole.all Char.isDigit = true) (hpart : part.all Char.isDigit = true) :
    Scaled.toRat ⟨valueInBase 10 (whole ++ part), -(part.length : Int)⟩ =
      wholeValue whole + fractionValue part := by
  have hvalue : valueInBase 10 (whole ++ part) = wholeValue (whole ++ part) := by
    rw [valueInBase, foldl_digits 0 (by simp [hwhole, hpart]), Nat.zero_mul, Nat.zero_add]
  rw [Scaled.toRat, hvalue, wholeValue_append, fractionValue_eq, zpow_neg, zpow_natCast]
  push_cast
  field_simp

/-- A numeral denotes the same number in strict code and in stylesheets, unless its point has no
digits behind it and it denotes none in stylesheets. -/
theorem cssNumber?_numeral (hv : isNumeral v = true) (hzero : isZeroLed v = false) :
    cssNumber? v = if v.getLast? = some '.' then none else some (numberValue v).toRat := by
  obtain ⟨d, w, -, -, hall⟩ := exists_cons_of_isNumeral hv
  rw [numberValue_eq_decimalValue hall hzero]
  obtain ⟨whole, fraction, rfl, hne, hwhole, hfraction⟩ := exists_digits_of_isNumeral hv
  have hpoint : fraction = [] ∨ ∃ part, fraction = '.' :: part :=
    hfraction.imp id fun ⟨part, h, _⟩ => ⟨part, h⟩
  have hlast {digits : Text} (h : digits.all Char.isDigit = true) : digits.getLast? ≠ some '.' := by
    intro hlast
    exact absurd (List.all_eq_true.1 h _ (List.mem_of_getLast? hlast)) (by decide)
  rw [decimalValue_append hall hwhole hpoint]
  unfold cssNumber?
  obtain ⟨htake, hdrop⟩ := takeWhile_digits hwhole hpoint
  simp only [htake, hdrop]
  rcases hfraction with rfl | ⟨part, rfl, hpart⟩
  · have hvalue : Scaled.toRat ⟨valueInBase 10 (whole ++ []), -(([] : Text).length : Int)⟩ =
        wholeValue whole + fractionValue [] := toRat_digits hwhole rfl
    simp only [List.append_nil, List.drop_nil, hne, if_false, hlast hwhole] at hvalue ⊢
    rw [hvalue]
    simp [fractionValue]
  · rw [List.drop_one, List.tail_cons, toRat_digits hwhole hpart]
    cases part with
    | nil => simp
    | cons c part =>
        have hend : (whole ++ '.' :: c :: part).getLast? ≠ some '.' := by
          rw [List.getLast?_append_of_ne_nil _ (by simp), List.getLast?_cons_cons]
          exact hlast hpart
        rw [if_neg hend]
        exact if_pos ⟨by simp, hpart⟩

end Numerals

/-! ## Entries -/

/-- A key holds a colon only if its property does. -/
theorem colon_not_mem_styleKey {property : Text} (h : ':' ∉ property) : ':' ∉ styleKey property := by
  intro hmem
  have hfilter : ':' ∈ (styleKey property).filter isSettled := List.mem_filter.2 ⟨hmem, by decide⟩
  rw [filter_styleKey] at hfilter
  exact h (List.mem_filter.1 hfilter).1

theorem skip_space (s : Text) : skip (' ' :: s) = skip s := rfl

/-- The key of an entry is read as the property exactly if it is quoted or denotes itself. -/
theorem readKey_writtenKey_iff (hcolon : ':' ∉ d.property) {x rest : Text} :
    readKey (skip (writtenKey d ++ ':' :: x)) = some (styleKey d.property, rest) ↔
      (isCustom (styleKey d.property) = true ∨ isBareKey (styleKey d.property) = true) ∧
        rest = ':' :: x := by
  unfold writtenKey
  split
  · next hcustom =>
    have hsolid : skip (quoted (styleKey d.property) ++ ':' :: x) =
        quoted (styleKey d.property) ++ ':' :: x := rfl
    rw [hsolid, readKey_quoted, Option.some.injEq, Prod.mk.injEq]
    constructor
    · rintro ⟨-, rfl⟩
      exact ⟨.inl hcustom, rfl⟩
    · rintro ⟨-, rfl⟩
      exact ⟨rfl, rfl⟩
  · next hcustom =>
    rw [readKey_bare_iff (colon_not_mem_styleKey hcolon)]
    exact and_congr_left fun _ => ⟨.inr, fun h => h.resolve_left hcustom⟩

/-- A value is read back, unless it is a numeral that strict code does not admit. -/
theorem readLiteral_styleValue (d : Declaration) {x : Text}
    (hx : x.head?.all (fun c => !isNumberPart c) = true) :
    readLiteral (skip (styleValue d.value ++ x)) =
      if isNumeral d.value = true ∧ isZeroLed d.value = true then none
      else some (d.member.value, x) := by
  unfold styleValue Declaration.member
  cases hv : isNumeral d.value with
  | true =>
      obtain ⟨c, w, hcons, hc, -⟩ := exists_cons_of_isNumeral hv
      have hsolid : skip (d.value ++ x) = d.value ++ x := by
        rw [hcons, List.cons_append]
        exact skip_cons (isBlank_of_isNumberPart (isNumberPart_of_isNumeralPart hc))
      simp only [if_true, hsolid, readLiteral_numeral hv hx, true_and]
  | false =>
      have hsolid : skip (quoted d.value ++ x) = quoted d.value ++ x := rfl
      simp [hsolid, readLiteral_quoted]

/-- An entry is read as the member of its declaration exactly if its key can be written bare and its
number in strict form. -/
theorem readMember_styleEntry_iff (hcolon : ':' ∉ d.property) {x rest : Text} {m : Member}
    (hx : x.head?.all (fun c => !isNumberPart c) = true) :
    readMember (skip (styleEntry d ++ x)) = some (m, rest) ∧ m.key = styleKey d.property ↔
      (isCustom (styleKey d.property) = true ∨ isBareKey (styleKey d.property) = true) ∧
        (isNumeral d.value = true → isZeroLed d.value = false) ∧ m = d.member ∧ rest = x := by
  have hentry : styleEntry d ++ x = writtenKey d ++ ':' :: ' ' :: (styleValue d.value ++ x) := by
    have hcolon : text ": " = [':', ' '] := by decide
    simp only [styleEntry, writtenKey, hcolon, List.append_assoc, List.cons_append, List.nil_append]
  rw [hentry, readMember_eq_some]
  constructor
  · rintro ⟨⟨after, more, hkey, hmore, hvalue⟩, hm⟩
    rw [hm, readKey_writtenKey_iff hcolon] at hkey
    obtain ⟨hkey, rfl⟩ := hkey
    rw [skip_cons (by decide)] at hmore
    obtain ⟨-, rfl⟩ := List.cons.inj hmore
    rw [skip_space, readLiteral_styleValue d hx] at hvalue
    split at hvalue
    · cases hvalue
    · next hstrict =>
      obtain ⟨hsame, rfl⟩ := Prod.mk.inj (Option.some.inj hvalue)
      obtain ⟨key, value⟩ := m
      obtain rfl : key = styleKey d.property := hm
      obtain rfl : d.member.value = value := hsame
      exact ⟨hkey, by simpa using hstrict, rfl, rfl⟩
  · rintro ⟨hkey, hstrict, rfl, rfl⟩
    refine ⟨⟨_, _, (readKey_writtenKey_iff hcolon).2 ⟨hkey, rfl⟩, skip_cons (by decide), ?_⟩, rfl⟩
    rw [skip_space, readLiteral_styleValue d hx, if_neg (by simpa using hstrict)]

/-- The member of a declaration denotes it, unless its point has no digits behind it. -/
theorem denotes_member_iff (hstrict : isNumeral d.value = true → isZeroLed d.value = false) :
    Denotes d d.member ↔ (isNumeral d.value = true → d.value.getLast? ≠ some '.') := by
  unfold Denotes Declaration.member
  cases hv : isNumeral d.value with
  | true =>
      rw [cssNumber?_numeral hv (hstrict hv)]
      simp
  | false => simp

/-- An entry is read as a member that denotes its declaration exactly if it is legible. -/
theorem readMember_denotes_iff (hcolon : ':' ∉ d.property) {x rest : Text} {m : Member}
    (hx : x.head?.all (fun c => !isNumberPart c) = true) :
    readMember (skip (styleEntry d ++ x)) = some (m, rest) ∧ Denotes d m ↔
      d.IsLegible ∧ m = d.member ∧ rest = x := by
  constructor
  · rintro ⟨hread, hdenotes⟩
    obtain ⟨hkey, hstrict, rfl, rfl⟩ := (readMember_styleEntry_iff hcolon hx).1 ⟨hread, hdenotes.1⟩
    exact ⟨⟨hkey, hstrict, (denotes_member_iff hstrict).1 hdenotes⟩, rfl, rfl⟩
  · rintro ⟨⟨hkey, hstrict, hfraction⟩, rfl, rfl⟩
    exact ⟨((readMember_styleEntry_iff hcolon hx).2 ⟨hkey, hstrict, rfl, rfl⟩).1,
      (denotes_member_iff hstrict).2 hfraction⟩

/-! ## Literals -/

/-- What stands behind an entry: the end of the literal, or a comma and the other entries. -/
def behindEntry : List Declaration → Text
  | [] => text " \x7d"
  | ds => text ", " ++ List.intercalate (text ", ") (ds.map styleEntry) ++ text " \x7d"

theorem head_behindEntry (ds : List Declaration) :
    (behindEntry ds).head?.all (fun c => !isNumberPart c) = true := by
  cases ds <;> rfl

/-- The entries of a literal are the first one and what stands behind it. -/
theorem intercalate_styleEntries (d : Declaration) (ds : List Declaration) :
    List.intercalate (text ", ") ((d :: ds).map styleEntry) ++ text " \x7d" =
      styleEntry d ++ behindEntry ds := by
  cases ds with
  | nil =>
      rw [List.map_singleton, List.intercalate_singleton]
      rfl
  | cons d' ds => simp [behindEntry]

/-- The entries of a literal up to its end. -/
theorem readMembers_entries_iff (hcolon : ∀ d ∈ ds, ':' ∉ d.property) (hne : ds ≠ []) {rounds : Nat}
    (hrounds : ds.length < rounds) {members : List Member} :
    readMembers rounds (' ' :: (List.intercalate (text ", ") (ds.map styleEntry) ++ text " \x7d")) =
        some members ∧ List.Forall₂ Denotes ds members ↔
      (∀ d ∈ ds, d.IsLegible) ∧ members = ds.map Declaration.member := by
  induction ds generalizing rounds members with
  | nil => exact absurd rfl hne
  | cons d ds ih =>
      obtain ⟨rounds, rfl⟩ : ∃ k, rounds = k + 1 := ⟨rounds - 1, by omega⟩
      rw [List.forall_mem_cons] at hcolon
      have hmember {m : Member} {rest : Text} :
          readMember (skip (styleEntry d ++ behindEntry ds)) = some (m, rest) ∧ Denotes d m ↔
            d.IsLegible ∧ m = d.member ∧ rest = behindEntry ds :=
        readMember_denotes_iff hcolon.1 (head_behindEntry ds)
      -- The entries behind the first one are read in what follows it.
      have hrest (ms : List Member) :
          (skip (behindEntry ds) = ['\x7d'] ∧ ms = [] ∨ ∃ more, skip (behindEntry ds) = ',' :: more ∧
            readMembers rounds more = some ms) ∧ List.Forall₂ Denotes ds ms ↔
          (∀ d ∈ ds, d.IsLegible) ∧ ms = ds.map Declaration.member := by
        cases ds with
        | nil =>
            constructor
            · rintro ⟨-, hnil⟩
              cases hnil
              exact ⟨by simp, rfl⟩
            · rintro ⟨-, rfl⟩
              exact ⟨.inl ⟨rfl, rfl⟩, .nil⟩
        | cons d' ds =>
            have hskip : skip (behindEntry (d' :: ds)) = ',' :: ' ' ::
                (List.intercalate (text ", ") ((d' :: ds).map styleEntry) ++ text " \x7d") := rfl
            rw [← ih hcolon.2 (by simp) (by simpa using hrounds), hskip]
            refine and_congr_left fun _ => ⟨?_, fun hread => .inr ⟨_, rfl, hread⟩⟩
            rintro (⟨hbrace, -⟩ | ⟨more, hmore, hread⟩)
            · cases hbrace
            · obtain ⟨-, rfl⟩ := List.cons.inj hmore
              exact hread
      rw [intercalate_styleEntries]
      constructor
      · rintro ⟨hread, hdenotes⟩
        cases hdenotes with
        | cons hd hds =>
            obtain ⟨rest, hm, hbehind⟩ := readMembers_eq_cons.1 hread
            obtain ⟨hlegible, rfl, rfl⟩ := hmember.1 ⟨hm, hd⟩
            obtain ⟨hall, rfl⟩ := (hrest _).1 ⟨hbehind, hds⟩
            exact ⟨List.forall_mem_cons.2 ⟨hlegible, hall⟩, rfl⟩
      · rintro ⟨hlegible, rfl⟩
        rw [List.forall_mem_cons] at hlegible
        obtain ⟨hm, hd⟩ := hmember.2 ⟨hlegible.1, rfl, rfl⟩
        obtain ⟨hbehind, hds⟩ := (hrest _).2 ⟨hlegible.2, rfl⟩
        exact ⟨readMembers_eq_cons.2 ⟨_, hm, hbehind⟩, .cons hd hds⟩

theorem length_lt_behindEntry (ds : List Declaration) :
    ds.length + 1 < (behindEntry ds).length := by
  induction ds with
  | nil => decide
  | cons d ds ih =>
      have hentries : behindEntry (d :: ds) = text ", " ++ (styleEntry d ++ behindEntry ds) := by
        rw [← intercalate_styleEntries, ← List.append_assoc]
        rfl
      have hcomma : (text ", ").length = 2 := by decide
      rw [hentries, List.length_append, List.length_append, hcomma, List.length_cons]
      omega

/-- The literal is read up to its end exactly if its entries are. -/
theorem readMembers_styleObject_iff (hcolon : ∀ d ∈ ds, ':' ∉ d.property) {members : List Member}
    {s : Text} (hs : styleObject ds = '\x7b' :: s) :
    readMembers (s.length + 1) s = some members ∧ List.Forall₂ Denotes ds members ↔
      (∀ d ∈ ds, d.IsLegible) ∧ members = ds.map Declaration.member := by
  cases ds with
  | nil =>
      obtain rfl : ['\x7d'] = s := (List.cons.inj hs).2
      have hread : readMembers 2 ['\x7d'] = some [] := rfl
      rw [List.length_singleton, hread]
      constructor
      · rintro ⟨-, hnil⟩
        cases hnil
        exact ⟨by simp, rfl⟩
      · rintro ⟨-, rfl⟩
        exact ⟨rfl, .nil⟩
  | cons d ds =>
      obtain rfl : ' ' :: (List.intercalate (text ", ") ((d :: ds).map styleEntry) ++ text " \x7d") = s :=
        (List.cons.inj hs).2
      refine readMembers_entries_iff hcolon (by simp) ?_
      have hlength := length_lt_behindEntry ds
      rw [intercalate_styleEntries, List.length_cons, List.length_cons, List.length_append]
      omega

/-- An object is read as its members, of which at most one sets the prototype. -/
theorem readObject_brace (s : Text) {members : List Member} :
    readObject ('\x7b' :: s) = some members ↔ readMembers (s.length + 1) s = some members ∧
      (members.map Member.key).count prototypeKey ≤ 1 := by
  rw [readObject]
  cases readMembers (s.length + 1) s with
  | none => simp
  | some found =>
      by_cases hcount : (found.map Member.key).count prototypeKey ≤ 1
      · simp only [hcount, if_true, Option.some.injEq]
        constructor
        · rintro rfl
          exact ⟨rfl, hcount⟩
        · exact And.left
      · simp only [hcount, if_false, Option.some.injEq]
        constructor
        · intro h
          cases h
        · rintro ⟨rfl, h⟩
          exact absurd h hcount

/-- An inline style is printed as an object literal. It is read as a member for each declaration, in
order, with a plain key that is the name of the property and with a value that is the text of the value
or the number that the value denotes, exactly if the entries are legible and at most one of them sets
the prototype. -/
theorem readObject_parseStyle_iff (style : Text) :
    printValue (.style (parseStyle style)) =
        text "=\x7b" ++ styleObject (parseStyle style) ++ ['\x7d'] ∧
      ((∃ members, readObject (styleObject (parseStyle style)) = some members ∧
          List.Forall₂ Denotes (parseStyle style) members) ↔
        (∀ d ∈ parseStyle style, d.IsLegible) ∧
          ((parseStyle style).map fun d => styleKey d.property).count prototypeKey ≤ 1) := by
  refine ⟨printValue_style _, ?_⟩
  generalize hds : parseStyle style = ds
  have hcolon : ∀ d ∈ ds, ':' ∉ d.property := by
    rintro d hd
    rw [← hds] at hd
    exact (mem_parseStyle hd).colon
  obtain ⟨s, hs⟩ : ∃ s, styleObject ds = '\x7b' :: s := by
    cases ds <;> exact ⟨_, rfl⟩
  have hkeys : (ds.map Declaration.member).map Member.key = ds.map fun d => styleKey d.property := by
    rw [List.map_map]
    rfl
  simp only [hs, readObject_brace]
  constructor
  · rintro ⟨members, ⟨hread, hcount⟩, hdenotes⟩
    obtain ⟨hlegible, rfl⟩ := (readMembers_styleObject_iff hcolon hs).1 ⟨hread, hdenotes⟩
    exact ⟨hlegible, hkeys ▸ hcount⟩
  · rintro ⟨hlegible, hcount⟩
    obtain ⟨hread, hdenotes⟩ := (readMembers_styleObject_iff hcolon hs).2 ⟨hlegible, rfl⟩
    exact ⟨ds.map Declaration.member, ⟨hread, hkeys.symm ▸ hcount⟩, hdenotes⟩

example : (readObject (styleObject (parseStyle (text "a b:1")))).isNone = true := by
  decide

example : (readObject (styleObject (parseStyle (text "margin-top:1; --x y:2")))).isSome = true := by
  decide

end Viewloom.Template
