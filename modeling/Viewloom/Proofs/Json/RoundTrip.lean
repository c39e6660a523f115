import Mathlib.Tactic.IntervalCases
import Viewloom.Json.Read
import Viewloom.Json.Write

/-!
# Reading what has been written

The written form of a value without numbers is read back as that value, in front of any rest, if its
arrays and objects stand in one another up to the depth that is allowed. Otherwise nothing is read.
-/

namespace Viewloom.Json

/-! ## Depth -/

mutual

/-- How deep arrays and objects stand in one another. -/
def depth : Json → Nat
  | array items => 1 + depthAll items
  | object members => 1 + depthIn members
  | _ => 0

def depthAll : List Json → Nat
  | [] => 0
  | j :: js => max (depth j) (depthAll js)

def depthIn : List (Text × Json) → Nat
  | [] => 0
  | (_, j) :: members => max (depth j) (depthIn members)

end

theorem depthAll_le_iff {items : List Json} {d : Nat} :
    depthAll items ≤ d ↔ ∀ j ∈ items, depth j ≤ d := by
  induction items with
  | nil => simp [depthAll]
  | cons j js ih => simp [depthAll, ih]

theorem depthIn_le_iff {members : List (Text × Json)} {d : Nat} :
    depthIn members ≤ d ↔ ∀ m ∈ members, depth m.2 ≤ d := by
  induction members with
  | nil => simp [depthIn]
  | cons m members ih => simp [depthIn, ih]

mutual

/-- Whether no number occurs in a value. -/
def Numberless : Json → Prop
  | number _ => False
  | array items => NumberlessAll items
  | object members => NumberlessIn members
  | _ => True

def NumberlessAll : List Json → Prop
  | [] => True
  | j :: js => Numberless j ∧ NumberlessAll js

def NumberlessIn : List (Text × Json) → Prop
  | [] => True
  | (_, j) :: members => Numberless j ∧ NumberlessIn members

end

theorem numberlessAll_iff {items : List Json} :
    NumberlessAll items ↔ ∀ j ∈ items, Numberless j := by
  induction items with
  | nil => simp [NumberlessAll]
  | cons j js ih => simp [NumberlessAll, ih]

/-! ## Strings -/

/-- The escape of a control character is read as that character. -/
theorem codePoint?_control (rest : Text) : ∀ n < 32,
    codePoint? ('0' :: '0' :: hexDigit (n / 16) :: hexDigit (n % 16) :: rest) =
      some (Char.ofNat n, rest) := by
  intro n hn
  interval_cases n <;> rfl

/-- A character of a string is read again, whether it is escaped or not. -/
theorem stringWithin_escapeChar (c : Char) (rounds : Nat) (rest : Text) :
    stringWithin (rounds + 1) (escapeChar c ++ rest) =
      (stringWithin rounds rest).map fun (value, s) => (c :: value, s) := by
  have hescape {d : Char} {s : Text} (h : escape? s = some (d, rest)) :
      stringWithin (rounds + 1) ('\\' :: s) =
        (stringWithin rounds rest).map fun (value, s) => (d :: value, s) := by
    rw [stringWithin, if_neg (by decide), if_pos rfl, h]
  have hof {n : Nat} (h : c.toNat = n) : c = Char.ofNat n := h ▸ (Char.ofNat_toNat c).symm
  rw [escapeChar]
  split_ifs with hquote hbackslash hnewline hreturn htab hback hfeed hcontrol
  · exact hescape (by rw [hquote]; rfl)
  · exact hescape (by rw [hbackslash]; rfl)
  · exact hnewline ▸ hescape rfl
  · exact hreturn ▸ hescape rfl
  · exact htab ▸ hescape rfl
  · exact hescape (by rw [hof hback]; rfl)
  · exact hescape (by rw [hof hfeed]; rfl)
  · exact hescape ((codePoint?_control rest c.toNat hcontrol).trans (by rw [Char.ofNat_toNat]))
  · rw [List.singleton_append, stringWithin, if_neg hquote, if_neg hbackslash, if_neg hcontrol]

/-- A string is read again up to its closing quotation mark. -/
theorem stringWithin_flatMap (s rest : Text) {rounds : Nat} (h : s.length < rounds) :
    stringWithin rounds (s.flatMap escapeChar ++ '"' :: rest) = some (s, rest) := by
  induction s generalizing rounds with
  | nil =>
      obtain ⟨rounds, rfl⟩ : ∃ n, rounds = n + 1 := ⟨rounds - 1, by omega⟩
      rw [List.flatMap_nil, List.nil_append, stringWithin, if_pos rfl]
  | cons c s ih =>
      obtain ⟨rounds, rfl⟩ : ∃ n, rounds = n + 1 := ⟨rounds - 1, by omega⟩
      rw [List.flatMap_cons, List.append_assoc, stringWithin_escapeChar,
        ih (by simpa using h), Option.map_some]

theorem length_le_flatMap_escapeChar (s : Text) : s.length ≤ (s.flatMap escapeChar).length := by
  have hpositive (c : Char) : 1 ≤ (escapeChar c).length := by
    rw [escapeChar]
    split_ifs <;> simp
  induction s with
  | nil => simp
  | cons c s ih =>
      have := hpositive c
      rw [List.flatMap_cons, List.length_append, List.length_cons]
      omega

/-- A written string is read back behind its opening quote. -/
theorem string?_writeString (s rest : Text) :
    string? (s.flatMap escapeChar ++ '"' :: rest) = some (s, rest) := by
  refine stringWithin_flatMap s rest ?_
  have := length_le_flatMap_escapeChar s
  rw [List.length_append]
  omega

/-! ## Items -/

section Items

variable {α : Type} {close : Char} {item : Text → Option (α × Text)} {print : α → Text}
  {Fits : α → Prop} [DecidablePred Fits]

/-- Items with commas between them are read back if each one is. -/
theorem itemsWithin_flatMap (hcomma : close ≠ ',') (hspace : isSpace close = false) {a : α}
    {as : List α}
    (h : ∀ b ∈ a :: as, ∀ rest,
      item (skipSpaces (print b ++ rest)) = if Fits b then some (b, rest) else none)
    {rounds : Nat} (hrounds : as.length < rounds) (rest : Text) :
    itemsWithin close item rounds (print a ++ as.flatMap (fun b => ',' :: print b) ++ close :: rest) =
      if ∀ b ∈ a :: as, Fits b then some (a :: as, rest) else none := by
  induction as generalizing a rounds with
  | nil =>
      obtain ⟨rounds, rfl⟩ : ∃ n, rounds = n + 1 := ⟨rounds - 1, by omega⟩
      rw [List.flatMap_nil, List.append_nil, itemsWithin, h a (by simp)]
      have hskip : skipSpaces (close :: rest) = close :: rest := by simp [skipSpaces, hspace]
      by_cases ha : Fits a <;> simp [ha, hskip]
  | cons b as ih =>
      obtain ⟨rounds, rfl⟩ : ∃ n, rounds = n + 1 := ⟨rounds - 1, by omega⟩
      have hlength : as.length < rounds := by simpa using hrounds
      have hrest := ih (fun c hc => h c (List.mem_cons_of_mem a hc)) hlength
      rw [List.append_assoc, List.flatMap_cons, List.append_assoc, List.cons_append, itemsWithin,
        h a (by simp), ← List.append_assoc]
      have hskip (s : Text) : skipSpaces (',' :: s) = ',' :: s := rfl
      by_cases ha : Fits a
      · simp only [if_pos ha, hskip, hrest]
        by_cases hall : ∀ c ∈ b :: as, Fits c
        · rw [if_pos hall, if_pos (by simpa [ha] using hall), Option.map_some]
        · rw [if_neg hall, if_neg (by simpa [ha] using hall), Option.map_none]
      · simp [ha]

/-- Printed items with commas between them. -/
def separated (print : α → Text) : List α → Text
  | [] => []
  | a :: as => print a ++ as.flatMap fun b => ',' :: print b

theorem length_le_separated (print : α → Text) (as : List α) :
    as.length ≤ (separated print as).length + 1 := by
  have htail (as : List α) : as.length ≤ (as.flatMap fun b => ',' :: print b).length := by
    induction as with
    | nil => simp
    | cons b as ih =>
        rw [List.flatMap_cons, List.length_append, List.length_cons, List.length_cons]
        omega
  cases as with
  | nil => simp
  | cons a as =>
      have := htail as
      rw [separated, List.length_append, List.length_cons]
      omega

/-- Items between two brackets are read back, none at all included. -/
theorem items?_separated (hcomma : close ≠ ',') (hspace : isSpace close = false) {as : List α}
    (hprint : ∀ b ∈ as, ∃ c s, print b = c :: s ∧ isSpace c = false ∧ c ≠ close)
    (h : ∀ b ∈ as, ∀ rest, item (print b ++ rest) = if Fits b then some (b, rest) else none)
    (rest : Text) :
    items? close item (separated print as ++ close :: rest) =
      if ∀ b ∈ as, Fits b then some (as, rest) else none := by
  cases as with
  | nil => simp [items?, separated, skipSpaces, hspace]
  | cons a as =>
      have hskip : ∀ b ∈ a :: as, ∀ rest, skipSpaces (print b ++ rest) = print b ++ rest := by
        intro b hb rest
        obtain ⟨c, s, hcons, hc, -⟩ := hprint b hb
        rw [hcons, List.cons_append, skipSpaces, List.dropWhile_cons_of_neg (by simp [hc])]
      have hitem : ∀ b ∈ a :: as, ∀ rest,
          item (skipSpaces (print b ++ rest)) = if Fits b then some (b, rest) else none := by
        intro b hb rest
        rw [hskip b hb, h b hb]
      have hlength : as.length < (separated print (a :: as) ++ close :: rest).length + 1 := by
        have := length_le_separated print (a :: as)
        simp only [List.length_append, List.length_cons] at this ⊢
        omega
      have hread := itemsWithin_flatMap hcomma hspace hitem hlength rest
      obtain ⟨c, s, hcons, -, hne⟩ := hprint a (by simp)
      rw [← separated] at hread
      have hfirst : separated print (a :: as) ++ close :: rest =
          c :: (s ++ as.flatMap (fun b => ',' :: print b) ++ close :: rest) := by
        simp [separated, hcons]
      have hskipped : skipSpaces (separated print (a :: as) ++ close :: rest) =
          separated print (a :: as) ++ close :: rest := by
        rw [separated, List.append_assoc, hskip a (by simp)]
      rw [← hread, items?, hskipped]
      rw [hfirst]
      simp only [if_neg hne]

end Items

/-! ## Values -/

/-- A member as it is written. -/
def writeMember (m : Text × Json) : Text := writeString m.1 ++ ':' :: write m.2

theorem write_array (items : List Json) :
    write (array items) = '[' :: separated write items ++ [']'] := by
  have htail (items : List Json) : writeItems items = items.flatMap fun j => ',' :: write j := by
    induction items with
    | nil => rfl
    | cons j js ih => rw [writeItems, ih, List.flatMap_cons]
  cases items with
  | nil => rw [write, separated]; rfl
  | cons j js => rw [write, htail, separated, List.cons_append]

theorem write_object (members : List (Text × Json)) :
    write (object members) = '{' :: separated writeMember members ++ ['}'] := by
  have htail (members : List (Text × Json)) :
      writeMembers members = members.flatMap fun m => ',' :: writeMember m := by
    induction members with
    | nil => rfl
    | cons m members ih =>
        rw [writeMembers, ih, List.flatMap_cons, writeMember]
        simp
  cases members with
  | nil => rw [write, separated]; rfl
  | cons m members =>
      rw [write, htail, separated, writeMember]
      simp

/-- A written value begins with a character that is neither a blank nor a closing bracket. -/
theorem exists_write_eq_cons {j : Json} (h : j.Numberless) :
    ∃ c s, j.write = c :: s ∧ isSpace c = false ∧ c ≠ ']' := by
  cases j with
  | null => exact ⟨'n', text "ull", by decide, by decide, by decide⟩
  | bool value =>
      cases value with
      | false => exact ⟨'f', text "alse", by decide, by decide, by decide⟩
      | true => exact ⟨'t', text "rue", by decide, by decide, by decide⟩
  | number spelling => exact h.elim
  | string value => exact ⟨'"', _, rfl, by decide, by decide⟩
  | array items => exact ⟨'[', _, write_array items, by decide, by decide⟩
  | object members => exact ⟨'{', _, write_object members, by decide, by decide⟩

/-- No value is written with a blank in front. -/
theorem skipSpaces_write_append {j : Json} (h : j.Numberless) (rest : Text) :
    skipSpaces (j.write ++ rest) = j.write ++ rest := by
  obtain ⟨c, s, hcons, hc, -⟩ := exists_write_eq_cons h
  rw [hcons, List.cons_append, skipSpaces, List.dropWhile_cons_of_neg (by simp [hc])]

/-- A member is read back if its value is. -/
theorem member?_writeMember {value : Text → Option (Json × Text)} {m : Text × Json} {Fits : Prop}
    [Decidable Fits] {rest : Text} (hnumberless : m.2.Numberless)
    (h : value (m.2.write ++ rest) = if Fits then some (m.2, rest) else none) :
    member? value (writeMember m ++ rest) = if Fits then some (m, rest) else none := by
  have hcons : writeMember m ++ rest =
      '"' :: (m.1.flatMap escapeChar ++ '"' :: (':' :: (m.2.write ++ rest))) := by
    simp [writeMember, writeString]
  have hskip : skipSpaces (':' :: (m.2.write ++ rest)) = ':' :: (m.2.write ++ rest) := rfl
  rw [hcons, member?, string?_writeString]
  simp only [hskip, skipSpaces_write_append hnumberless, h]
  split <;> rfl

theorem scalar?_bracket {c : Char} (h : c = '[' ∨ c = '{') (s : Text) : scalar? (c :: s) = none := by
  rcases h with rfl | rfl <;> rfl

mutual

/-- A written value is read back exactly if it is not too deep. -/
theorem valueWithin_write : ∀ (j : Json), j.Numberless → ∀ (d : Nat) (rest : Text),
    valueWithin d (j.write ++ rest) = if j.depth ≤ d then some (j, rest) else none
  | null, _, d, rest => by cases d <;> rfl
  | bool true, _, d, rest => by cases d <;> rfl
  | bool false, _, d, rest => by cases d <;> rfl
  | number _, h, _, _ => h.elim
  | string value, _, d, rest => by
      have hscalar : scalar? (write (string value) ++ rest) = some (string value, rest) := by
        rw [write, writeString, List.cons_append, List.cons_append, List.append_assoc, scalar?,
          List.singleton_append, string?_writeString, Option.map_some]
      rw [if_pos (by simp [depth])]
      cases d <;> exact hscalar
  | array items, h, d, rest => by
      have hcons : write (array items) ++ rest = '[' :: (separated write items ++ ']' :: rest) := by
        simp [write_array]
      rw [hcons, depth]
      cases d with
      | zero => rw [if_neg (by omega), valueWithin, scalar?_bracket (.inl rfl)]
      | succ d =>
          have hitems := items?_separated (by decide : ']' ≠ ',') (by decide)
            (fun j hj => exists_write_eq_cons (numberlessAll_iff.1 h j hj))
            (fun j hj => valueWithin_write_of_mem items h j hj d) rest
          rw [valueWithin, hitems]
          by_cases hdepth : ∀ j ∈ items, j.depth ≤ d
          · have := depthAll_le_iff.2 hdepth
            rw [if_pos hdepth, if_pos (by omega), Option.map_some]
          · have := mt depthAll_le_iff.1 hdepth
            rw [if_neg hdepth, if_neg (by omega), Option.map_none]
  | object members, h, d, rest => by
      have hcons : write (object members) ++ rest =
          '{' :: (separated writeMember members ++ '}' :: rest) := by
        simp [write_object]
      rw [hcons, depth]
      cases d with
      | zero => rw [if_neg (by omega), valueWithin, scalar?_bracket (.inr rfl)]
      | succ d =>
          have hmembers : items? '}' (member? (valueWithin d)) (separated writeMember members ++ '}' :: rest) =
              if ∀ m ∈ members, m.2.depth ≤ d then some (members, rest) else none :=
            items?_separated (by decide) (by decide) (fun m _ => ⟨'"', _, rfl, by decide, by decide⟩)
              (fun m hm => member?_valueWithin members h m hm d) rest
          rw [valueWithin, hmembers]
          by_cases hdepth : ∀ m ∈ members, m.2.depth ≤ d
          · have := depthIn_le_iff.2 hdepth
            rw [if_pos hdepth, if_pos (by omega), Option.map_some]
          · have := mt depthIn_le_iff.1 hdepth
            rw [if_neg hdepth, if_neg (by omega), Option.map_none]

/-- The items of an array are read again, down to the depth that is allowed. -/
theorem valueWithin_write_of_mem : ∀ (items : List Json), NumberlessAll items →
    ∀ j ∈ items, ∀ (d : Nat) (rest : Text),
      valueWithin d (j.write ++ rest) = if j.depth ≤ d then some (j, rest) else none
  | [], _, _, hj, _, _ => absurd hj List.not_mem_nil
  | i :: items, h, j, hj, d, rest => by
      rcases List.mem_cons.1 hj with heq | hj
      · rw [heq]
        exact valueWithin_write i h.1 d rest
      · exact valueWithin_write_of_mem items h.2 j hj d rest

/-- The members of an object are read again, down to the depth that is allowed. -/
theorem member?_valueWithin : ∀ (members : List (Text × Json)), NumberlessIn members →
    ∀ m ∈ members, ∀ (d : Nat) (rest : Text),
      member? (valueWithin d) (writeMember m ++ rest) =
        if m.2.depth ≤ d then some (m, rest) else none
  | [], _, _, hm, _, _ => absurd hm List.not_mem_nil
  | (name, j) :: members, h, m, hm, d, rest => by
      rcases List.mem_cons.1 hm with heq | hm
      · rw [heq]
        exact member?_writeMember h.1 (valueWithin_write j h.1 d rest)
      · exact member?_valueWithin members h.2 m hm d rest

end

/-- A value without numbers is read back from its written form exactly if it is not too deep. -/
theorem read_write {j : Json} (h : j.Numberless) :
    read j.write = if j.depth ≤ depthLimit then some j else none := by
  have hskip := skipSpaces_write_append h []
  have hvalue := valueWithin_write j h depthLimit []
  rw [List.append_nil] at hskip hvalue
  rw [read, hskip, hvalue]
  by_cases hdepth : j.depth ≤ depthLimit
  · simp [hdepth, skipSpaces]
  · simp [hdepth]

end Viewloom.Json
