import Viewloom.Proofs.Scoping.Idempotence

/-!
# Class names in selectors and attributes

A selector reads a class name up to the first character that names do not have, an attribute up to the
first blank. Both scope a name alike unless it has blanks of its own with something unscoped behind.
-/

namespace Viewloom.Css

open Unicode (isBlank isAlphabetic isNumeric isAlphanumeric)

/-- A character of a name in a stylesheet, written without an escape. -/
def isNamePoint (c : Char) : Bool := c.isAlphanum || c == '-' || c == '_' || decide (128 ≤ c.toNat)

/-- A name that can be written behind the dot of a selector without escapes. -/
structure IsClassName (name : Text) : Prop where
  ne_nil : name ≠ []
  points : name.all isNamePoint = true
  first : name.head?.any Char.isDigit = false
  second : name.head? = some '-' → name.tail.head?.any Char.isDigit = false

/-! ## Selectors -/

/-- What holds of the ASCII characters, and of all behind them, holds of every character. -/
theorem of_ascii {p : Char → Prop} (hascii : ∀ n < 128, p (Char.ofNat n))
    (hbehind : ∀ c : Char, 128 ≤ c.toNat → p c) (c : Char) : p c := by
  by_cases hn : c.toNat < 128
  · rw [← Char.ofNat_toNat c]
    exact hascii c.toNat hn
  · exact hbehind c (Nat.le_of_not_lt hn)

/-- What may stand in a class name continues a name for the scanner. -/
theorem isNameChar_of_isNamePoint {c : Char} : isNamePoint c = true → isNameChar c = true := by
  refine of_ascii (p := fun c => isNamePoint c = true → isNameChar c = true) ?_ ?_ c
  · decide +kernel
  · intro c hc
    simp [isNameChar, hc]

/-- What may stand in a class name and is no digit begins a name for the scanner. -/
theorem isNameStart_of_isNamePoint {c : Char} :
    isNamePoint c = true → c.isDigit = false → isNameStart c = true := by
  refine of_ascii
    (p := fun c => isNamePoint c = true → c.isDigit = false → isNameStart c = true) ?_ ?_ c
  · decide +kernel
  · intro c hc
    simp [isNameStart, hc]

/-- A selector reads the whole name. -/
theorem scopeSelector_dot {name : Text} (h : IsClassName name) :
    scopeSelector ('.' :: name) = '.' :: scopeClassName name := by
  obtain ⟨c, s, rfl⟩ := List.exists_cons_of_ne_nil h.ne_nil
  have hpoint : isNamePoint c = true := List.all_eq_true.1 h.points c (by simp)
  have hstart := isNameStart_of_isNamePoint hpoint (by simpa using h.first)
  have hclass : namesClass 0 '.' (c :: s) = true := by simp [namesClass, hstart]
  have hchars : (c :: s).all isNameChar = true :=
    List.all_eq_true.2 fun d hd => isNameChar_of_isNamePoint (List.all_eq_true.1 h.points d hd)
  have hsplit : splitName (c :: s) = (c :: s, []) := by
    simpa [splitName] using splitName_append_right hchars []
  rw [scopeSelector, scopeSelectorAt, if_neg (by decide), if_pos hclass, hsplit,
    scopeSelectorAt_eq_nil rfl, List.append_nil]
  simp

/-! ## Attributes -/

/-- Nothing at the beginning of a text is to be scoped. -/
def BeginsScoped (s : Text) : Prop :=
  s.head?.all isBlank = true ∨ classScope.isPrefixOf s = true

/-- Whatever begins behind a blank is scoped already. -/
def RestScoped (s : Text) : Prop :=
  ∀ u b v, s = u ++ b :: v → isBlank b = true → BeginsScoped v

theorem restScoped_cons {c : Char} {s : Text} :
    RestScoped (c :: s) ↔ (isBlank c = true → BeginsScoped s) ∧ RestScoped s := by
  constructor
  · intro h
    exact ⟨h [] c s rfl, fun u b v hs => h (c :: u) b v (by simp [hs])⟩
  · rintro ⟨hfirst, hrest⟩ u b v hs hb
    cases u with
    | nil =>
        obtain ⟨rfl, rfl⟩ := List.cons.inj hs
        exact hfirst hb
    | cons d u => exact hrest u b v (List.cons.inj hs).2 hb

theorem beginsScoped_cons {c : Char} {s : Text} (hblank : ¬ isBlank c = true) :
    BeginsScoped (c :: s) ↔ classScope.isPrefixOf (c :: s) = true := by
  simp [BeginsScoped, hblank]

/-- Scoping leaves a text alone exactly if all names that begin in it are scoped. -/
theorem scopeNames_eq_self_iff (begun : Bool) (s : Text) :
    scopeNames begun s = s ↔ (begun = false → BeginsScoped s) ∧ RestScoped s := by
  induction s generalizing begun with
  | nil => simp [scopeNames, BeginsScoped, RestScoped]
  | cons c s ih =>
      rw [restScoped_cons, scopeNames]
      by_cases hblank : isBlank c = true
      · have hbegins : BeginsScoped (c :: s) := Or.inl (by simp [hblank])
        simp [hblank, ih, hbegins]
      · rw [if_neg hblank, beginsScoped_cons hblank]
        split
        · next hfirst =>
          simp only [List.cons.injEq, true_and, ih, Bool.true_eq_false, false_implies, hblank]
          cases begun with
          | true => simp
          | false => simpa using fun _ => by simpa using hfirst
        · next hfirst =>
          obtain ⟨rfl, hstart⟩ : begun = false ∧ ¬ classScope.isPrefixOf (c :: s) = true := by
            simpa using hfirst
          constructor
          · intro heq
            exact absurd ( List.isPrefixOf_iff_prefix.2 ⟨_, heq⟩) hstart
          · rintro ⟨hbegins, -⟩
            exact absurd (hbegins rfl) hstart

/-- An attribute scopes a name as a whole exactly if it does not begin with a blank and everything
behind its blanks is scoped. -/
theorem scopeClassAttribute_eq_iff {name : Text} (hne : name ≠ []) :
    scopeClassAttribute name = scopeClassName name ↔
      name.head?.any isBlank = false ∧ RestScoped name := by
  obtain ⟨c, s, rfl⟩ := List.exists_cons_of_ne_nil hne
  rw [scopeClassAttribute, scopeNames, restScoped_cons]
  by_cases hblank : isBlank c = true
  · rw [if_pos hblank]
    simp only [List.head?_cons, Option.any_some, hblank, Bool.true_eq_false, false_and, iff_false]
    intro heq
    have hhead := head?_scopeClassName (c :: s) []
    rw [List.append_nil, ← heq, List.head?_cons, Option.some.injEq] at hhead
    rw [hhead] at hblank
    exact absurd hblank (by decide)
  · have hrest := scopeNames_eq_self_iff true s
    simp only [Bool.true_eq_false, false_implies, true_and] at hrest
    rw [if_neg hblank, scopeClassName, Bool.false_or]
    split <;> simp [hblank, hrest]

/-- A class name is scoped alike behind the dot of a selector and in an attribute exactly if it does
not begin with a blank and everything behind its blanks is scoped already. -/
theorem scopeSelector_eq_scopeClassAttribute_iff {name : Text} (h : IsClassName name) :
    scopeSelector ('.' :: name) = '.' :: scopeClassAttribute name ↔
      name.head?.any isBlank = false ∧ RestScoped name := by
  rw [scopeSelector_dot h, ← scopeClassAttribute_eq_iff h.ne_nil, List.cons.injEq,
    eq_comm (a := scopeClassName name)]
  simp

/-- A name of letters that are not ASCII. -/
def farName : Text := [Char.ofNat 0x3b1, '-', '2', '_', Char.ofNat 0x1f600]

/-- A name outside of Latin script is scoped alike in both places. -/
theorem scopeSelector_eq_scopeClassAttribute_iff_farName : IsClassName farName ∧
    scopeSelector ('.' :: farName) = '.' :: scopeClassAttribute farName := by
  have hname : IsClassName farName := ⟨by decide, by decide +kernel, by decide, by decide⟩
  have hsolid : farName.all (fun c => !isBlank c) = true := by decide +kernel
  simp only [List.all_eq_true, Bool.not_eq_true'] at hsolid
  refine ⟨hname, (scopeSelector_eq_scopeClassAttribute_iff hname).2 ⟨by decide, ?_⟩⟩
  intro u b v hs hb
  rw [hsolid b (by simp [hs])] at hb
  cases hb

/-- A no-break space stays in the name of a selector and divides the names of an attribute. -/
example : scopeSelector ['.', 'a', Char.ofNat 0xa0, 'b'] =
      '.' :: classScope ++ ['a', Char.ofNat 0xa0, 'b'] ∧
    scopeClassAttribute ['a', Char.ofNat 0xa0, 'b'] =
      classScope ++ ['a', Char.ofNat 0xa0] ++ classScope ++ ['b'] := by
  decide +kernel

end Viewloom.Css
