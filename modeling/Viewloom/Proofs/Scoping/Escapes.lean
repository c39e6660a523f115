import Viewloom.Proofs.Scoping.Pieces

/-!
# Identifiers with escapes

A selector list is scanned for dots in front of names. The scanner knows escapes within the names of
classes only, so that an escaped dot in any other identifier looks like the dot of a class.

## Implementation notes

Behind such a dot the scanner reads a name, and there it passes over escapes again. Whether it is in a
name is therefore carried along the parts of an identifier.
-/

namespace Viewloom.Css

/-! ## Identifiers -/

/-- A part of an identifier. The blank behind the digits of a code point belongs to its escape. -/
inductive NamePart where
  | point (c : Char)
  | escape (c : Char)
  | code (digits blank : Text)
  deriving DecidableEq

def isHexDigit (c : Char) : Bool := c.isDigit || (text "abcdefABCDEF").contains c

/-- Whether a text is one blank. A line may end in two characters. -/
def isOneBlank (blank : Text) : Bool :=
  blank == ['\r', '\n'] || blank.length == 1 && blank.all isSpace

namespace NamePart

def text : NamePart → Text
  | point c => [c]
  | escape c => ['\\', c]
  | code digits blank => '\\' :: digits ++ blank

/-- Whether a part of a name is one by the grammar. -/
def isSound : NamePart → Bool
  | point c => isNamePoint c
  | escape _ => true
  | code digits blank => digits != [] && digits.all isHexDigit && isOneBlank blank

def isCode : NamePart → Bool
  | code _ _ => true
  | _ => false

def isDigit : NamePart → Bool
  | point c => c.isDigit
  | _ => false

/-- Whether a part does not look like a bracket or the quote of a string. -/
def isLegible (brackets : Char → Bool) : NamePart → Bool
  | escape c => !(isQuote c || brackets c)
  | _ => true

def textOf (ps : List NamePart) : Text := ps.flatMap text

/-- Whether an identifier can begin with some parts: with no digit, also not behind a hyphen. -/
def beginsName : List NamePart → Bool
  | [] => false
  | .point '-' :: ps => ps.head?.any fun p => !p.isDigit
  | p :: _ => !p.isDigit

end NamePart

/-- A name by the grammar: sound parts, of which the first ones may begin a name. -/
structure Identifier where
  parts : List NamePart
  sound : parts.all NamePart.isSound = true
  begins : NamePart.beginsName parts = true

def Identifier.text (name : Identifier) : Text := NamePart.textOf name.parts

namespace NamePart

/-! ## What the scanner makes of them -/

/-- What is put in front of a name that is not scoped. -/
def scopeOf (name : Text) : Text := if classScope.isPrefixOf name then [] else classScope

/-- Whether the scanner is in a name behind a part: it leaves a name behind a blank only, and an escaped
dot takes it into one unless a digit follows. -/
def inName (named : Bool) (p : NamePart) (ps : List NamePart) : Bool :=
  if named then !p.isCode else p == .escape '.' && ps.head?.any fun q => !q.isDigit

/-- What is put in behind a part. -/
def insertion (named : Bool) (p : NamePart) (ps : List NamePart) : Text :=
  if !named && inName named p ps then scopeOf (textOf ps) else []

/-- What the scanner makes of some parts, inside or outside of a name. -/
def scanned (named : Bool) : List NamePart → Text
  | [] => []
  | p :: ps => p.text ++ (insertion named p ps ++ scanned (inName named p ps) ps)

/-- Whether no escape outside of a name looks like a bracket or a quote. -/
def areLegible (named : Bool) : List NamePart → Bool
  | [] => true
  | p :: ps => (named || p.isLegible (· == '[')) && areLegible (inName named p ps) ps

/-- Whether an escaped dot outside of a name looks like the dot of a class that is not scoped. -/
def exposesDot (named : Bool) : List NamePart → Bool
  | [] => false
  | p :: ps => insertion named p ps != [] || exposesDot (inName named p ps) ps

end NamePart

/-! ## Characters that are copied -/

/-- The scanner copies a character that opens nothing and names no class. -/
theorem scopeSelectorAt_copy {depth : Nat} {c : Char} {s : Text} (hquote : isQuote c = false)
    (hslash : c = '/' → s.head? ≠ some '*') (hdot : namesClass depth c s = false)
    (hbracket : bracketDepth depth c = depth) :
    scopeSelectorAt depth (c :: s) = c :: scopeSelectorAt depth s := by
  rw [scopeSelectorAt, if_neg (by simp [hquote]), if_neg (by simp [hdot]), hbracket]
  intro t hc ht
  exact hslash hc (by rw [ht]; rfl)

/-- Whether a character means nothing in a selector list. -/
def isIdle (c : Char) : Bool :=
  !(isQuote c || c == '/' || c == '.' || c == '[' || c == ']')

/-- The scanner copies an idle character. -/
theorem scopeSelectorAt_idle {depth : Nat} {c : Char} (hc : isIdle c = true) (s : Text) :
    scopeSelectorAt depth (c :: s) = c :: scopeSelectorAt depth s := by
  simp only [isIdle, Bool.not_eq_true', Bool.or_eq_false_iff, beq_eq_false_iff_ne] at hc
  obtain ⟨⟨⟨⟨hquote, hslash⟩, hdot⟩, hopen⟩, hclose⟩ := hc
  exact scopeSelectorAt_copy hquote (fun h => absurd h hslash) (by simp [namesClass, hdot])
    (by simp [bracketDepth, hopen, hclose])

theorem scopeSelectorAt_idle_append {depth : Nat} {x : Text} (hx : x.all isIdle = true) (s : Text) :
    scopeSelectorAt depth (x ++ s) = x ++ scopeSelectorAt depth s := by
  induction x with
  | nil => rfl
  | cons c x ih =>
      simp only [List.all_cons, Bool.and_eq_true] at hx
      rw [List.cons_append, scopeSelectorAt_idle hx.1, ih hx.2, List.cons_append]

/-- The characters of names are idle. -/
theorem isIdle_of_isNamePoint {c : Char} : isNamePoint c = true → isIdle c = true := by
  refine of_ascii (p := fun c => isNamePoint c = true → isIdle c = true) ?_ ?_ c
  · decide +kernel
  · intro c hc _
    have hne (d : Char) (hd : d.toNat < 128) : c ≠ d := by
      rintro rfl
      omega
    simp [isIdle, isQuote, hne]

theorem isNamePoint_of_isHexDigit {c : Char} : isHexDigit c = true → isNamePoint c = true := by
  refine of_ascii (p := fun c => isHexDigit c = true → isNamePoint c = true) ?_ ?_ c
  · decide +kernel
  · intro c hc _
    simp [isNamePoint, hc]

theorem isSpace_of_isOneBlank {blank : Text} (h : isOneBlank blank = true) :
    blank ≠ [] ∧ blank.all isSpace = true := by
  simp only [isOneBlank, Bool.or_eq_true, Bool.and_eq_true, beq_iff_eq] at h
  rcases h with rfl | ⟨hlength, hall⟩
  · exact ⟨List.cons_ne_nil _ _, rfl⟩
  · exact ⟨List.ne_nil_of_length_eq_add_one hlength, hall⟩

theorem isIdle_of_isSpace {c : Char} (h : isSpace c = true) : isIdle c = true := by
  simp only [isSpace, Bool.or_eq_true, beq_iff_eq] at h
  rcases h with (((rfl | rfl) | rfl) | rfl) | rfl <;> decide

/-! ## Ends of identifiers -/

/-- Whether no name begins or goes on with a character, and it does not open a comment. -/
def isStop (c : Char) : Bool := !(isNameStart c || isNameChar c || c == '*')

/-- Whether a name ends where a text begins. -/
def endsIdentifier (s : Text) : Bool := s.head?.all isStop

theorem isStop_of_isSpace {c : Char} (h : isSpace c = true) : isStop c = true := by
  simp only [isSpace, Bool.or_eq_true, beq_iff_eq] at h
  rcases h with (((rfl | rfl) | rfl) | rfl) | rfl <;> decide +kernel

/-- A name ends in front of a character that neither begins nor continues one, if it is no star. -/
theorem endsIdentifier_cons {c : Char} {s : Text} :
    endsIdentifier (c :: s) = true ↔
      (isNameStart c = false ∧ isNameChar c = false) ∧ (c == '*') = false := by
  simp only [endsIdentifier, isStop, List.head?_cons, Option.all_some, Bool.not_eq_true',
    Bool.or_eq_false_iff]

section Ends

variable {s x : Text} (hs : endsIdentifier s = true)
include hs

/-- What ends an identifier begins with no point that the scanner takes into a name. -/
theorem splitName_of_endsIdentifier : splitName s = ([], s) := by
  cases s with
  | nil => rfl
  | cons c s =>
      rw [endsIdentifier_cons] at hs
      rw [splitName, if_neg (by simp [hs.1.2])]
      rintro d t rfl
      exact absurd hs.1.1 (by decide)

theorem head?_all_of_endsIdentifier : s.head?.all (fun c => !isNameChar c) = true := by
  cases s with
  | nil => rfl
  | cons c s =>
      rw [endsIdentifier_cons] at hs
      simp [hs.1.2]

/-- The part of a name that the scanner reads is scoped exactly if the whole identifier is. -/
theorem startsWith_splitName :
    classScope.isPrefixOf (splitName (x ++ s)).1 = classScope.isPrefixOf x := by
  rw [Bool.eq_iff_iff, List.isPrefixOf_iff_prefix, List.isPrefixOf_iff_prefix]
  constructor
  · intro h
    apply prefix_of_append (head?_all_of_endsIdentifier hs)
    rw [← splitName_append (x ++ s)]
    exact h.trans (List.prefix_append _ _)
  · rintro ⟨u, rfl⟩
    rw [List.append_assoc, splitName_append_right (by decide +kernel)]
    exact List.prefix_append _ _

end Ends

/-- A scoped class name is the name behind what the prefix adds to it. -/
theorem scopeClassName_eq (name : Text) : scopeClassName name = NamePart.scopeOf name ++ name := by
  unfold scopeClassName NamePart.scopeOf
  split <;> rfl

namespace NamePart

variable {named : Bool} {p : NamePart} {ps : List NamePart} {s : Text}

theorem ne_star_of_endsIdentifier (hs : endsIdentifier s = true) : s.head? ≠ some '*' := by
  intro heq
  simp [endsIdentifier, isStop, heq] at hs

/-- The parts of a name and what follows them begin with no star. -/
theorem head?_textOf_ne (hps : ps.all isSound = true) (hs : ps = [] → s.head? ≠ some '*') :
    (textOf ps ++ s).head? ≠ some '*' := by
  cases ps with
  | nil => exact hs rfl
  | cons p ps =>
      simp only [List.all_cons, Bool.and_eq_true] at hps
      cases p with
      | point c =>
          rintro heq
          obtain rfl : c = '*' := by simpa [textOf, text] using heq
          exact absurd hps.1 (by decide)
      | escape c => simp [textOf, text]
      | code digits blank => simp [textOf, text]

/-- What begins a name begins with no digit. -/
theorem any_of_beginsName (h : beginsName ps = true) : (ps.head?.any fun q => !q.isDigit) = true := by
  unfold beginsName at h
  split at h
  · cases h
  · rfl
  · exact h

/-- A dot in front of an identifier's rest looks like that of a class if no digit follows. -/
theorem namesClass_textOf (hps : ps.all isSound = true) (hs : endsIdentifier s = true) :
    namesClass 0 '.' (textOf ps ++ s) = ps.head?.any fun q => !q.isDigit := by
  have hdot : namesClass 0 '.' (textOf ps ++ s) = (textOf ps ++ s).head?.any isNameStart := rfl
  rw [hdot]
  cases ps with
  | nil =>
      cases s with
      | nil => rfl
      | cons c s =>
          rw [endsIdentifier_cons] at hs
          simpa [textOf] using hs.1.1
  | cons p ps =>
      simp only [List.all_cons, Bool.and_eq_true] at hps
      have hbackslash : isNameStart '\\' = true := by decide
      cases p with
      | point c =>
          cases hdigit : c.isDigit with
          | false => simp [textOf, text, isDigit, hdigit, isNameStart_of_isNamePoint hps.1 hdigit]
          | true =>
              have hnot : isNameStart c = false := by
                revert hdigit
                refine of_ascii (p := fun c => c.isDigit = true → isNameStart c = false) ?_ ?_ c
                · decide +kernel
                · intro c hc hdigit
                  simp only [Char.isDigit, Bool.and_eq_true, decide_eq_true_eq,
                    UInt32.le_iff_toNat_le] at hdigit
                  have hnine : c.toNat ≤ 57 := hdigit.2
                  omega
              simp [textOf, text, isDigit, hdigit, hnot]
      | escape c => simp [textOf, text, isDigit, hbackslash]
      | code digits blank => simp [textOf, text, isDigit, hbackslash]

/-- What the scanner gives for a text in front of which it is in a name or not. -/
def resume (named : Bool) (s : Text) : Text :=
  if named then (splitName s).1 ++ scopeSelectorAt 0 (splitName s).2 else scopeSelectorAt 0 s

section Code

variable {digits blank : Text} (h : (code digits blank).isSound = true)
include h

theorem all_isIdle_blank : blank.all isIdle = true := by
  simp only [isSound, Bool.and_eq_true] at h
  exact List.all_eq_true.2 fun c hc =>
    isIdle_of_isSpace (List.all_eq_true.1 (isSpace_of_isOneBlank h.2).2 c hc)

theorem all_isNamePoint_digits : digits.all isNamePoint = true := by
  simp only [isSound, Bool.and_eq_true] at h
  exact List.all_eq_true.2 fun c hc => isNamePoint_of_isHexDigit (List.all_eq_true.1 h.1.2 c hc)

theorem all_isIdle_code : (code digits blank).text.all isIdle = true := by
  have hbackslash : isIdle '\\' = true := by decide
  have hdigits : digits.all isIdle = true := List.all_eq_true.2 fun c hc =>
    isIdle_of_isNamePoint (List.all_eq_true.1 (all_isNamePoint_digits h) c hc)
  simp only [text, List.cons_append, List.all_cons, List.all_append, hbackslash, hdigits,
    all_isIdle_blank h, Bool.and_self]

theorem endsIdentifier_blank (t : Text) : endsIdentifier (blank ++ t) = true := by
  simp only [isSound, Bool.and_eq_true] at h
  obtain ⟨hne, hblank⟩ := isSpace_of_isOneBlank h.2
  obtain ⟨c, blank, rfl⟩ := List.exists_cons_of_ne_nil hne
  simp only [List.all_cons, Bool.and_eq_true] at hblank
  exact isStop_of_isSpace hblank.1

/-- A code point is read as a backslash and its digits, with the blanks behind them left over. -/
theorem splitName_code (t : Text) :
    splitName ('\\' :: (digits ++ (blank ++ t))) = ('\\' :: digits, blank ++ t) := by
  have hdigits : digits.all isNameChar = true := List.all_eq_true.2 fun c hc =>
    isNameChar_of_isNamePoint (List.all_eq_true.1 (all_isNamePoint_digits h) c hc)
  have hends := splitName_of_endsIdentifier (endsIdentifier_blank h t)
  simp only [isSound, Bool.and_eq_true, bne_iff_ne] at h
  obtain ⟨c, digits, rfl⟩ := List.exists_cons_of_ne_nil h.1.1
  simp only [List.all_cons, Bool.and_eq_true] at hdigits
  have hsplit := splitName_append_right hdigits.2 (blank ++ t)
  rw [hends, List.append_nil] at hsplit
  simp only [List.cons_append, splitName, hsplit]

end Code

/-- One part within a name. -/
theorem resume_inside (hp : p.isSound = true) (t : Text) :
    resume true (p.text ++ t) = p.text ++ resume (!p.isCode) t := by
  cases p with
  | point c =>
      have hc : [c].all isNameChar = true := by simpa using isNameChar_of_isNamePoint hp
      have hsplit := splitName_append_right hc t
      simp only [List.singleton_append] at hsplit
      simp [resume, text, isCode, hsplit]
  | escape c => simp [resume, text, isCode, splitName]
  | code digits blank =>
      have hblank : scopeSelectorAt 0 (blank ++ t) = blank ++ scopeSelectorAt 0 t :=
        scopeSelectorAt_idle_append (all_isIdle_blank hp) t
      simp [resume, isCode, splitName_code hp, hblank, text]

/-- One part outside of a name. -/
theorem resume_outside (hp : p.isSound = true) (hlegible : p.isLegible (· == '[') = true)
    (hps : ps.all isSound = true) (hs : endsIdentifier s = true) :
    resume false (p.text ++ (textOf ps ++ s)) =
      p.text ++ (insertion false p ps ++ resume (inName false p ps) (textOf ps ++ s)) := by
  cases p with
  | point c => simp [resume, text, insertion, inName, scopeSelectorAt_idle (isIdle_of_isNamePoint hp)]
  | code digits blank =>
      have hcode : scopeSelectorAt 0 ((code digits blank).text ++ (textOf ps ++ s)) =
          (code digits blank).text ++ scopeSelectorAt 0 (textOf ps ++ s) :=
        scopeSelectorAt_idle_append (all_isIdle_code hp) _
      simp [resume, insertion, inName, hcode]
  | escape c =>
      have hbackslash : isIdle '\\' = true := by decide
      simp only [isLegible, Bool.not_eq_true', Bool.or_eq_false_iff, beq_eq_false_iff_ne] at hlegible
      have htext : (escape c).text ++ (textOf ps ++ s) = '\\' :: c :: (textOf ps ++ s) := rfl
      have hnames := namesClass_textOf hps hs
      by_cases hname : inName false (escape c) ps = true
      · obtain ⟨rfl, hfirst⟩ : c = '.' ∧ (ps.head?.any fun q => !q.isDigit) = true := by
          simpa [inName] using hname
        have hscope : scopeOf (splitName (textOf ps ++ s)).1 = scopeOf (textOf ps) := by
          simp only [scopeOf, startsWith_splitName hs]
        rw [hfirst] at hnames
        rw [htext, hname, resume, if_neg (by simp), scopeSelectorAt_idle hbackslash,
          scopeSelectorAt, if_neg (by decide), if_pos hnames, scopeClassName_eq, hscope]
        · simp [resume, insertion, hname, text]
        · exact fun _ hc => absurd hc (by decide)
      · have hcopy : scopeSelectorAt 0 (c :: (textOf ps ++ s)) =
            c :: scopeSelectorAt 0 (textOf ps ++ s) := by
          apply scopeSelectorAt_copy hlegible.1 fun _ =>
            head?_textOf_ne hps fun _ => ne_star_of_endsIdentifier hs
          · by_cases hc : c = '.'
            · subst hc
              simpa [hnames, inName] using hname
            · simp [namesClass, hc]
          · simp [bracketDepth, hlegible.2]
        rw [Bool.not_eq_true] at hname
        rw [htext, hname, resume, if_neg (by simp), scopeSelectorAt_idle hbackslash, hcopy]
        simp [resume, insertion, hname, text]

/-- The scanner gives for an identifier what its parts say, inside and outside of a name. -/
theorem resume_textOf (hps : ps.all isSound = true) (hlegible : areLegible named ps = true)
    (hs : endsIdentifier s = true) :
    resume named (textOf ps ++ s) = scanned named ps ++ scopeSelectorAt 0 s := by
  induction ps generalizing named with
  | nil =>
      have hsplit := splitName_of_endsIdentifier hs
      cases named <;> simp [resume, textOf, scanned, hsplit]
  | cons p ps ih =>
      simp only [List.all_cons, Bool.and_eq_true] at hps
      simp only [areLegible, Bool.and_eq_true, Bool.or_eq_true] at hlegible
      have htext : textOf (p :: ps) ++ s = p.text ++ (textOf ps ++ s) := by simp [textOf]
      rw [htext]
      cases named with
      | true =>
          have hname : inName true p ps = !p.isCode := rfl
          rw [resume_inside hps.1, ← hname, ih hps.2 hlegible.2]
          simp [scanned, insertion]
      | false =>
          rw [resume_outside hps.1 (hlegible.1.resolve_left (by simp)) hps.2 hs, ih hps.2 hlegible.2]
          simp [scanned]

end NamePart

end Viewloom.Css
