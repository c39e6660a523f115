import Viewloom.Proofs.Script.Expressions

/-!
# Tags in front of a rest

A tag holds the name of its element and then attributes and spreads. Where the script must be a
module, these are read one by one. Where it need not be one, a name may fall apart into several others;
that nothing else is read then is shown for any text in front of the end of the tag.
-/

namespace Viewloom.Script

open Viewloom.Script.Parser Viewloom.Script.Tree Template

variable {must : Bool} {g : Grammar} {c : Context} {rounds depth length n : Nat} {u : Source}
  {stop s x name tag : Text} {items others : List Item}

/-! ## Signs -/

/-- A sign is read, and the gap behind it is skipped. -/
theorem reads_sign {d : Char} {Q : Unit → Source → Prop} (hu : u.rest = d :: x)
    (h : Skips must x (Q ())) : Reads must (sign d) u Q := by
  unfold sign
  refine Reads.token ?_ h
  simp [hu, Text.stripStart]

theorem reads_sign_solid {d : Char} {Q : Unit → Source → Prop} (hu : u.rest = d :: x)
    (hx : isSolid x = true) (h : Q () ⟨x, false, []⟩) : Reads must (sign d) u Q :=
  reads_sign hu (skips_of_isSolid hx h)

/-- Whether a sign comes next is seen without reading it. -/
@[simp]
theorem reads_atSign_iff {d : Char} {Q : Bool → Source → Prop} :
    Reads must (atSign d) u Q ↔ Q (u.rest.head? == some d) u := by
  simp [atSign]

/-- A character that has to be there is read if it comes next. -/
theorem reads_rawChar_of {d : Char} {Q : Unit → Source → Prop}
    (h : ∀ x, u.rest = d :: x → Q () (Source.raw x)) : Reads false (rawChar d) u Q := by
  cases hu : u.rest with
  | nil => simp [Reads, rawChar, rawToken, Text.stripStart, hu]
  | cons e x =>
      by_cases hd : d = e
      · subst hd
        exact Reads.rawChar hu (h x hu)
      · simp [Reads, rawChar, rawToken, Text.stripStart, hu, hd]

theorem skips_space {P : Source → Prop} (h : Skips must s P) : Skips must (' ' :: s) P := by
  have hgap : Source.ofText (' ' :: s) = Source.ofText s := by
    simp only [Source.ofText, gap, scanGap_blank (show isBlank ' ' = true by decide)]
    rfl
  rwa [Skips, hgap]

/-! ## What stands in a tag -/

/-- Whether a text begins as a name does. -/
def startsName : Text → Bool
  | d :: _ => isNameStart d
  | [] => false

theorem eq_cons_of_startsName (h : startsName s = true) :
    ∃ d t, s = d :: t ∧ isNameStart d = true := by
  cases s with
  | nil => simp [startsName] at h
  | cons d t => exact ⟨d, t, rfl, h⟩

theorem isSolid_of_startsName (h : startsName s = true) : isSolid s = true := by
  obtain ⟨d, t, rfl, hd⟩ := eq_cons_of_startsName h
  simp [isSolid, isBlank_of_isNameStart hd, ne_of_isNameStart hd (show isNameStart '/' = false by decide)]

theorem startsName_append (h : startsName s = true) : startsName (s ++ x) = true := by
  obtain ⟨d, t, rfl, hd⟩ := eq_cons_of_startsName h
  exact hd

/-- Whether a character is part of no line terminator. -/
def isInline (d : Char) : Bool := d != '\n' && d != '\r'

/-- An expression on one line that braces enclose, and that requires nothing. -/
structure Enclosed (must : Bool) (e : Text) : Prop where
  inline : e.all isInline = true
  solid : ∀ x, isSolid (e ++ x) = true
  reads : ∀ rounds depth c x u, Source.rest u = e ++ '\x7d' :: x →
    Suffices 1 rounds depth u.rest.length →
      Reads must (assignment (grammarWithin rounds depth) c) u fun t v =>
        t.Needs [] ∧ v.rest = '\x7d' :: x

/-- Whether a character of a tag begins no value, no spread and no end of the tag or of a line. -/
def isInert (d : Char) : Bool := !(['\x7b', '=', '/', '>', '\n', '\r'].contains d)

/-- A simple name in a tag. -/
def isTagName : Text → Bool
  | [] => false
  | d :: w => isNameStart d && w.all isTagPart

/-- Whether no simple name goes on with a text. -/
def endsTagName : Text → Bool
  | [] => true
  | d :: _ => !isTagPart d

/-- Whether a text is the name of an attribute. -/
def isAttributeName (name : Text) : Bool :=
  match Text.splitOnce [':'] name with
  | none => isTagName name
  | some (space, part) => isTagName space && isTagName part

/-- The members behind the name of an element. -/
def isMember (member : Text) : Bool := isTagName member && !member.contains '-'

/-- Whether a text is the name of an element. -/
def isElementName (tag : Text) : Bool :=
  match Text.splitOnce [':'] tag with
  | some (space, part) => isTagName space && isTagName part
  | none =>
    match List.splitOnP (· == '.') tag with
    | [] => false
    | head :: members => isTagName head && members.all isMember

/-- A text in the place of an attribute's name, which must be one if the script must be a module. -/
def IsName (must : Bool) (name : Text) : Prop :=
  name.all isInert = true ∧ (must = true → isAttributeName name = true)

/-- A text in the place of an element's name. -/
def IsTag (must : Bool) (tag : Text) : Prop :=
  startsName tag = true ∧ tag.all isInert = true ∧ (must = true → isElementName tag = true)

/-- Where a tag ends. -/
def EndsTag (stop : Text) : Prop := (∃ x, stop = '>' :: x) ∨ ∃ x, stop = '/' :: '>' :: x

/-- A value in quotes. -/
def inQuotes (value : Text) : Text := '"' :: (value ++ ['"'])

/-- An attribute or a spread, and what it quotes. -/
inductive Piece (must : Bool) : List Item → Text → Prop where
  | flag {name : Text} : IsName must name → Piece must [] name
  | quoted {name value : Text} : IsName must name → '"' ∉ value →
    Piece must [.quoted (inQuotes value)] (name ++ '=' :: inQuotes value)
  | braces {name e : Text} : IsName must name → Enclosed must e →
    Piece must [] (name ++ '=' :: '\x7b' :: (e ++ ['\x7d']))
  | spread {e : Text} : Enclosed must e → Piece must [] ('\x7b' :: (text "..." ++ (e ++ ['\x7d'])))

/-- What stands in a tag between the name and the end, and what it quotes. -/
inductive Opening (must : Bool) (stop : Text) : List Item → Text → Prop where
  | stop : Opening must stop [] stop
  | blank {items : List Item} {s : Text} : Opening must stop items s →
    Opening must stop items (' ' :: s)
  | piece {items others : List Item} {p s : Text} : Piece must items p → endsTagName s = true →
    Opening must stop others s → Opening must stop (items ++ others) (p ++ s)

/-- An expression in braces. -/
theorem reads_enclosed {e : Text} {Q : Tree → Source → Prop} (he : Enclosed must e)
    (hu : u.rest = e ++ '\x7d' :: x) (hfit : Suffices 2 rounds depth u.rest.length)
    (h : ∀ t v, t.Needs [] → v.rest = '\x7d' :: x → Q t v) :
    Reads must ((grammarWithin rounds depth).assignment c) u Q := by
  apply reads_assignmentWithin hfit
  intro d _ hfit
  apply (he.reads rounds d c x u hu hfit).mono
  rintro t v ⟨ht, hv⟩
  exact h t v ht hv

/-- A quoted value without quotes inside is read up to its end. -/
theorem readTagString_append {value : Text} (hvalue : '"' ∉ value) :
    readTagString ('"' :: (value ++ '"' :: s)) = some (inQuotes value, s) := by
  have htake : (value ++ '"' :: s).takeWhile (fun d => d != '"') = value := by
    rw [List.takeWhile_append_of_pos]
    · simp
    · intro d hd
      rw [bne_iff_ne]
      rintro rfl
      exact hvalue hd
  simp [readTagString, htake, inQuotes]

/-! ## Names that have to be read -/

section Exact

variable {w : Text}

theorem startsName_of_isTagName (hw : isTagName w = true) : startsName (w ++ x) = true := by
  cases w with
  | nil => simp [isTagName] at hw
  | cons d w =>
      simp only [isTagName, Bool.and_eq_true] at hw
      exact hw.1

theorem isSolid_of_isTagName (hw : isTagName w = true) : isSolid (w ++ x) = true :=
  isSolid_of_startsName (startsName_of_isTagName hw)

/-- A name in a tag is read up to what ends it. -/
theorem readTagName_append (hw : isTagName w = true) (hx : endsTagName x = true) :
    readTagName (w ++ x) = some (w, x) := by
  have htake (w : Text) (hw : w.all isTagPart = true) : (w ++ x).takeWhile isTagPart = w := by
    rw [List.takeWhile_append_of_pos (List.all_eq_true.1 hw)]
    cases x with
    | nil => simp
    | cons d x =>
        have hd : isTagPart d = false := by simpa [endsTagName] using hx
        simp [hd]
  cases w with
  | nil => simp [isTagName] at hw
  | cons d w =>
      simp only [isTagName, Bool.and_eq_true] at hw
      simp [readTagName, hw.1, htake w hw.2]

/-- A name of a tag is read as it stands. -/
theorem reads_tagName {Q : Text → Source → Prop} (hu : u.rest = w ++ x) (hw : isTagName w = true)
    (hx : endsTagName x = true) (h : Skips must x (Q w)) : Reads must (token readTagName) u Q := by
  refine Reads.token ?_ h
  rw [hu]
  exact readTagName_append hw hx

/-- The second part of a name with a namespace. -/
theorem reads_part {part : Text} {Q : Text → Source → Prop} (hu : u.rest = ':' :: (part ++ x))
    (hpart : isTagName part = true) (hx : endsTagName x = true) (h : Skips must x (Q part)) :
    Reads must (sign ':') u fun _ v => Reads must (token readTagName) v Q := by
  apply reads_sign_solid hu (isSolid_of_isTagName hpart)
  exact reads_tagName rfl hpart hx h

/-- A name of an attribute is read as it stands, unless a colon follows. -/
theorem reads_attributeName {Q : Text → Source → Prop} (hu : u.rest = name ++ x)
    (hname : isAttributeName name = true) (hx : endsTagName x = true)
    (h : Skips must x fun v => v.rest.head? ≠ some ':' ∧ Q name v) :
    Reads must attributeName u Q := by
  unfold isAttributeName at hname
  simp only [attributeName, Reads.bind_iff, reads_atSign_iff, Reads.ite_iff, Reads.pure_iff]
  split at hname
  · apply reads_tagName hu hname hx
    apply h.mono
    rintro v - ⟨hcolon, hQ⟩
    simp [hcolon, hQ]
  · next space part hsplit =>
    simp only [Bool.and_eq_true] at hname
    obtain rfl := Text.append_of_splitOnce hsplit
    apply reads_tagName (x := ':' :: (part ++ x)) (by simp [hu]) hname.1 rfl
    apply skips_of_isSolid (x := ':' :: (part ++ x)) rfl
    constructor
    · intro _
      apply reads_part rfl hname.2 hx
      apply h.mono
      rintro v - ⟨-, hQ⟩
      simpa using hQ
    · intro hcolon
      simp at hcolon

/-- The members of an element name, each one behind its point. -/
def dotted (members : List Text) : Text := members.flatMap fun member => '.' :: member

/-- The members of a dotted name are read one by one. -/
theorem skips_tagMembers {members : List Text} {Q : Text → Source → Prop}
    (hmembers : members.all isMember = true) (hx : endsTagName x = true)
    (hn : (dotted members ++ x).length < n)
    (h : Skips must x fun v =>
      v.rest.head? ≠ some ':' ∧ v.rest.head? ≠ some '.' ∧ Q (name ++ dotted members) v) :
    Skips must (dotted members ++ x) fun v =>
      v.rest.head? ≠ some ':' ∧ Reads must (tagMembers n name) v Q := by
  induction members generalizing n name with
  | nil =>
      obtain ⟨k, rfl⟩ : ∃ k, n = k + 1 := ⟨n - 1, by omega⟩
      apply h.mono
      rintro v - ⟨hcolon, hpoint, hQ⟩
      refine ⟨hcolon, ?_⟩
      simpa [tagMembers, hpoint, dotted] using hQ
  | cons member members ih =>
      obtain ⟨k, rfl⟩ : ∃ k, n = k + 1 := ⟨n - 1, by omega⟩
      simp only [List.all_cons, Bool.and_eq_true] at hmembers
      have hmember := hmembers.1
      simp only [isMember, Bool.and_eq_true] at hmember
      have heq : dotted (member :: members) ++ x = '.' :: (member ++ (dotted members ++ x)) := by
        simp [dotted]
      have hends : endsTagName (dotted members ++ x) = true := by
        cases members with
        | nil => exact hx
        | cons => rfl
      rw [heq] at hn ⊢
      apply skips_of_isSolid (x := '.' :: (member ++ (dotted members ++ x))) rfl
      refine ⟨by simp, ?_⟩
      simp only [tagMembers, Reads.bind_iff, reads_atSign_iff, Reads.ite_iff]
      constructor
      · intro _
        apply reads_sign_solid rfl (isSolid_of_isTagName hmember.1)
        apply reads_tagName rfl hmember.1 hends
        have hlength : (dotted members ++ x).length < k := by
          simp only [List.length_cons, List.length_append] at hn ⊢
          omega
        have hrest : Skips must (dotted members ++ x) fun v =>
            v.rest.head? ≠ some ':' ∧ Reads must (tagMembers k (name ++ '.' :: member)) v Q :=
          ih hmembers.2 hlength (by simpa [dotted] using h)
        apply hrest.mono
        rintro v - ⟨-, hread⟩
        exact Reads.require hmember.2 hread
      · intro hpoint
        simp at hpoint

/-- A text is its first piece with the others behind it, a separator in front of each. -/
theorem exists_splitOnP_eq_cons {d : Char} (s : Text) :
    ∃ head members, List.splitOnP (· == d) s = head :: members ∧
      s = head ++ members.flatMap fun member => d :: member := by
  induction s with
  | nil => exact ⟨[], [], rfl, rfl⟩
  | cons e s ih =>
      obtain ⟨head, members, hsplit, hs⟩ := ih
      rw [List.splitOnP_cons_eq_if_modifyHead, hsplit]
      split
      · next heq => exact ⟨[], head :: members, rfl, by simp [beq_iff_eq.1 heq, ← hs]⟩
      · exact ⟨e :: head, members, rfl, by rw [List.cons_append, ← hs]⟩

/-- The name of an element is read with its members. -/
theorem reads_elementName {Q : Text → Source → Prop} (hu : u.rest = tag ++ x)
    (htag : isElementName tag = true) (hx : endsTagName x = true) (hg : u.rest.length < g.rounds)
    (h : Skips must x fun v => v.rest.head? ≠ some ':' ∧ v.rest.head? ≠ some '.' ∧ Q tag v) :
    Reads must (elementName g) u Q := by
  unfold isElementName at htag
  simp only [elementName, Reads.bind_iff, reads_atSign_iff, Reads.ite_iff, Reads.pure_iff]
  split at htag
  · next space part hsplit =>
    simp only [Bool.and_eq_true] at htag
    obtain rfl := Text.append_of_splitOnce hsplit
    apply reads_tagName (x := ':' :: (part ++ x)) (by simp [hu]) htag.1 rfl
    apply skips_of_isSolid (x := ':' :: (part ++ x)) rfl
    constructor
    · intro _
      apply reads_part rfl htag.2 hx
      apply h.mono
      rintro v - ⟨-, -, hQ⟩
      simpa using hQ
    · intro hcolon
      simp at hcolon
  · obtain ⟨head, members, hsplit, heq⟩ := exists_splitOnP_eq_cons (d := '.') tag
    have heq : tag = head ++ dotted members := heq
    simp only [hsplit, Bool.and_eq_true] at htag
    have hends : endsTagName (dotted members ++ x) = true := by
      cases members with
      | nil => exact hx
      | cons => rfl
    have hlength : (dotted members ++ x).length < g.rounds := by
      rw [hu, heq, List.append_assoc, List.length_append] at hg
      omega
    rw [heq] at h
    apply reads_tagName (by rw [hu, heq, List.append_assoc]) htag.1 hends
    apply (skips_tagMembers htag.2 hx hlength h).mono
    rintro v - ⟨hcolon, hread⟩
    simp [hcolon, hread]

end Exact

/-! ## Attributes that have to be read -/

/-- Whether an attribute, a spread or the end of a tag begins here. -/
def beginsPiece : Text → Bool
  | [] => false
  | d :: _ => isNameStart d || ['\x7b', '/', '>'].contains d

/-- A piece of a tag begins with a name, a brace or the end of the tag. -/
theorem head_ne_of_beginsPiece {d : Char} (h : beginsPiece s = true)
    (hd : (isNameStart d || ['\x7b', '/', '>'].contains d) = false) : s.head? ≠ some d := by
  cases s with
  | nil => simp
  | cons e s =>
      intro heq
      obtain rfl : e = d := by simpa using heq
      rw [beginsPiece, hd] at h
      cases h

theorem startsName_of_isAttributeName (hname : isAttributeName name = true) :
    startsName (name ++ x) = true := by
  unfold isAttributeName at hname
  split at hname
  · exact startsName_of_isTagName hname
  · next space part hsplit =>
    simp only [Bool.and_eq_true] at hname
    obtain rfl := Text.append_of_splitOnce hsplit
    simp only [List.append_assoc]
    exact startsName_of_isTagName hname.1

/-- A name, and what is read behind it if nothing else is an attribute. -/
theorem reads_attributeTree_name {Q : Option Tree → Source → Prop} (hu : u.rest = name ++ x)
    (hname : isAttributeName name = true) (hx : endsTagName x = true)
    (h : Skips true x fun v => v.rest.head? ≠ some ':' ∧
      (v.rest.head? = some '=' → Reads true (sign '=') v fun _ w =>
        Reads true (attributeValue g c) w fun value w => Q (some (.node .attribute name [value])) w) ∧
      (v.rest.head? ≠ some '=' → Q (some (leaf .attribute name)) v)) :
    Reads true (attributeTree g c) u Q := by
  obtain ⟨d, t, ht, hd⟩ := eq_cons_of_startsName (startsName_of_isAttributeName (x := x) hname)
  have hne (e : Char) (he : isNameStart e = false) : u.rest.head? ≠ some e := by
    rw [hu, ht, List.head?_cons, ne_eq, Option.some.injEq]
    exact ne_of_isNameStart hd he
  simp only [attributeTree, Reads.bind_iff, Reads.nextChar_iff]
  split
  · next heq => exact absurd heq (hne '\x7b' (by decide))
  · next heq => exact absurd heq (hne '/' (by decide))
  · next heq => exact absurd heq (hne '>' (by decide))
  · rw [Reads.bind_iff]
    apply reads_attributeName hu hname hx
    apply h.mono
    rintro v - ⟨hcolon, hvalue, hflag⟩
    refine ⟨hcolon, ?_⟩
    simpa [Reads.ite_iff] using ⟨hvalue, hflag⟩

/-- A quoted value is read as one item. -/
theorem reads_attributeValue_quoted {value : Text} {Q : Tree → Source → Prop}
    (hu : u.rest = '"' :: (value ++ '"' :: x)) (hvalue : '"' ∉ value)
    (h : ∀ t, t.Needs [.quoted (inQuotes value)] → Skips must x (Q t)) :
    Reads must (attributeValue g c) u Q := by
  have hread : Reads must (token readTagString) u fun source => Q (leaf .quoted source) := by
    refine Reads.token ?_ (h (leaf .quoted (inQuotes value)) (needs_quoted _))
    rw [hu]
    exact readTagString_append hvalue
  simp only [attributeValue, Reads.bind_iff, Reads.nextChar_iff, hu, List.head?_cons]
  simpa using hread

section Fit

variable (hfit : Suffices 2 rounds depth u.rest.length)
include hfit

/-- An expression between braces is read as a value with no items. -/
theorem reads_attributeValue_braces {e : Text} {Q : Tree → Source → Prop}
    (hu : u.rest = '\x7b' :: (e ++ '\x7d' :: x)) (he : Enclosed must e)
    (h : ∀ t, t.Needs [] → Skips must x (Q t)) :
    Reads must (attributeValue (grammarWithin rounds depth) c) u Q := by
  have hlength := congrArg List.length hu
  rw [List.length_cons] at hlength
  simp only [attributeValue, Reads.bind_iff, Reads.nextChar_iff, hu, List.head?_cons]
  apply reads_sign_solid hu (he.solid _)
  apply reads_enclosed he rfl
  · dsimp only
    omega
  intro t v ht hv
  exact reads_sign hv (h _ (needs_node rfl (allNeed_one ht)))

/-- A spread expression is read as an attribute with no items. -/
theorem reads_attributeTree_spread {e : Text} {Q : Option Tree → Source → Prop}
    (hu : u.rest = '\x7b' :: (text "..." ++ (e ++ '\x7d' :: x))) (he : Enclosed must e)
    (h : ∀ t, t.Needs [] → Skips must x (Q (some t))) :
    Reads must (attributeTree (grammarWithin rounds depth) c) u Q := by
  have hlength := congrArg List.length hu
  rw [List.length_cons, List.length_append] at hlength
  simp only [attributeTree, Reads.bind_iff, Reads.nextChar_iff, hu, List.head?_cons]
  apply reads_sign_solid (x := text "..." ++ (e ++ '\x7d' :: x)) hu rfl
  apply reads_mark_gap (b := []) rfl rfl (he.solid _)
  apply reads_enclosed he rfl
  · dsimp only
    omega
  intro t v ht hv
  exact reads_sign hv (h _ (needs_node rfl (allNeed_one (needs_node rfl (allNeed_one ht)))))

/-- A piece of a tag is read off it. -/
theorem reads_attributeTree_piece {p : Text} {P : Source → Prop} (hp : Piece true items p)
    (hu : u.rest = p ++ s) (hs : endsTagName s = true)
    (h : Skips true s fun v => beginsPiece v.rest = true ∧ P v) :
    Reads true (attributeTree (grammarWithin rounds depth) c) u fun found v =>
      ∃ t, found = some t ∧ t.Needs items ∧ P v := by
  cases hp with
  | flag hname =>
      apply reads_attributeTree_name hu (hname.2 rfl) hs
      apply h.mono
      rintro v - ⟨hbegins, hP⟩
      have hequals : v.rest.head? ≠ some '=' := head_ne_of_beginsPiece hbegins (by decide)
      refine ⟨head_ne_of_beginsPiece hbegins (by decide), fun heq => absurd heq hequals, fun _ => ?_⟩
      exact ⟨_, rfl, needs_leaf rfl, hP⟩
  | @quoted name value hname hvalue =>
      have hu : u.rest = name ++ '=' :: '"' :: (value ++ '"' :: s) := by simp [hu, inQuotes]
      apply reads_attributeTree_name hu (hname.2 rfl) rfl
      apply skips_of_isSolid (x := '=' :: '"' :: (value ++ '"' :: s)) rfl
      refine ⟨by simp, fun _ => ?_, fun hequals => absurd rfl hequals⟩
      apply reads_sign_solid (x := '"' :: (value ++ '"' :: s)) rfl rfl
      apply reads_attributeValue_quoted rfl hvalue
      intro t ht
      apply h.mono
      rintro v - ⟨-, hP⟩
      exact ⟨_, rfl, needs_node rfl (allNeed_one ht), hP⟩
  | @braces name e hname he =>
      have hu : u.rest = name ++ '=' :: '\x7b' :: (e ++ '\x7d' :: s) := by simp [hu]
      have hlength := congrArg List.length hu
      simp only [List.length_cons, List.length_append] at hlength
      apply reads_attributeTree_name hu (hname.2 rfl) rfl
      apply skips_of_isSolid (x := '=' :: '\x7b' :: (e ++ '\x7d' :: s)) rfl
      refine ⟨by simp, fun _ => ?_, fun hequals => absurd rfl hequals⟩
      apply reads_sign_solid (x := '\x7b' :: (e ++ '\x7d' :: s)) rfl rfl
      refine reads_attributeValue_braces ?_ rfl he ?_
      · simp only [List.length_cons, List.length_append]
        omega
      intro t ht
      apply h.mono
      rintro v - ⟨-, hP⟩
      exact ⟨_, rfl, needs_node rfl (allNeed_one ht), hP⟩
  | @spread e he =>
      have hu : u.rest = '\x7b' :: (text "..." ++ (e ++ '\x7d' :: s)) := by simp [hu]
      apply reads_attributeTree_spread hfit hu he
      intro t ht
      apply h.mono
      rintro v - ⟨-, hP⟩
      exact ⟨t, rfl, ht, hP⟩

end Fit

theorem startsPiece {p : Text} (hp : Piece true items p) : beginsPiece (p ++ s) = true := by
  have hname {name t : Text} (h : IsName true name) : beginsPiece (name ++ t) = true := by
    obtain ⟨d, y, hy, hd⟩ := eq_cons_of_startsName (startsName_of_isAttributeName (x := t) (h.2 rfl))
    simp [hy, beginsPiece, hd]
  cases hp with
  | flag h => exact hname h
  | quoted h _ =>
      rw [List.append_assoc]
      exact hname h
  | braces h _ =>
      rw [List.append_assoc]
      exact hname h
  | spread _ => rfl

theorem isSolid_piece {p : Text} (hp : Piece true items p) : isSolid (p ++ s) = true := by
  have hname {name t : Text} (h : IsName true name) : isSolid (name ++ t) = true :=
    isSolid_of_startsName (startsName_of_isAttributeName (h.2 rfl))
  cases hp with
  | flag h => exact hname h
  | quoted h _ =>
      rw [List.append_assoc]
      exact hname h
  | braces h _ =>
      rw [List.append_assoc]
      exact hname h
  | spread _ => rfl

theorem ofText_stop (hstop : EndsTag stop) : Source.ofText stop = some ⟨stop, false, []⟩ := by
  rcases hstop with ⟨x, rfl⟩ | ⟨x, rfl⟩
  · exact Source.ofText_of_isSolid rfl
  · rw [Source.ofText, gap, scanGap.eq_def]
    rfl

/-- At the end of a tag no attribute is read. -/
theorem reads_attributeTree_stop {Q : Option Tree → Source → Prop} (hstop : EndsTag stop)
    (hu : u.rest = stop) (h : Q none u) : Reads must (attributeTree g c) u Q := by
  rcases hstop with ⟨x, rfl⟩ | ⟨x, rfl⟩ <;> simpa [attributeTree, hu] using h

/-- All attributes of a tag are read. -/
theorem Opening.skips (hstop : EndsTag stop) (h : Opening true stop items s)
    (hfit : Suffices 2 rounds depth s.length) (hn : s.length < n) :
    Skips true s fun u => beginsPiece u.rest = true ∧
      Reads true (many (attributeTree (grammarWithin rounds depth) c) n) u fun ts v =>
        AllNeed items ts ∧ v.rest = stop := by
  induction h generalizing n with
  | stop =>
      obtain ⟨k, rfl⟩ : ∃ k, n = k + 1 := ⟨n - 1, by omega⟩
      rw [Skips, ofText_stop hstop]
      constructor
      · rcases hstop with ⟨x, rfl⟩ | ⟨x, rfl⟩ <;> rfl
      · simp only [many, Reads.bind_iff]
        exact reads_attributeTree_stop hstop rfl ⟨allNeed_nil, rfl⟩
  | blank _ ih =>
      rw [List.length_cons] at hfit hn
      exact skips_space (ih (by omega) (by omega))
  | @piece _ _ p s hp hs _ ih =>
      have hlength : 0 < p.length := by
        rw [List.length_pos_iff]
        rintro rfl
        exact absurd (startsPiece (s := []) hp) (by decide)
      rw [List.length_append] at hn
      have hfit' : Suffices 2 rounds depth s.length := by
        rw [List.length_append] at hfit
        omega
      obtain ⟨k, rfl⟩ : ∃ k, n = k + 1 := ⟨n - 1, by omega⟩
      have hrest := ih (n := k) hfit' (by omega)
      apply skips_of_isSolid (isSolid_piece hp)
      refine ⟨startsPiece hp, ?_⟩
      simp only [many, Reads.bind_iff]
      apply (reads_attributeTree_piece hfit hp rfl hs hrest).mono
      rintro found v ⟨t, rfl, ht, hmore⟩
      rw [Reads.bind_iff]
      apply hmore.mono
      rintro ts w ⟨hts, hw⟩
      exact ⟨allNeed_cons ht hts, hw⟩

end Viewloom.Script
