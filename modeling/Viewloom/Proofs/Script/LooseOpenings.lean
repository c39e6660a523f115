import Viewloom.Proofs.Script.Openings

/-!
# Tags with any names

Where a script need not be a module, the names in a tag need not be read as they stand: other
characters may end them early. What follows is still a part of the same tag in front of its end.
-/

namespace Viewloom.Script

open Viewloom.Script.Parser Viewloom.Script.Tree Template

variable {must : Bool} {g : Grammar} {c : Context} {rounds depth length n : Nat} {u : Source}
  {stop s x name tag : Text} {items others : List Item}

/-! ## Names that may fall apart -/

/-- What stands in a tag, as far as it is known without telling names apart, and what it quotes. -/
inductive Loose (stop : Text) : List Item → Text → Prop where
  | stop : Loose stop [] stop
  | char {items : List Item} {d : Char} {s : Text} : isInert d = true → Loose stop items s →
    Loose stop items (d :: s)
  | quoted {items : List Item} {value s : Text} : '"' ∉ value → Loose stop items s →
    Loose stop (.quoted (inQuotes value) :: items) ('=' :: '"' :: (value ++ '"' :: s))
  | braces {items : List Item} {e s : Text} : Enclosed false e → Loose stop items s →
    Loose stop items ('=' :: '\x7b' :: (e ++ '\x7d' :: s))
  | spread {items : List Item} {e s : Text} : Enclosed false e → Loose stop items s →
    Loose stop items ('\x7b' :: (text "..." ++ (e ++ '\x7d' :: s)))

/-- What is left in a tag of a length. -/
structure Left (stop : Text) (length : Nat) (items : List Item) (s : Text) : Prop where
  loose : Loose stop items s
  short : s.length ≤ length

/-- A part of a name in a tag ends nothing in the tag. -/
theorem isInert_of_isTagPart {d : Char} (hd : isTagPart d = true) : isInert d = true := by
  rw [isInert, Bool.not_eq_true', ← Bool.not_eq_true]
  intro hmem
  have hnone : (['\x7b', '=', '/', '>', '\n', '\r'] : Text).all (fun d => !isTagPart d) = true := by
    decide
  simpa [hd] using List.all_eq_true.1 hnone d (List.contains_iff_mem.1 hmem)

theorem isInert_of_isNameStart {d : Char} (hd : isNameStart d = true) : isInert d = true := by
  rw [isInert, Bool.not_eq_true', ← Bool.not_eq_true]
  intro hmem
  have hnone : (['\x7b', '=', '/', '>', '\n', '\r'] : Text).all (fun d => !isNameStart d) = true := by
    decide
  simpa [hd] using List.all_eq_true.1 hnone d (List.contains_iff_mem.1 hmem)

theorem ne_of_isInert {d e : Char} (hd : isInert d = true) (he : isInert e = false) : d ≠ e := by
  rintro rfl
  simp [he] at hd

/-- Where no gap begins, none is skipped. -/
theorem rest_of_scanGap {hasBreak : Bool} {gap : Gap} (hs : isSolid s = true)
    (hgap : scanGap .between [] false hasBreak [] s = some gap) : gap.rest = s := by
  rw [scanGap_of_isSolid hs] at hgap
  cases hgap
  rfl

namespace Loose

theorem append_chars (hname : name.all isInert = true) (h : Loose stop items s) :
    Loose stop items (name ++ s) := by
  induction name with
  | nil => exact h
  | cons d name ih =>
      simp only [List.all_cons, Bool.and_eq_true] at hname
      exact .char hname.1 (ih hname.2)

/-- A piece of a tag in front of a tag's rest adds its items. -/
theorem append_piece {p : Text} (hp : Piece false items p) (h : Loose stop others s) :
    Loose stop (items ++ others) (p ++ s) := by
  cases hp with
  | flag hname => exact h.append_chars hname.1
  | quoted hname hvalue => simpa [inQuotes] using (h.quoted hvalue).append_chars hname.1
  | braces hname he => simpa using (h.braces he).append_chars hname.1
  | spread he => simpa using h.spread he

/-- What is known of a tag with its names is known without telling them apart. -/
theorem of_opening (h : Opening false stop items s) : Loose stop items s := by
  induction h with
  | stop => exact .stop
  | blank _ ih => exact ih.char (by decide)
  | piece hp _ _ ih => exact ih.append_piece hp

variable (hstop : EndsTag stop)
include hstop

/-- An inert character in front of a tag's rest can be left out. -/
theorem of_char {d : Char} (hd : isInert d = true) (h : Loose stop items (d :: s)) :
    Loose stop items s := by
  generalize hs : d :: s = t at h
  cases h with
  | stop =>
      rcases hstop with ⟨x, rfl⟩ | ⟨x, rfl⟩
      · cases hs
        exact absurd hd (by decide)
      · cases hs
        exact absurd hd (by decide)
  | char _ h =>
      cases hs
      exact h
  | quoted => cases hs; exact absurd hd (by decide)
  | braces => cases hs; exact absurd hd (by decide)
  | spread => cases hs; exact absurd hd (by decide)

omit hstop in
/-- A tag ends where a slash or its last sign stands. -/
theorem eq_stop {d : Char} (hd : d = '/' ∨ d = '>') (h : Loose stop items (d :: s)) :
    items = [] ∧ d :: s = stop := by
  have hinert : isInert d = false := by rcases hd with rfl | rfl <;> decide
  generalize hs : d :: s = t at h
  cases h with
  | stop => exact ⟨rfl, rfl⟩
  | char hd' h =>
      cases hs
      simp [hinert] at hd'
  | quoted => cases hs; rcases hd with hd | hd <;> exact absurd hd (by decide)
  | braces => cases hs; rcases hd with hd | hd <;> exact absurd hd (by decide)
  | spread => cases hs; rcases hd with hd | hd <;> exact absurd hd (by decide)

/-- A brace that begins no value spreads an expression into the tag. -/
theorem of_brace (h : Loose stop items ('\x7b' :: x)) :
    ∃ e s, x = text "..." ++ (e ++ '\x7d' :: s) ∧ Enclosed false e ∧ Loose stop items s := by
  generalize hs : '\x7b' :: x = t at h
  cases h with
  | stop => rcases hstop with ⟨y, rfl⟩ | ⟨y, rfl⟩ <;> cases hs
  | char hd =>
      cases hs
      exact absurd hd (by decide)
  | quoted => cases hs
  | braces => cases hs
  | spread he h =>
      cases hs
      exact ⟨_, _, rfl, he, h⟩

/-- Behind an equals sign stands a quoted value or an expression between braces. -/
theorem of_equals (h : Loose stop items ('=' :: x)) :
    (∃ value s rest, x = '"' :: (value ++ '"' :: s) ∧ '"' ∉ value ∧
      items = .quoted (inQuotes value) :: rest ∧ Loose stop rest s) ∨
      ∃ e s, x = '\x7b' :: (e ++ '\x7d' :: s) ∧ Enclosed false e ∧ Loose stop items s := by
  generalize hs : '=' :: x = t at h
  cases h with
  | stop => rcases hstop with ⟨y, rfl⟩ | ⟨y, rfl⟩ <;> cases hs
  | char hd =>
      cases hs
      exact absurd hd (by decide)
  | quoted hvalue h =>
      cases hs
      exact .inl ⟨_, _, _, rfl, hvalue, rfl, h⟩
  | braces he h =>
      cases hs
      exact .inr ⟨_, _, rfl, he, h⟩
  | spread => cases hs

/-- What is left behind a gap is still in front of the same end of the tag. -/
theorem scanGap (h : Loose stop items s) {hasBreak : Bool} {gap : Gap}
    (hgap : Script.scanGap .between [] false hasBreak [] s = some gap) :
    Left stop s.length items gap.rest := by
  induction h generalizing hasBreak with
  | stop =>
      rcases hstop with ⟨x, rfl⟩ | ⟨x, rfl⟩
      · rw [rest_of_scanGap rfl hgap]
        exact ⟨.stop, Nat.le_refl _⟩
      · rw [scanGap.eq_def] at hgap
        cases hgap
        exact ⟨.stop, Nat.le_refl _⟩
  | @char _ d s hd hs ih =>
      cases hblank : isBlank d with
      | true =>
          rw [scanGap_blank hblank] at hgap
          exact ⟨(ih hgap).loose, Nat.le_succ_of_le (ih hgap).short⟩
      | false =>
          have hslash : d ≠ '/' := ne_of_isInert hd (by decide)
          rw [rest_of_scanGap (by simp [isSolid, hblank, hslash]) hgap]
          exact ⟨hs.char hd, Nat.le_refl _⟩
  | quoted hvalue hs _ =>
      rw [rest_of_scanGap rfl hgap]
      exact ⟨hs.quoted hvalue, Nat.le_refl _⟩
  | braces he hs _ =>
      rw [rest_of_scanGap rfl hgap]
      exact ⟨hs.braces he, Nat.le_refl _⟩
  | spread he hs _ =>
      rw [rest_of_scanGap rfl hgap]
      exact ⟨hs.spread he, Nat.le_refl _⟩

/-- What is left behind the characters of a name is still in front of the same end. -/
theorem dropWhile (h : Loose stop items s) :
    Left stop s.length items (s.dropWhile isTagPart) := by
  induction s with
  | nil => exact ⟨h, Nat.le_refl _⟩
  | cons d s ih =>
      cases hd : isTagPart d with
      | true =>
          have hrest := ih (h.of_char hstop (isInert_of_isTagPart hd))
          rw [List.dropWhile_cons_of_pos hd]
          exact ⟨hrest.loose, Nat.le_succ_of_le hrest.short⟩
      | false =>
          rw [List.dropWhile_cons_of_neg (by simp [hd])]
          exact ⟨h, Nat.le_refl _⟩

/-- What is left behind a name is still in front of the same end. -/
theorem readTagName (h : Loose stop items s) {rest : Text}
    (hread : Script.readTagName s = some (name, rest)) : Left stop s.length items rest := by
  cases s with
  | nil => simp [Script.readTagName] at hread
  | cons d s =>
      simp only [Script.readTagName, Text.drop_length_takeWhile] at hread
      split at hread
      · next hd =>
          cases hread
          have hrest := (h.of_char hstop (isInert_of_isNameStart hd)).dropWhile hstop
          exact ⟨hrest.loose, Nat.le_succ_of_le hrest.short⟩
      · cases hread

end Loose

namespace Left

theorem mono {more : Nat} (h : Left stop length items s) (hmore : length ≤ more) :
    Left stop more items s :=
  ⟨h.loose, Nat.le_trans h.short hmore⟩

variable (hstop : EndsTag stop)
include hstop

theorem skips (h : Left stop length items s) :
    Skips false s fun u => Left stop length items u.rest := by
  unfold Skips
  split
  · next u hu =>
    obtain ⟨gap, hgap, rfl⟩ := Option.map_eq_some_iff.1 hu
    exact (h.loose.scanGap hstop hgap).mono h.short
  · rfl

/-- Whatever name is read in a tag, the items of the tag are still to come. -/
theorem reads_tagName {Q : Text → Source → Prop} (hu : Left stop length items u.rest)
    (h : ∀ name v, Left stop length items v.rest → Q name v) : Reads false (token readTagName) u Q := by
  rw [Reads.token_iff]
  refine ⟨fun name x hread => ?_, fun _ => rfl⟩
  have hrest := (hu.loose.readTagName hstop hread).mono hu.short
  apply (hrest.skips hstop).mono
  intro v _ hv
  exact h name v hv

/-- A point or a colon in a name is passed over. -/
theorem reads_sign_inert {d : Char} {Q : Unit → Source → Prop} (hd : isInert d = true)
    (hu : Left stop length items u.rest) (hhead : u.rest.head? = some d)
    (h : ∀ v, Left stop length items v.rest → Q () v) : Reads false (sign d) u Q := by
  obtain ⟨x, hx⟩ := List.head?_eq_some_iff.1 hhead
  obtain ⟨hloose, hshort⟩ := hu
  rw [hx] at hloose hshort
  apply reads_sign hx
  have hrest : Left stop length items x := ⟨hloose.of_char hstop hd, Nat.le_of_succ_le hshort⟩
  apply (hrest.skips hstop).mono
  intro v _ hv
  exact h v hv

/-- Whatever name of an attribute is read, the items of the tag are still to come. -/
theorem reads_attributeName {Q : Text → Source → Prop} (hu : Left stop length items u.rest)
    (h : ∀ name v, Left stop length items v.rest → Q name v) : Reads false attributeName u Q := by
  simp only [attributeName, Reads.bind_iff, reads_atSign_iff, Reads.ite_iff, Reads.pure_iff,
    beq_iff_eq]
  apply hu.reads_tagName hstop
  intro name v hv
  refine ⟨fun hcolon => ?_, fun _ => h name v hv⟩
  apply hv.reads_sign_inert hstop (by decide) hcolon
  intro w hw
  apply hw.reads_tagName hstop
  intro part x hx
  exact h _ x hx

/-- Whatever members of a name are read, the items of the tag are still to come. -/
theorem reads_tagMembers {Q : Text → Source → Prop} (hu : Left stop length items u.rest)
    (h : ∀ name v, Left stop length items v.rest → Q name v) : Reads false (tagMembers n name) u Q := by
  induction n generalizing u name with
  | zero => simp [tagMembers]
  | succ n ih =>
      simp only [tagMembers, Reads.bind_iff, reads_atSign_iff, Reads.ite_iff, Reads.pure_iff,
        Reads.require_iff, beq_iff_eq]
      refine ⟨fun hpoint => ?_, fun _ => h name u hu⟩
      apply hu.reads_sign_inert hstop (by decide) hpoint
      intro v hv
      apply hv.reads_tagName hstop
      intro member w hw
      refine ⟨fun _ => ih hw, fun _ => trivial⟩

/-- Whatever name of an element is read, the items of the tag are still to come. -/
theorem reads_elementName {Q : Text → Source → Prop} (hu : Left stop length items u.rest)
    (h : ∀ name v, Left stop length items v.rest → Q name v) : Reads false (elementName g) u Q := by
  simp only [elementName, Reads.bind_iff, reads_atSign_iff, Reads.ite_iff, Reads.pure_iff,
    beq_iff_eq]
  apply hu.reads_tagName hstop
  intro name v hv
  refine ⟨fun hcolon => ?_, fun _ => hv.reads_tagMembers hstop h⟩
  apply hv.reads_sign_inert hstop (by decide) hcolon
  intro w hw
  apply hw.reads_tagName hstop
  intro part x hx
  exact h _ x hx

/-! ## Attributes behind names that may fall apart -/

variable (hfit : Suffices 2 rounds depth length)
include hfit

/-- A value that is read has its own items, and the others are still to come. -/
theorem reads_attributeValue {Q : Tree → Source → Prop}
    (hequals : Left stop length items ('=' :: u.rest))
    (h : ∀ own rest t v, items = own ++ rest → t.Needs own → Left stop length rest v.rest → Q t v) :
    Reads false (attributeValue (grammarWithin rounds depth) c) u Q := by
  have hshort := hequals.short
  rw [List.length_cons] at hshort
  rcases hequals.loose.of_equals hstop with ⟨value, s, rest, hu, hvalue, rfl, hs⟩ | ⟨e, s, hu, he, hs⟩
  · apply reads_attributeValue_quoted hu hvalue
    intro t ht
    have hlength := congrArg List.length hu
    simp only [List.length_cons, List.length_append] at hlength
    have hrest : Left stop length rest s := ⟨hs, by omega⟩
    apply (hrest.skips hstop).mono
    intro v _ hv
    exact h [_] rest t v rfl ht hv
  · refine reads_attributeValue_braces (by omega) hu he ?_
    intro t ht
    have hlength := congrArg List.length hu
    simp only [List.length_cons, List.length_append] at hlength
    have hrest : Left stop length items s := ⟨hs, by omega⟩
    apply (hrest.skips hstop).mono
    intro v _ hv
    exact h [] items t v rfl ht hv

/-- An attribute takes what it quotes off the tag, and none is left at the end of a tag. -/
theorem reads_attributeTree (hu : Left stop length items u.rest) :
    Reads false (attributeTree (grammarWithin rounds depth) c) u fun found v =>
      match found with
      | none => items = [] ∧ v.rest = stop
      | some t => ∃ own rest, items = own ++ rest ∧ t.Needs own ∧ Left stop length rest v.rest := by
  by_cases hbrace : u.rest.head? = some '\x7b'
  · obtain ⟨x, hx⟩ := List.head?_eq_some_iff.1 hbrace
    obtain ⟨hloose, hshort⟩ := hu
    rw [hx] at hloose
    obtain ⟨e, s, rfl, he, hs⟩ := hloose.of_brace hstop
    have hrest : Left stop length items s := by
      refine ⟨hs, ?_⟩
      simp only [hx, List.length_cons, List.length_append] at hshort
      omega
    refine reads_attributeTree_spread (by omega) hx he ?_
    intro t ht
    apply (hrest.skips hstop).mono
    intro v _ hv
    exact ⟨[], items, rfl, ht, hv⟩
  simp only [attributeTree, Reads.bind_iff, Reads.nextChar_iff]
  split
  · next hhead => exact absurd hhead hbrace
  · next hhead =>
      obtain ⟨x, hx⟩ := List.head?_eq_some_iff.1 hhead
      rw [Reads.pure_iff, hx]
      have hloose := hu.loose
      rw [hx] at hloose
      exact hloose.eq_stop (.inl rfl)
  · next hhead =>
      obtain ⟨x, hx⟩ := List.head?_eq_some_iff.1 hhead
      rw [Reads.pure_iff, hx]
      have hloose := hu.loose
      rw [hx] at hloose
      exact hloose.eq_stop (.inr rfl)
  · simp only [Reads.bind_iff, reads_atSign_iff, Reads.ite_iff, Reads.pure_iff, beq_iff_eq]
    apply hu.reads_attributeName hstop
    intro name v hv
    refine ⟨fun hhead => ?_, fun _ => ⟨[], items, rfl, needs_leaf rfl, hv⟩⟩
    obtain ⟨x, hx⟩ := List.head?_eq_some_iff.1 hhead
    rw [hx] at hv
    have hsolid : isSolid x = true := by
      rcases hv.loose.of_equals hstop with ⟨_, _, _, rfl, _⟩ | ⟨_, _, rfl, _⟩ <;> rfl
    apply reads_sign_solid hx hsolid
    apply reads_attributeValue hstop hfit hv
    intro own rest t w hitems ht hw
    exact ⟨own, rest, hitems, needs_node rfl (allNeed_one ht), hw⟩

/-- The attributes that are read have all the items of the tag, whatever their names. -/
theorem reads_attributes (hu : Left stop length items u.rest) :
    Reads false (many (attributeTree (grammarWithin rounds depth) c) n) u fun ts v =>
      AllNeed items ts ∧ v.rest = stop := by
  induction n generalizing u items with
  | zero => simp [many]
  | succ n ih =>
      simp only [many, Reads.bind_iff]
      apply (hu.reads_attributeTree hstop hfit).mono
      intro found v hv
      cases found with
      | none =>
          obtain ⟨rfl, hrest⟩ := hv
          exact ⟨allNeed_nil, hrest⟩
      | some t =>
          obtain ⟨own, rest, rfl, ht, hrest⟩ := hv
          simp only [Reads.bind_iff, Reads.pure_iff]
          apply (ih hrest).mono
          rintro ts w ⟨hts, hw⟩
          exact ⟨allNeed_cons ht hts, hw⟩

end Left

/-! ## Tags of both kinds -/

/-- The name of an element and everything in its tag are read. -/
theorem reads_openingTag (htag : IsTag must tag) (hstop : EndsTag stop)
    (hopening : Opening must stop items s) (hs : endsTagName s = true) (hu : u.rest = tag ++ s)
    (hfit : Suffices 2 rounds depth u.rest.length) :
    Reads must (elementName (grammarWithin rounds depth)) u fun found v =>
      (must = true → found = tag) ∧
        Reads must (many (attributeTree (grammarWithin rounds depth) c) rounds) v fun ts w =>
          AllNeed items ts ∧ w.rest = stop := by
  obtain ⟨-, hinert, hexact⟩ := htag
  cases must with
  | true =>
      have hlength := congrArg List.length hu
      rw [List.length_append] at hlength
      apply reads_elementName hu (hexact rfl) hs hfit.1
      have hfit' : Suffices 2 rounds depth s.length := by omega
      apply (hopening.skips (c := c) hstop hfit' hfit'.1).mono
      rintro v - ⟨hbegins, hread⟩
      refine ⟨head_ne_of_beginsPiece hbegins (by decide), ?_, fun _ => rfl, hread⟩
      exact head_ne_of_beginsPiece hbegins (by decide)
  | false =>
      have hleft : Left stop u.rest.length items u.rest := by
        refine ⟨?_, Nat.le_refl _⟩
        rw [hu]
        exact (Loose.of_opening hopening).append_chars hinert
      apply hleft.reads_elementName hstop
      intro found v hv
      refine ⟨by rintro ⟨⟩, ?_⟩
      exact hv.reads_attributes hstop hfit

/-- The name in a closing tag and the end of the tag are read. -/
theorem reads_closingTag (htag : IsTag must tag) (hu : u.rest = tag ++ '>' :: x)
    (hg : u.rest.length < g.rounds) :
    Reads must (elementName g) u fun found v =>
      (must = true → found = tag) ∧ Reads must (rawChar '>') v fun _ w => w.rest = x := by
  obtain ⟨-, hinert, hexact⟩ := htag
  cases must with
  | true =>
      apply reads_elementName hu (hexact rfl) rfl hg
      apply skips_of_isSolid (x := '>' :: x) rfl
      exact ⟨by simp, by simp, fun _ => rfl, Reads.rawChar rfl rfl⟩
  | false =>
      have hstop : EndsTag ('>' :: x) := .inl ⟨x, rfl⟩
      have hleft : Left ('>' :: x) u.rest.length [] u.rest := by
        refine ⟨?_, Nat.le_refl _⟩
        rw [hu]
        exact Loose.stop.append_chars hinert
      apply hleft.reads_elementName hstop
      intro found v hv
      refine ⟨by rintro ⟨⟩, ?_⟩
      apply reads_rawChar_of
      intro y hy
      have hloose := hv.loose
      rw [hy] at hloose
      obtain ⟨-, heq⟩ := hloose.eq_stop (.inr rfl)
      cases heq
      rfl

end Viewloom.Script
