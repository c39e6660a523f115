import Viewloom.Proofs.Script.LooseOpenings

/-!
# Children of elements in front of a rest

What stands between tags is a relation between a text and the closing tag behind it, together with the
elements in it. The induction that reads both is on the depth of the grammar, since a text between tags
is read in runs.
-/

namespace Viewloom.Script

open Viewloom.Script.Parser Viewloom.Script.Tree

variable {must : Bool} {g : Grammar} {c : Context} {rounds depth n : Nat} {u : Source}
  {stop s x tag close : Text} {items others : List Item}

/-! ## Texts and the closing tags behind them -/

/-- Whether a text begins with a name or a string in single quotes. -/
def beginsValue : Text → Bool
  | d :: _ => isNameStart d || d == '\''
  | [] => false

/-- The body of a comment in front of its end. -/
inductive Remark (stop : Text) : Text → Prop where
  | stop : Remark stop stop
  | char {d : Char} {s : Text} : (d = '*' → s.head? ≠ some '/') → Remark stop s →
    Remark stop (d :: s)

/-- What is known of the tree of an element. -/
structure IsElement (items : List Item) (t : Tree) : Prop where
  needs : t.Needs items
  kind : t.kind = .element ∨ t.kind = .closedElement

/-- What stands around an element in braces and makes an expression of it. -/
structure Framing (must : Bool) (before after : Text) : Prop where
  inline : (before ++ after).all isInline = true
  solid : ∀ x, isSolid (before ++ x) = true
  begins : beginsValue before = true
  reads : ∀ items rounds depth c o x u, startsName o = true → Source.rest u = before ++ '<' :: o →
    Suffices 2 rounds depth u.rest.length →
    (∀ d ≤ depth, ∀ c u, Source.rest u = '<' :: o → Suffices 1 rounds d u.rest.length →
      Reads must ((grammarWithin rounds d).element c) u fun t v =>
        IsElement items t ∧ v.rest = after ++ '\x7d' :: x) →
    Reads must ((grammarWithin rounds depth).assignment c) u fun t v =>
      t.Needs items ∧ v.rest = '\x7d' :: x

mutual

/-- What stands between tags in front of the closing tag, and what it quotes. -/
inductive Children (must : Bool) : List Item → Text → Text → Prop where
  | stop {stop : Text} : Children must [] stop stop
  | char {items : List Item} {stop s : Text} {d : Char} : endsElementText d = false →
    Children must items stop s → Children must items stop (d :: s)
  | comment {items : List Item} {stop b s : Text} : Remark ('*' :: '/' :: '\x7d' :: s) b →
    Children must items stop s → Children must items stop ('\x7b' :: '/' :: '*' :: b)
  | braces {items : List Item} {stop e s : Text} : Enclosed must e → beginsValue e = true →
    Children must items stop s → Children must items stop ('\x7b' :: (e ++ '\x7d' :: s))
  | element {items others : List Item} {stop s o : Text} : Element must items s o →
    Children must others stop s → Children must (items ++ others) stop ('<' :: o)
  | framed {items others : List Item} {stop before after s o : Text} : Framing must before after →
    Element must items (after ++ '\x7d' :: s) o → Children must others stop s →
    Children must (items ++ others) stop ('\x7b' :: (before ++ '<' :: o))

/-- An element behind its first sign and in front of a rest, and what it quotes. -/
inductive Element (must : Bool) : List Item → Text → Text → Prop where
  | closed {items : List Item} {rest tag s : Text} : IsTag must tag → endsTagName s = true →
    Opening must ('/' :: '>' :: rest) items s → Element must items rest (tag ++ s)
  | whole {items others : List Item} {rest tag s i : Text} : IsTag must tag → endsTagName s = true →
    Opening must ('>' :: i) items s →
    Children must others ('<' :: '/' :: (tag ++ '>' :: rest)) i →
    Element must (items ++ others) rest (tag ++ s)

end

/-- A value begins with no mark and no closing brace. -/
theorem mark_of_beginsValue (h : beginsValue s = true) (hu : u.rest = s ++ x) :
    u.mark = [] ∧ u.rest.head? ≠ some '\x7d' := by
  cases s with
  | nil => simp [beginsValue] at h
  | cons d s =>
      simp only [beginsValue, Bool.or_eq_true, beq_iff_eq] at h
      simp only [Source.mark, hu, List.cons_append, List.head?_cons, ne_eq, Option.some.injEq]
      rcases h with h | rfl
      · exact ⟨by rw [readPunctuator_of_isNameStart h], ne_of_isNameStart h (by decide)⟩
      · exact ⟨rfl, by decide⟩

/-- An element begins with a name or what opens a fragment. -/
theorem Element.startsName {rest o : Text} (h : Element must items rest o) : startsName o = true := by
  cases h with
  | closed htag _ _ => exact startsName_append htag.1
  | whole htag _ _ _ => exact startsName_append htag.1

/-! ## Lengths -/

theorem Opening.length_le (h : Opening must stop items s) : stop.length ≤ s.length := by
  induction h with
  | stop => exact Nat.le_refl _
  | blank _ ih => exact Nat.le_succ_of_le ih
  | piece _ _ _ ih =>
      rw [List.length_append]
      omega

theorem Remark.length_le (h : Remark stop s) : stop.length ≤ s.length := by
  induction h with
  | stop => exact Nat.le_refl _
  | char _ _ ih => exact Nat.le_succ_of_le ih

mutual

/-- What is left behind children is no longer than the children. -/
theorem Children.length_le {items : List Item} {stop s : Text} :
    Children must items stop s → stop.length ≤ s.length
  | .stop => Nat.le_refl _
  | .char _ hs => Nat.le_succ_of_le hs.length_le
  | .comment hb hs => by
    have hbody := hb.length_le
    have hrest := hs.length_le
    simp only [List.length_cons] at hbody ⊢
    omega
  | .braces _ _ hs => by
    have hrest := hs.length_le
    simp only [List.length_cons, List.length_append]
    omega
  | .element ho hs => by
    have helement := ho.length_lt
    have hrest := hs.length_le
    rw [List.length_cons]
    omega
  | .framed _ ho hs => by
    have helement := ho.length_lt
    have hrest := hs.length_le
    simp only [List.length_cons, List.length_append] at helement ⊢
    omega

/-- What is left behind an element is shorter than the element. -/
theorem Element.length_lt {items : List Item} {rest o : Text} :
    Element must items rest o → rest.length < o.length
  | .closed _ _ hopening => by
    have htag := hopening.length_le
    simp only [List.length_cons, List.length_append] at htag ⊢
    omega
  | .whole _ _ hopening hi => by
    have htag := hopening.length_le
    have hchildren := hi.length_le
    simp only [List.length_cons, List.length_append] at htag hchildren ⊢
    omega

end

/-- Nothing is quoted between a closing tag and itself. -/
theorem Children.items_eq_nil (h : Children must items stop s) (hs : s.length = stop.length) :
    items = [] := by
  cases h with
  | stop => rfl
  | char _ h =>
      have hrest := h.length_le
      rw [List.length_cons] at hs
      omega
  | comment hb h =>
      have hbody := hb.length_le
      have hrest := h.length_le
      simp only [List.length_cons] at hbody hs
      omega
  | braces _ _ h =>
      have hrest := h.length_le
      simp only [List.length_cons, List.length_append] at hs
      omega
  | element ho h =>
      have helement := ho.length_lt
      have hrest := h.length_le
      rw [List.length_cons] at hs
      omega
  | framed _ ho h =>
      have helement := ho.length_lt
      have hrest := h.length_le
      simp only [List.length_cons, List.length_append] at helement hs
      omega

/-! ## Runs of text -/

namespace Children

/-- A character of text in front of children can be left out. -/
theorem of_char {d : Char} (hd : endsElementText d = false)
    (h : Children must items ('<' :: stop) (d :: s)) : Children must items ('<' :: stop) s := by
  generalize ht : d :: s = t at h
  cases h with
  | stop =>
      cases ht
      exact absurd hd (by decide)
  | char _ h =>
      cases ht
      exact h
  | comment => cases ht; exact absurd hd (by decide)
  | braces => cases ht; exact absurd hd (by decide)
  | element => cases ht; exact absurd hd (by decide)
  | framed => cases ht; exact absurd hd (by decide)

/-- Children go on behind the text they begin with. -/
theorem dropWhile (h : Children must items ('<' :: stop) s) :
    Children must items ('<' :: stop) (s.dropWhile fun d => !endsElementText d) := by
  induction s with
  | nil => exact h
  | cons d s ih =>
      cases hd : endsElementText d with
      | false =>
          rw [List.dropWhile_cons_of_pos (by simp [hd])]
          exact ih (h.of_char hd)
      | true =>
          rw [List.dropWhile_cons_of_neg (by simp [hd])]
          exact h

end Children

/-! ## Comments in braces -/

/-- The comment inside of braces is a gap up to the closing brace. -/
theorem scanGap_remark {b : Text} (source : Text) (hasBreak started : Bool) (comments : List Comment)
    (hb : Remark ('*' :: '/' :: '\x7d' :: s) b) :
    ∃ gap, scanGap .inBlock source started hasBreak comments b = some gap ∧
      gap.rest = '\x7d' :: s := by
  induction hb generalizing source hasBreak with
  | stop =>
      rw [scanGap.eq_def]
      simp only
      rw [scanGap_of_isSolid rfl]
      exact ⟨_, rfl, rfl⟩
  | @char d b hd hb ih =>
      rw [scanGap.eq_def]
      simp only
      split
      · exact absurd rfl (hd rfl)
      · exact ih _ _

/-- The comment inside of braces is skipped. -/
theorem skips_remark {b : Text} {P : Source → Prop} (hb : Remark ('*' :: '/' :: '\x7d' :: s) b)
    (h : ∀ u, Source.rest u = '\x7d' :: s → P u) : Skips must ('/' :: '*' :: b) P := by
  obtain ⟨gap, hgap, hrest⟩ := scanGap_remark ['*', '/'] false false [] hb
  have hu : Source.ofText ('/' :: '*' :: b) = some ⟨gap.rest, gap.hasBreak, gap.comments⟩ := by
    rw [Source.ofText, Script.gap, scanGap.eq_def]
    simp [isLineEnd, isSpace, hgap]
  rw [Skips, hu]
  exact h _ hrest

/-! ## Reading -/

section Container

variable {e : Text} {Q : Tree → Source → Prop}

/-- A comment inside of braces is read as a container with no items. -/
theorem reads_container_comment {b : Text} (h : ∀ t, t.Needs [] → Q t (Source.raw s))
    (hb : Remark ('*' :: '/' :: '\x7d' :: s) b) (hu : u.rest = '\x7b' :: '/' :: '*' :: b) :
    Reads must (container g c) u Q := by
  simp only [container, Reads.bind_iff, Reads.source_iff]
  apply reads_sign hu
  apply skips_remark hb
  intro v hv
  simp only [reads_atSign_iff, hv, List.head?_cons, beq_self_eq_true, if_true, Reads.bind_iff]
  apply Reads.rawChar hv
  apply h
  exact needs_node rfl (allNeed_map_leaf v.comments fun d => rfl)

/-- Braces around an expression. -/
theorem reads_container_expression (hbegins : beginsValue e = true) (he : isSolid (e ++ x) = true)
    (hu : u.rest = '\x7b' :: (e ++ x))
    (h : Reads must (g.assignment c.allowIn) ⟨e ++ x, false, []⟩ fun t v =>
      v.rest = '\x7d' :: s ∧ Q (inner .container [t]) (Source.raw s)) :
    Reads must (container g c) u Q := by
  obtain ⟨hmark, hhead⟩ := mark_of_beginsValue (u := ⟨e ++ x, false, []⟩) hbegins rfl
  have hspread : Source.mark ⟨e ++ x, false, []⟩ ≠ text "..." := by
    rw [hmark]
    decide
  have hhead : ((e ++ x).head? == some '\x7d') = false := beq_eq_false_iff_ne.2 hhead
  simp only [container, Reads.bind_iff, Reads.source_iff]
  apply reads_sign_solid hu he
  simp only [reads_atSign_iff, hhead, Bool.false_eq_true, if_false, Reads.bind_iff,
    Reads.skipMark_iff]
  refine ⟨fun heq => absurd heq hspread, fun _ => ?_⟩
  apply h.mono
  rintro t v ⟨hv, hQ⟩
  exact Reads.rawChar hv hQ

/-- Braces around an expression that quotes some items. -/
theorem reads_container (h : ∀ t, t.Needs items → Q t (Source.raw s))
    (hbegins : beginsValue e = true) (he : isSolid (e ++ x) = true)
    (hu : u.rest = '\x7b' :: (e ++ x))
    (hreads : Reads must ((grammarWithin rounds depth).assignment c.allowIn) ⟨e ++ x, false, []⟩
      fun t v => t.Needs items ∧ v.rest = '\x7d' :: s) :
    Reads must (container (grammarWithin rounds depth) c) u Q := by
  apply reads_container_expression hbegins he hu
  apply hreads.mono
  rintro t v ⟨ht, hv⟩
  exact ⟨hv, h _ (needs_node rfl (allNeed_one ht))⟩

end Container

theorem gap_slash (hclose : startsName close = true) :
    gap ('/' :: close) = some ⟨false, [], '/' :: close⟩ := by
  obtain ⟨d, t, rfl, hd⟩ := eq_cons_of_startsName hclose
  have hslash : d ≠ '/' := ne_of_isNameStart hd (by decide)
  have hstar : d ≠ '*' := ne_of_isNameStart hd (by decide)
  rw [gap, scanGap.eq_def]
  simp [hslash, hstar, isLineEnd, isSpace]

section Closing

variable {Q : Bool → Source → Prop}

/-- At a closing tag the element ends. -/
theorem reads_atClosingTag_closing (hclose : startsName close = true)
    (hu : u.rest = '<' :: '/' :: close) (h : Q true u) : Reads must atClosingTag u Q := by
  simp only [atClosingTag, Reads.bind_iff, Reads.source_iff, hu, gap_slash hclose]
  exact h

/-- At an opening tag the element goes on. -/
theorem reads_atClosingTag_open {o : Text} (ho : startsName o = true) (hu : u.rest = '<' :: o)
    (h : Q false u) : Reads must atClosingTag u Q := by
  have hgap : gap o = some ⟨false, [], o⟩ := by
    rw [gap, scanGap_of_isSolid (isSolid_of_startsName ho)]
    rfl
  simp only [atClosingTag, Reads.bind_iff, Reads.source_iff, hu, hgap]
  obtain ⟨d, t, rfl, hd⟩ := eq_cons_of_startsName ho
  have hslash : (some d == some '/') = false := by
    simpa using ne_of_isNameStart hd (show isNameStart '/' = false by decide)
  simp only [List.head?_cons, hslash]
  exact h

/-- Where no tag begins the element goes on. -/
theorem reads_atClosingTag_ne {d : Char} (hd : d ≠ '<') (hu : u.rest = d :: s) (h : Q false u) :
    Reads must atClosingTag u Q := by
  simp only [atClosingTag, Reads.bind_iff, Reads.source_iff, hu]
  split
  · next heq =>
      cases heq
      exact absurd rfl hd
  · exact h

end Closing

/-- Whether all elements are read at a depth of the grammar, with what they quote. -/
def ReadsElements (must : Bool) (rounds depth : Nat) : Prop :=
  ∀ items rest o c u, Element must items rest o → Source.rest u = '<' :: o →
    Suffices 1 rounds depth u.rest.length →
      Reads must ((grammarWithin rounds depth).element c) u fun t v =>
        IsElement items t ∧ v.rest = rest

/-- One child is read off what stands between tags. -/
theorem reads_child {α : Type} {k : Tree → Parser α} {Q : α → Source → Prop}
    (helements : ∀ d ≤ depth, ReadsElements must rounds d)
    (hs : Children must items ('<' :: '/' :: close) u.rest) (hne : u.rest ≠ '<' :: '/' :: close)
    (hfit : Suffices 2 rounds depth u.rest.length)
    (h : ∀ own rest t v, items = own ++ rest → t.Needs own →
      Children must rest ('<' :: '/' :: close) v.rest → v.rest.length < u.rest.length →
        Reads must (k t) v Q) :
    Reads must atClosingTag u fun isClosing v => isClosing = false ∧ v = u ∧ Reads must (do
      let child ← do
        match ← nextChar with
        | some '<' => (grammarWithin rounds depth).element c
        | some '{' => container (grammarWithin rounds depth) c
        | _ =>
          let found ← rawToken readElementText
          pure (leaf .elementText found)
      k child) u Q := by
  generalize hu : u.rest = s at hs hne hfit h
  -- A child is told by its first character: a brace, the sign of a tag, or else text.
  cases hs with
  | stop => exact absurd rfl hne
  | @char items _ s d hd hs =>
      have hopen : d ≠ '<' ∧ d ≠ '\x7b' := by
        constructor <;>
          · rintro rfl
            exact absurd hd (by decide)
      refine reads_atClosingTag_ne hopen.1 hu ⟨rfl, rfl, ?_⟩
      simp only [Reads.bind_iff, Reads.nextChar_iff, hu, List.head?_cons]
      split
      · next heq => exact absurd (Option.some.inj heq) hopen.1
      · next heq => exact absurd (Option.some.inj heq) hopen.2
      · have hread : readElementText u.rest =
            some (d :: s.takeWhile fun d => !endsElementText d,
              s.dropWhile fun d => !endsElementText d) := by
          simp [hu, readElementText, hd, Text.drop_length_takeWhile]
        simp only [Reads.bind_iff]
        apply Reads.rawToken hread
        refine h [] items _ _ rfl (needs_leaf rfl) hs.dropWhile ?_
        have hlength : (s.dropWhile fun d => !endsElementText d).length ≤ s.length :=
          (List.dropWhile_sublist _).length_le
        simp only [Source.raw, List.length_cons]
        omega
  | @comment items _ b s hb hs =>
      have hlength := hb.length_le
      refine reads_atClosingTag_ne (by decide) hu ⟨rfl, rfl, ?_⟩
      simp only [Reads.bind_iff, Reads.nextChar_iff, hu, List.head?_cons]
      refine reads_container_comment (fun t ht => h [] items t _ rfl ht hs ?_) hb hu
      simp only [Source.raw, List.length_cons] at hlength ⊢
      omega
  | @braces items _ e s he hbegins hs =>
      refine reads_atClosingTag_ne (by decide) hu ⟨rfl, rfl, ?_⟩
      simp only [Reads.bind_iff, Reads.nextChar_iff, hu, List.head?_cons]
      refine reads_container (fun t ht => h [] items t _ rfl ht hs ?_) hbegins (he.solid _) hu ?_
      · simp only [Source.raw, List.length_cons, List.length_append]
        omega
      · refine reads_enclosed he rfl ?_ fun t v ht hv => ⟨ht, hv⟩
        rw [List.length_cons] at hfit
        dsimp only
        omega
  | @element own rest _ s o ho hs =>
      have hlength := ho.length_lt
      refine reads_atClosingTag_open ho.startsName hu ⟨rfl, rfl, ?_⟩
      simp only [Reads.bind_iff, Reads.nextChar_iff, hu, List.head?_cons]
      have hread := helements depth (Nat.le_refl depth) own s o c u ho hu (by rw [hu]; omega)
      apply hread.mono
      rintro t v ⟨ht, rfl⟩
      refine h own rest t v rfl ht.needs hs ?_
      rw [List.length_cons]
      omega
  | @framed own rest _ before after s o hframing ho hs =>
      have hlength := ho.length_lt
      rw [List.length_append, List.length_cons] at hlength
      refine reads_atClosingTag_ne (by decide) hu ⟨rfl, rfl, ?_⟩
      simp only [Reads.bind_iff, Reads.nextChar_iff, hu, List.head?_cons]
      refine reads_container (fun t ht => h own rest t _ rfl ht hs ?_) hframing.begins
        (hframing.solid _) hu ?_
      · simp only [Source.raw, List.length_cons, List.length_append]
        omega
      · refine hframing.reads own rounds depth _ o s _ ho.startsName rfl ?_ ?_
        · rw [List.length_cons] at hfit
          dsimp only
          omega
        · intro d hd c u hu hfit
          exact helements d hd own _ o c u ho hu hfit

/-- Everything in front of a closing tag is read, with what it quotes. -/
theorem reads_children (helements : ∀ d ≤ depth, ReadsElements must rounds d)
    (hclose : startsName close = true) (hs : Children must items ('<' :: '/' :: close) u.rest)
    (hfit : Suffices 2 rounds depth u.rest.length) (hn : u.rest.length < n) :
    Reads must (elementChildren (grammarWithin rounds depth) c n) u fun ts v =>
      AllNeed items ts ∧ v.rest = '<' :: '/' :: close := by
  induction n generalizing u items with
  | zero => omega
  | succ n ih =>
      simp only [elementChildren]
      by_cases hend : u.rest = '<' :: '/' :: close
      · obtain rfl := hs.items_eq_nil (congrArg List.length hend)
        rw [Reads.bind_iff]
        exact reads_atClosingTag_closing hclose hend ⟨allNeed_nil, hend⟩
      · rw [Reads.bind_iff]
        have hchild := reads_child (c := c) (k := fun child => do
            let rest ← elementChildren (grammarWithin rounds depth) c n
            pure (child :: rest))
          (Q := fun ts v => AllNeed items ts ∧ v.rest = '<' :: '/' :: close) helements hs hend hfit
          fun own rest t v hitems ht hv hlength => by
            rw [Reads.bind_iff, hitems]
            apply (ih hv (by omega) (by omega)).mono
            rintro ts w ⟨hts, hw⟩
            exact ⟨allNeed_cons ht hts, hw⟩
        apply hchild.mono
        rintro isClosing v ⟨rfl, rfl, hrest⟩
        exact hrest

/-- An element is read with its items, and what is behind it is left. -/
theorem reads_element {rest o : Text} (helements : ∀ d ≤ depth, ReadsElements must rounds d)
    (ho : Element must items rest o) (hu : u.rest = '<' :: o)
    (hfit : Suffices 0 rounds depth u.rest.length) :
    Reads must (element (grammarWithin rounds depth) c) u fun t v =>
      IsElement items t ∧ v.rest = rest := by
  have hbegins := ho.startsName
  have hhead : (o.head? == some '>') = false := by
    obtain ⟨d, t, rfl, hd⟩ := eq_cons_of_startsName hbegins
    simpa using ne_of_isNameStart hd (show isNameStart '>' = false by decide)
  rw [hu, List.length_cons] at hfit
  simp only [element, Reads.bind_iff]
  apply reads_sign_solid hu (isSolid_of_startsName hbegins)
  simp only [reads_atSign_iff, hhead, Bool.false_eq_true, if_false, Reads.bind_iff]
  -- The children stand one level deeper than the element, and what is read of them is shorter.
  cases ho with
  | @closed _ _ tag s htag hs hopening =>
      have hfit' : Suffices 2 rounds depth (tag ++ s).length := by omega
      apply (reads_openingTag htag (.inr ⟨rest, rfl⟩) hopening hs rfl hfit').mono
      rintro name v ⟨-, hattributes⟩
      apply hattributes.mono
      rintro found w ⟨hfound, hw⟩
      simp only [hw, List.head?_cons, beq_self_eq_true, if_true, Reads.bind_iff]
      apply reads_sign_solid (x := '>' :: rest) hw rfl
      apply Reads.rawChar rfl
      refine ⟨⟨?_, .inr rfl⟩, rfl⟩
      exact needs_node rfl (allNeed_one (needs_node rfl hfound))
  | @whole own others _ tag s i htag hs hopening hi =>
      have hlength := hopening.length_le
      rw [List.length_append] at hfit
      rw [List.length_cons] at hlength
      have hfit' : Suffices 2 rounds depth (tag ++ s).length := by
        rw [List.length_append]
        omega
      apply (reads_openingTag htag (.inl ⟨i, rfl⟩) hopening hs rfl hfit').mono
      rintro name v ⟨hname, hattributes⟩
      apply hattributes.mono
      rintro found w ⟨hfound, hw⟩
      have hslash : (some '>' == some '/') = false := by decide
      simp only [hw, List.head?_cons, hslash, Bool.false_eq_true, if_false, Reads.bind_iff]
      apply Reads.rawChar hw
      have hclose : startsName (tag ++ '>' :: rest) = true := startsName_append htag.1
      have hchildren := reads_children (c := c) (n := rounds) (u := Source.raw i) helements hclose hi
        (by simp only [Source.raw]; omega) (by simp only [Source.raw]; omega)
      apply hchildren.mono
      rintro ts z ⟨hts, hz⟩
      have hgap : Source.ofText ('/' :: (tag ++ '>' :: rest)) =
          some ⟨'/' :: (tag ++ '>' :: rest), false, []⟩ := by
        simp [Source.ofText, gap_slash hclose]
      have hclosed := hi.length_le
      simp only [List.length_cons] at hclosed
      apply reads_sign hz
      rw [Skips, hgap]
      apply reads_sign_solid (x := tag ++ '>' :: rest) rfl (isSolid_of_startsName hclose)
      have hclosing := reads_closingTag (g := grammarWithin rounds depth)
        (u := ⟨tag ++ '>' :: rest, false, []⟩) htag rfl
        (by change (tag ++ '>' :: rest).length < rounds; omega)
      apply hclosing.mono
      rintro closing y ⟨hclosing, hlast⟩
      rw [Reads.require_iff]
      constructor
      · intro _
        apply hlast.mono
        rintro - y' hy'
        refine ⟨⟨?_, .inl rfl⟩, hy'⟩
        exact needs_node rfl (allNeed_cons (needs_node rfl hfound) hts)
      · intro hne
        rw [← Bool.not_eq_true]
        intro hmust
        simp [hname hmust, hclosing hmust] at hne

/-- Every element is read up to its end, at every depth that suffices, with what it quotes. -/
theorem readsElements (rounds depth : Nat) : ReadsElements must rounds depth := by
  induction depth using Nat.strongRecOn with
  | ind depth ih =>
      intro items rest o c u ho hu hfit
      apply reads_elementWithin hfit
      intro d hd hfit
      apply reads_element _ ho hu (by omega)
      intro d' hd'
      exact ih d' (by omega)

end Viewloom.Script
