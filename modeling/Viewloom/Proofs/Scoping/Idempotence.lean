import Viewloom.Markup.Scope
import Viewloom.Proofs.Scoping.Phase

/-!
# Scoping is idempotent

Scoping puts the class scope behind some dots. Behind a dot it moves no lexical boundary, so a
second run finds the same preludes and the same class names, which are scoped already.
-/

namespace Viewloom.Css

/-- A text with the class scope put in behind some of its dots. -/
inductive Inserted : Text → Text → Prop where
  | nil : Inserted [] []
  | cons (c : Char) {s t : Text} (h : Inserted s t) : Inserted (c :: s) (c :: t)
  | dot {s t : Text} (h : Inserted s t) : Inserted ('.' :: s) ('.' :: classScope ++ t)

namespace Inserted

theorem refl (s : Text) : Inserted s s := by
  induction s with
  | nil => exact .nil
  | cons c s ih => exact .cons c ih

theorem append {s t s' t' : Text} (h : Inserted s t) (h' : Inserted s' t') :
    Inserted (s ++ s') (t ++ t') := by
  induction h with
  | nil => exact h'
  | cons c _ ih => exact .cons c ih
  | dot _ ih => simpa using Inserted.dot ih

/-- The first character that is not blank stays. -/
theorem head?_trimStart {s t : Text} (h : Inserted s t) :
    (Text.trimStart t).head? = (Text.trimStart s).head? := by
  induction h with
  | nil => rfl
  | cons c _ ih =>
      by_cases hc : Unicode.isBlank c = true
      · simpa [Text.trimStart, hc] using ih
      · simp [Text.trimStart, hc]
  | dot => rfl

end Inserted

theorem isQuote_ne {q : Quote} {c : Char} (h : isQuote c = false) : c ≠ q.1 := by
  rintro rfl
  exact absurd q.2 (by simp [h])

/-- Behind a dot the class scope leaves every phase as it is, and is quiet. -/
theorem run_classScope (phase : Phase) :
    (phase.step '.').run classScope = phase.step '.' ∧ Quiet (phase.step '.') classScope := by
  have hquote : ∀ c ∈ '.' :: classScope, isQuote c = false := by
    rw [classScope_eq]
    simp [isQuote]
  have hne : ∀ (q : Quote) (c : Char), c ∈ '.' :: classScope → c ≠ q.1 :=
    fun q c hc => isQuote_ne (hquote c hc)
  rw [classScope_eq] at hne ⊢
  cases phase with
  | quoted q =>
      have h := hne q
      simp [Phase.step, Quiet, Phase.isCode, h]
  | escaped q =>
      have h := hne q
      simp [Phase.step, Quiet, Phase.isCode, h]
  | _ => simp [Phase.step, Quiet, Phase.isCode, isQuote, isStructural]

/-- Insertion keeps the phase behind a text, and keeps it quiet. -/
theorem Inserted.run {s t : Text} (h : Inserted s t) (phase : Phase) :
    phase.run t = phase.run s ∧ (Quiet phase s → Quiet phase t) := by
  induction h generalizing phase with
  | nil => exact ⟨rfl, id⟩
  | cons c _ ih => exact ⟨(ih _).1, fun quiet => ⟨quiet.1, (ih _).2 quiet.2⟩⟩
  | dot _ ih =>
      obtain ⟨hrun, hquiet⟩ := run_classScope phase
      constructor
      · rw [List.cons_append, Phase.run_cons, Phase.run_append, hrun, (ih _).1]
        rfl
      · intro quiet
        refine ⟨quiet.1, quiet_append.2 ⟨hquiet, ?_⟩⟩
        rw [hrun]
        exact (ih _).2 quiet.2

/-! ## Selectors -/

/-- Scoping a class name only inserts into it. -/
theorem inserted_scopeClassName (name : Text) {s t : Text} (h : Inserted s t) :
    Inserted ('.' :: name ++ s) ('.' :: scopeClassName name ++ t) := by
  unfold scopeClassName
  split
  · exact .cons _ ((Inserted.refl name).append h)
  · simpa using Inserted.dot ((Inserted.refl name).append h)

/-- Scoping a selector only inserts into it, whatever the depth of brackets. -/
theorem inserted_scopeSelectorAt (depth : Nat) (s : Text) :
    Inserted s (scopeSelectorAt depth s) := by
  induction depth, s using scopeSelectorAt.induct with
  | case1 => simpa [scopeSelectorAt] using Inserted.nil
  | case2 depth s ih =>
      rw [scopeSelectorAt]
      conv => lhs; rw [← splitComment_append s]
      exact .cons _ (.cons _ ((Inserted.refl _).append ih))
  | case3 depth c s hs hc ih =>
      rw [scopeSelectorAt, if_pos hc]
      · conv => lhs; rw [← splitQuoted_append c s]
        exact .cons _ ((Inserted.refl _).append ih)
      · exact hs
  | case4 depth c s hs hc hname ih =>
      rw [scopeSelectorAt, if_neg hc, if_pos hname]
      · have hdot : c = '.' := by
          simp only [namesClass, Bool.and_eq_true, beq_iff_eq] at hname
          exact hname.1.1
        conv => lhs; rw [← splitName_append s]
        subst hdot
        exact inserted_scopeClassName _ ih
      · exact hs
  | case5 depth c s hs hc hname ih =>
      rw [scopeSelectorAt, if_neg hc, if_neg hname]
      · exact .cons _ ih
      · exact hs

/-- A scoped selector begins as the selector does. -/
theorem head?_scopeSelectorAt (depth : Nat) (s : Text) :
    (scopeSelectorAt depth s).head? = s.head? := by
  have h := inserted_scopeSelectorAt depth s
  generalize scopeSelectorAt depth s = t at h
  cases h <;> rfl

/-- A comment ends at the same place in front of any text, unless it runs to the end. -/
theorem splitComment_of_append {s t : Text} (h : (splitComment s).2 = [] → t = []) :
    splitComment ((splitComment s).1 ++ t) = ((splitComment s).1, t) := by
  induction s using splitComment.induct with
  | case1 => simp_all [splitComment]
  | case2 s => simp [splitComment]
  | case3 c s hs ih =>
      rw [splitComment] at h ⊢
      · have hnext : ∀ u, c = '*' → (splitComment s).1 ++ t = '/' :: u → False := by
          intro u hc hu
          have hhead := head?_splitComment s
          cases s with
          | nil => simp [splitComment, h rfl] at hu
          | cons d s =>
              cases hv : (splitComment (d :: s)).1 with
              | nil => simp [hv] at hhead
              | cons e v =>
                  simp only [hv, List.cons_append, List.cons.injEq, List.head?_cons,
                    Option.some.injEq] at hu hhead
                  exact hs s hc (by rw [← hhead, hu.1])
        rw [List.cons_append, splitComment, ih h]
        exact hnext
      · exact hs
      · exact hs

/-- A string ends at the same place in front of any text, unless it runs to the end. -/
theorem splitQuoted_of_append {q : Char} {s t : Text} (h : (splitQuoted q s).2 = [] → t = []) :
    splitQuoted q ((splitQuoted q s).1 ++ t) = ((splitQuoted q s).1, t) := by
  induction s using splitQuoted.induct q with
  | case1 => simp_all [splitQuoted]
  | case2 => simp_all [splitQuoted]
  | case3 c s ih => simp_all [splitQuoted]
  | case4 s hne hs =>
      have hq : q ≠ '\\' := ne_backslash hne hs
      rw [splitQuoted, if_pos rfl, List.singleton_append, splitQuoted, if_pos rfl]
      · exact fun h => absurd h hq
      · exact fun _ _ h => absurd h hq
      · exact hne
      · exact hs
  | case5 c s hne hs hc ih =>
      have hb : c ≠ '\\' := ne_backslash hne hs
      rw [splitQuoted, if_neg hc] at h ⊢
      · rw [List.cons_append, splitQuoted, if_neg hc, ih h]
        · exact fun h => absurd h hb
        · exact fun _ _ h => absurd h hb
      · exact hne
      · exact hs
      · exact hne
      · exact hs

theorem isNameChar_backslash : isNameChar '\\' = false := by decide +kernel

/-- A name ends at the same place in front of a text that begins as the rest did. -/
theorem splitName_of_append {s t : Text} (h : t.head? = (splitName s).2.head?)
    (hlone : (splitName s).2 = ['\\'] → t = ['\\']) :
    splitName ((splitName s).1 ++ t) = ((splitName s).1, t) := by
  induction s using splitName.induct with
  | case1 =>
      have ht : t = [] := by simpa [splitName] using h
      simp [splitName, ht]
  | case2 c s ih =>
      rw [splitName] at h hlone ⊢
      rw [List.cons_append, List.cons_append, splitName, ih h hlone]
  | case3 c s hs hc ih =>
      have hb : c ≠ '\\' := fun hb => by simp [hb, isNameChar_backslash] at hc
      rw [splitName, if_pos hc] at h hlone ⊢
      · rw [List.cons_append, splitName, if_pos hc, ih h hlone]
        exact fun _ _ h => absurd h hb
      · exact hs
      · exact hs
      · exact hs
  | case4 c s hs hc =>
      rw [splitName, if_neg hc] at h hlone ⊢
      · obtain ⟨u, rfl⟩ := List.head?_eq_some_iff.1 h
        rw [List.nil_append, splitName, if_neg hc]
        intro d v hb hu
        subst hb
        cases s with
        | nil => simp [hu] at hlone
        | cons e s => exact hs e s rfl rfl
      · exact hs
      · exact hs
      · exact hs

/-- Name characters in front of a text are read into its name. -/
theorem splitName_append_right {s : Text} (hs : s.all isNameChar = true) (t : Text) :
    splitName (s ++ t) = (s ++ (splitName t).1, (splitName t).2) := by
  induction s with
  | nil => rfl
  | cons c s ih =>
      simp only [List.all_cons, Bool.and_eq_true] at hs
      have hb : c ≠ '\\' := fun hb => by simp [hb, isNameChar_backslash] at hs
      rw [List.cons_append, splitName, if_pos hs.1, ih hs.2]
      · rfl
      · exact fun _ _ h => absurd h hb

/-- A scoped name is read back as a whole. -/
theorem splitName_scopeClassName {s t : Text} (h : t.head? = (splitName s).2.head?)
    (hlone : (splitName s).2 = ['\\'] → t = ['\\']) :
    splitName (scopeClassName (splitName s).1 ++ t) = (scopeClassName (splitName s).1, t) := by
  have hname := splitName_of_append h hlone
  unfold scopeClassName
  split
  · exact hname
  · rw [List.append_assoc, splitName_append_right (by decide +kernel), hname]

/-- The class scope ends in front of what is no character of a name. -/
theorem prefix_of_append {s x : Text} (hx : x.head?.all (fun c => !isNameChar c) = true)
    (h : classScope <+: s ++ x) : classScope <+: s := by
  rcases List.prefix_or_prefix_of_prefix h (List.prefix_append s x) with hs | ⟨u, hu⟩
  · exact hs
  · cases u with
    | nil => exact ⟨[], by rw [← hu]; simp⟩
    | cons c u =>
        obtain ⟨v, hv⟩ := h
        have hxu : c :: (u ++ v) = x := by
          have hcancel : s ++ (c :: (u ++ v)) = s ++ x := by
            rw [← hv, ← hu]
            simp
          exact List.append_cancel_left hcancel
        have hc : isNameChar c = true := by
          have hscope : classScope.all isNameChar = true := by decide +kernel
          exact List.all_eq_true.1 hscope c (by rw [← hu]; simp)
        simp [← hxu, hc] at hx

theorem head?_scopeClassName (name t : Text) :
    (scopeClassName name ++ t).head? = some '_' := by
  have h := List.isPrefixOf_iff_prefix.1 (isPrefixOf_scopeClassName name)
  obtain ⟨u, hu⟩ := h
  rw [← hu, classScope_eq]
  rfl

theorem scopeSelectorAt_eq_nil {depth : Nat} {s : Text} (h : s = []) :
    scopeSelectorAt depth s = [] := by
  rw [h, scopeSelectorAt]

/-- Whether a point names a class depends on the next character only. -/
theorem namesClass_congr {depth : Nat} {c : Char} {s t : Text} (h : t.head? = s.head?) :
    namesClass depth c t = namesClass depth c s := by
  simp only [namesClass, h]

/-- The second run over a selector list meets the same comments, strings and names. -/
theorem scopeSelectorAt_scopeSelectorAt (depth : Nat) (s : Text) :
    scopeSelectorAt depth (scopeSelectorAt depth s) = scopeSelectorAt depth s := by
  induction depth, s using scopeSelectorAt.induct with
  | case1 => simp [scopeSelectorAt]
  | case2 depth s ih =>
      have hsplit := splitComment_of_append (s := s) (@scopeSelectorAt_eq_nil depth _)
      rw [scopeSelectorAt, List.cons_append, List.cons_append, scopeSelectorAt, hsplit, ih]
      rfl
  | case3 depth c s hs hc ih =>
      have hsplit := splitQuoted_of_append (q := c) (s := s)
        (@scopeSelectorAt_eq_nil depth _)
      rw [scopeSelectorAt, if_pos hc]
      · rw [List.cons_append, scopeSelectorAt, if_pos hc, hsplit, ih]
        · rfl
        · rintro u rfl
          simp [isQuote] at hc
      · exact hs
  | case4 depth c s hs hc hname ih =>
      -- The second run reads the prefix and the name as one name, which has the prefix already.
      have hdot : c = '.' := by
        simp only [namesClass, Bool.and_eq_true, beq_iff_eq] at hname
        exact hname.1.1
      have hsplit : splitName (scopeClassName (splitName s).1 ++
          scopeSelectorAt depth (splitName s).2) =
          (scopeClassName (splitName s).1, scopeSelectorAt depth (splitName s).2) := by
        apply splitName_scopeClassName
        · exact head?_scopeSelectorAt ..
        · intro h
          simp [h, scopeSelectorAt, isQuote, namesClass]
      have hnames : namesClass depth c (scopeClassName (splitName s).1 ++
          scopeSelectorAt depth (splitName s).2) = true := by
        simp only [namesClass, Bool.and_eq_true] at hname
        rw [namesClass, head?_scopeClassName]
        simp [hname.1, isNameStart]
      rw [scopeSelectorAt, if_neg hc, if_pos hname]
      · rw [List.cons_append, scopeSelectorAt, if_neg hc, if_pos hnames, hsplit, ih,
          scopeClassName_scopeClassName]
        · rfl
        · rintro u rfl
          simp at hdot
      · exact hs
  | case5 depth c s hs hc hname ih =>
      have hhead := head?_scopeSelectorAt (bracketDepth depth c) s
      rw [scopeSelectorAt, if_neg hc, if_neg hname]
      · rw [scopeSelectorAt, if_neg hc, if_neg, ih]
        · rwa [namesClass_congr hhead]
        · intro u hslash hu
          rw [hu] at hhead
          obtain ⟨v, rfl⟩ := List.head?_eq_some_iff.1 hhead.symm
          exact hs v hslash rfl
      · exact hs

/-- A scoped selector is left as it is when it is scoped again. -/
theorem scopeSelector_scopeSelector (selector : Text) :
    scopeSelector (scopeSelector selector) = scopeSelector selector :=
  scopeSelectorAt_scopeSelectorAt 0 selector

/-! ## Stylesheets -/

/-- Scoping a prelude only inserts into it. -/
theorem inserted_scopePrelude (prelude : Text) : Inserted prelude (scopePrelude prelude) := by
  unfold scopePrelude
  split
  · exact .refl prelude
  · exact inserted_scopeSelectorAt 0 prelude

/-- A scoped prelude is an at-rule exactly if the prelude is one. -/
theorem isAtRule_scopePrelude (prelude : Text) :
    isAtRule (scopePrelude prelude) = isAtRule prelude := by
  simp only [isAtRule, (inserted_scopePrelude prelude).head?_trimStart]

theorem scopePrelude_scopePrelude (prelude : Text) :
    scopePrelude (scopePrelude prelude) = scopePrelude prelude := by
  rw [scopePrelude.eq_1 (scopePrelude prelude), isAtRule_scopePrelude]
  unfold scopePrelude
  split
  · rfl
  · exact scopeSelector_scopeSelector prelude

/-- A scoped prelude opens the same kind of block. -/
theorem blockOf_scopePrelude (prelude : Text) : blockOf (scopePrelude prelude) = blockOf prelude := by
  unfold blockOf
  rw [isAtRule_scopePrelude]
  unfold scopePrelude
  split
  · rfl
  · next h => simp [h]

/-- The second run over a stylesheet meets the same blocks. Its prelude is what the first run has
put out for the prelude of the same block. -/
theorem scopeFrom_scopeFrom (phase : Phase) (blocks : List Block) (s : Text) :
    (isDeclaring blocks = true →
      scopeFrom phase blocks [] (scopeFrom phase blocks [] s) = scopeFrom phase blocks [] s) ∧
    (isDeclaring blocks = false → ∀ prelude, Quiet .plain prelude →
      Phase.plain.run prelude = phase →
      scopeFrom .plain blocks [] (scopeFrom phase blocks prelude s) =
        scopeFrom phase blocks prelude s) := by
  -- The prelude that has been collected is put out later, so the second run begins in front of it.
  induction s generalizing phase blocks with
  | nil =>
      refine ⟨fun _ => by simp, fun declaring prelude quiet _ => ?_⟩
      simpa using scopeFrom_prelude declaring quiet [] []
  | cons c s ih =>
      have again : ∀ blocks, scopeFrom .plain blocks [] (scopeFrom .plain blocks [] s) =
          scopeFrom .plain blocks [] s := by
        intro blocks
        cases declaring : isDeclaring blocks with
        | true => exact (ih .plain blocks).1 declaring
        | false => exact (ih .plain blocks).2 declaring [] trivial rfl
      constructor
      · intro declaring
        match blocks, declaring with
        | .declarations :: blocks, declaring =>
            rw [scopeFrom]
            split
            · next h =>
              obtain ⟨hcode, rfl⟩ := by simpa using h
              simp [scopeFrom, hcode, again]
            · next h₁ =>
              split
              · next h₂ =>
                obtain ⟨hcode, rfl⟩ := by simpa using h₂
                simp [scopeFrom, hcode, again]
              · next h₂ => rw [scopeFrom, if_neg h₁, if_neg h₂, (ih _ _).1 declaring]
      · intro declaring prelude quiet hrun
        have hblocks : ∀ rest, blocks ≠ .declarations :: rest := by
          rintro rest rfl
          simp [isDeclaring] at declaring
        obtain ⟨hrun', quiet'⟩ := (inserted_scopePrelude prelude).run .plain
        rw [scopeFrom]
        · split
          · next h =>
            obtain ⟨hcode, rfl⟩ := by simpa using h
            rw [scopeFrom_prelude declaring (quiet' quiet), hrun', hrun, List.nil_append, scopeFrom]
            · simp [hcode, scopePrelude_scopePrelude, blockOf_scopePrelude, again]
            · exact hblocks
          · next h₁ =>
            split
            · next h₂ =>
              obtain ⟨hcode, rfl⟩ := by simpa using h₂
              rw [scopeFrom_prelude declaring quiet, hrun, List.nil_append, scopeFrom]
              · simp [hcode, again]
              · exact hblocks
            · next h₂ =>
              split
              · next h₃ =>
                obtain ⟨hcode, rfl⟩ := by simpa using h₃
                rw [scopeFrom_prelude declaring quiet, hrun, List.nil_append, scopeFrom]
                · simp [hcode, again]
                · exact hblocks
              · next h₃ =>
                apply (ih _ _).2 declaring
                · have hc : (phase.isCode && isStructural c) = false := by
                    simp only [isStructural]
                    grind
                  exact quiet_append.2 ⟨quiet, by rw [hrun]; exact ⟨hc, trivial⟩⟩
                · rw [Phase.run_append, hrun, Phase.run_cons, Phase.run_nil]
        · exact hblocks

/-- A scoped stylesheet is left as it is when it is scoped again. -/
@[simp]
theorem scopeStylesheet_scopeStylesheet (css : Text) :
    scopeStylesheet (scopeStylesheet css) = scopeStylesheet css := by
  have h := scopeFrom_scopeFrom .plain [] css
  simp only [scopeStylesheet, scopeTokens_tokens]
  exact h.2 rfl [] trivial rfl

/-! ## Class attributes -/

/-- A begun name is copied up to the next blank. -/
theorem scopeNames_append {s : Text} (h : s.all fun c => !Unicode.isBlank c) (t : Text) :
    scopeNames true (s ++ t) = s ++ scopeNames true t := by
  induction s with
  | nil => rfl
  | cons c s ih =>
      simp only [List.all_cons, Bool.and_eq_true, Bool.not_eq_true'] at h
      rw [List.cons_append, scopeNames, if_neg (by simp [h.1]), if_pos (by simp), ih h.2]
      rfl

/-- Behind a prefix a class name counts as begun. -/
theorem scopeNames_classScope (t : Text) :
    scopeNames false (classScope ++ t) = classScope ++ scopeNames true t := by
  have hcons : classScope = '_' :: classScope.tail := by rw [classScope_eq]; rfl
  have hstart : classScope.isPrefixOf (classScope ++ t) = true :=
    List.isPrefixOf_iff_prefix.2 (List.prefix_append ..)
  rw [hcons] at hstart ⊢
  rw [List.cons_append, scopeNames, if_neg (by decide +kernel), hcons, if_pos]
  · rw [List.tail_cons, scopeNames_append (by rw [classScope_eq]; decide +kernel)]
    rfl
  · exact hstart

theorem scopeNames_scopeNames (begun : Bool) (s : Text) :
    scopeNames begun (scopeNames begun s) = scopeNames begun s := by
  induction s generalizing begun with
  | nil => rfl
  | cons c s ih =>
      by_cases hblank : Unicode.isBlank c = true
      · rw [scopeNames, if_pos hblank, scopeNames, if_pos hblank, ih]
      by_cases hfirst : (begun || classScope.isPrefixOf (c :: s)) = true
      · have hagain : (begun || classScope.isPrefixOf (c :: scopeNames true s)) = true := by
          cases begun with
          | true => rfl
          | false =>
              obtain ⟨t, ht⟩ := List.isPrefixOf_iff_prefix.1 hfirst
              refine List.isPrefixOf_iff_prefix.2 ⟨scopeNames true t, ?_⟩
              rw [← scopeNames_classScope, ht, scopeNames, if_neg hblank, if_pos hfirst]
        rw [scopeNames, if_neg hblank, if_pos hfirst, scopeNames, if_neg hblank, if_pos hagain, ih]
      · obtain rfl : begun = false := by
          simp only [Bool.or_eq_true, not_or, Bool.not_eq_true] at hfirst
          exact hfirst.1
        rw [scopeNames, if_neg hblank, if_neg hfirst, scopeNames_classScope, scopeNames,
          if_neg hblank, if_pos (Bool.true_or _), ih]

/-- A scoped class attribute is left as it is when it is scoped again. -/
@[simp]
theorem scopeClassAttribute_scopeClassAttribute (value : Text) :
    scopeClassAttribute (scopeClassAttribute value) = scopeClassAttribute value :=
  scopeNames_scopeNames false value

end Viewloom.Css

namespace Viewloom

namespace Attribute

/-- Of two values given to one attribute the second stands. -/
theorem set_set (name v w : Text) (attributes : List Attribute) :
    set name w (set name v attributes) = set name w attributes := by
  induction attributes with
  | nil => simp [set]
  | cons a as ih => by_cases h : a.name = name <;> simp [set, h, ih]

end Attribute

namespace Markup

@[simp]
theorem scopeAttributes_scopeAttributes (attributes : List Attribute) :
    scopeAttributes (scopeAttributes attributes) = scopeAttributes attributes := by
  unfold scopeAttributes
  cases h : Attribute.get? (Viewloom.text "class") attributes with
  | none => simp [h]
  | some value => simp [Attribute.set_set]

mutual

/-- A scoped node is left as it is when it is scoped again. -/
@[simp]
theorem Node.scope_scope (css : Bool) : ∀ n : Node, (n.scope css).scope css = n.scope css
  | .element tag attributes children => by
      simp [Node.scope, Node.scopeAll_scopeAll]
  | .text value => by cases css <;> simp [Node.scope]
  | .comment value => rfl

@[simp]
theorem Node.scopeAll_scopeAll (css : Bool) :
    ∀ ns : List Node, Node.scopeAll css (Node.scopeAll css ns) = Node.scopeAll css ns
  | [] => rfl
  | n :: ns => by simp [Node.scopeAll, Node.scope_scope, Node.scopeAll_scopeAll]

end

@[simp]
theorem scope_scope (nodes : List Node) : scope (scope nodes) = scope nodes :=
  Node.scopeAll_scopeAll false nodes

/-- Whatever has been scoped stays as it is: pages, and also single stylesheets and class attributes,
however malformed they are. -/
theorem scoping_idempotent :
    (∀ page : List Node, scope (scope page) = scope page) ∧
      (∀ css, Css.scopeStylesheet (Css.scopeStylesheet css) = Css.scopeStylesheet css) ∧
        ∀ value, Css.scopeClassAttribute (Css.scopeClassAttribute value) =
          Css.scopeClassAttribute value :=
  ⟨scope_scope, Css.scopeStylesheet_scopeStylesheet, Css.scopeClassAttribute_scopeClassAttribute⟩

/-- A stray brace, an escape and a bracket that is not closed are no boundaries for either run. -/
example : Css.scopeStylesheet (text ".a\x7b\x7d \x7d .b\\.c \x7b .d \x7d .e [.f \x7b") =
    text ".__af-a\x7b\x7d \x7d .__af-b\\.c \x7b .d \x7d .__af-e [.f \x7b" := by
  decide +kernel

end Markup

end Viewloom
