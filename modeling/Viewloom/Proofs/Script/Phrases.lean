import Viewloom.Proofs.Script.Framings

/-!
# Expressions that end anywhere

The expressions of an emitted module. Each of them is read in front of anything that ends an expression,
so that they can be put together.
-/

namespace Viewloom.Script

open Viewloom.Script.Parser Viewloom.Script.Tree Template

variable {must : Bool} {g : Grammar} {c : Context} {rounds depth n : Nat} {s u : Source}
  {e x : Text} {items others : List Item} {Q : Tree → Source → Prop}

/-- Whether a text begins as an expression of a module does. -/
def beginsPhrase : Text → Bool
  | [] => false
  | d :: _ => isNameStart d || ['\'', '(', '<', '\x7b'].contains d

/-- What is known of the tree of an expression. -/
structure IsPhrase (items : List Item) (t : Tree) : Prop where
  needs : t.Needs items
  isOwn : t.kind ≠ .rest

/-- An expression whose tree satisfies a property, in front of anything that ends it. -/
structure Expresses (must : Bool) (P : Tree → Prop) (e : Text) : Prop where
  begins : beginsPhrase e = true
  reads : ∀ rounds depth c s x u, Source.rest s = e ++ x → endsName x = true →
    Source.ofText x = some u → u.endsExpression = true → Suffices 1 rounds depth s.rest.length →
      Reads must (assignment (grammarWithin rounds depth) c) s fun t v => P t ∧ v = u

/-- An expression of which some items are told. -/
abbrev IsExpression (must : Bool) (items : List Item) (e : Text) : Prop :=
  Expresses must (IsPhrase items) e

/-- An expression of one kind of tree is one of every wider kind. -/
theorem Expresses.imp {P P' : Tree → Prop} (he : Expresses must P e) (h : ∀ t, P t → P' t) :
    Expresses must P' e where
  begins := he.begins
  reads rounds depth c s x u hs hx hu hends hfit := by
    apply (he.reads rounds depth c s x u hs hx hu hends hfit).mono
    rintro t v ⟨ht, rfl⟩
    exact ⟨h t ht, rfl⟩

section Begins

variable (he : beginsPhrase e = true)
include he

/-- A phrase begins with a name, a quote, a bracket or a brace. -/
theorem exists_cons_of_beginsPhrase :
    ∃ d y, e = d :: y ∧ (isNameStart d || ['\'', '(', '<', '\x7b'].contains d) = true := by
  cases e with
  | nil => simp [beginsPhrase] at he
  | cons d y => exact ⟨d, y, rfl, he⟩

theorem isSolid_of_beginsPhrase : isSolid (e ++ x) = true := by
  obtain ⟨d, y, rfl, hd⟩ := exists_cons_of_beginsPhrase he
  rw [Bool.or_eq_true] at hd
  rcases hd with hd | hd
  · exact isSolid_of_startsName (s := d :: y ++ x) hd
  · obtain rfl | rfl | rfl | rfl : d = '\'' ∨ d = '(' ∨ d = '<' ∨ d = '\x7b' := by
      simpa using List.contains_iff_mem.1 hd
    all_goals rfl

theorem head_ne_of_beginsPhrase {d : Char}
    (hd : (isNameStart d || ['\'', '(', '<', '\x7b'].contains d) = false) :
    (e ++ x).head? ≠ some d := by
  obtain ⟨d', y, rfl, hd'⟩ := exists_cons_of_beginsPhrase he
  intro heq
  obtain rfl : d' = d := by simpa using heq
  rw [hd] at hd'
  cases hd'

/-- A phrase begins with no mark of another sign. -/
theorem mark_ne_of_beginsPhrase {d : Char} {m : Text} (hu : u.rest = e ++ x)
    (hd : (isNameStart d || ['\'', '(', '<', '\x7b'].contains d) = false) : u.mark ≠ d :: m := by
  intro heq
  rcases u.mark_eq_nil_or with hnil | ⟨y, hy⟩
  · rw [hnil] at heq
    cases heq
  · apply head_ne_of_beginsPhrase (x := x) he hd
    rw [← hu, hy, heq]
    rfl

end Begins

/-- An expression at any depth that suffices. -/
theorem Expresses.readsWithin {P : Tree → Prop} (he : Expresses must P e) (hs : s.rest = e ++ x)
    (hx : endsName x = true) (hu : Source.ofText x = some u) (hends : u.endsExpression = true)
    (hfit : Suffices 2 rounds depth s.rest.length)
    (h : ∀ t, P t → Q t u) :
    Reads must ((grammarWithin rounds depth).assignment c) s Q := by
  apply reads_assignmentWithin hfit
  intro d _ hfit
  apply (he.reads rounds d c s x u hs hx hu hends hfit).mono
  rintro t v ⟨ht, rfl⟩
  exact h t ht

/-! ## Names and calls -/

/-- The kinds of names, members, indexes and strings. -/
def isAtom : Kind → Bool
  | .identifier => true
  | .keyword => true
  | .member _ => true
  | .index _ => true
  | .string => true
  | _ => false

/-- A chain is an atom. -/
theorem isAtom_chainTree (head : Text) (links : List Link) :
    isAtom (chainTree head links).kind = true := by
  have hfold {t : Tree} (ht : isAtom t.kind = true) :
      isAtom (links.foldl Link.tree t).kind = true := by
    induction links generalizing t with
    | nil => exact ht
    | cons link links ih =>
        apply ih
        cases link <;> rfl
  apply hfold
  unfold wordKind leaf
  split <;> rfl

theorem kind_ne_of_isAtom {t : Tree} {kind : Kind} (ht : isAtom t.kind = true)
    (hkind : isAtom kind = false) : t.kind ≠ kind := by
  intro heq
  rw [heq, hkind] at ht
  cases ht

/-- A chain begins a phrase. -/
theorem beginsPhrase_chain {head : Text} (links : List Link) (hhead : isHead head = true) :
    beginsPhrase (chain head links) = true := by
  have hplain := isPlainName_of_isHead hhead
  cases head with
  | nil => simp [isPlainName] at hplain
  | cons d head =>
      simp only [isPlainName, Bool.and_eq_true] at hplain
      simp [chain, beginsPhrase, hplain.1]

/-- A name with members and indexes. -/
theorem isExpression_chain {head : Text} {links : List Link} (hhead : isHead head = true)
    (hlinks : links.all Link.isSound = true) : IsExpression must [] (chain head links) where
  begins := beginsPhrase_chain links hhead
  reads rounds depth c s x u hs hx hu hends hfit := by
    apply reads_assignment_chain hfit hs hhead hlinks hx
    rw [Skips, hu]
    exact ⟨hends, ⟨needs_chainTree head links, kind_ne_of_isAtom (isAtom_chainTree head links) rfl⟩, rfl⟩

/-- A call that requires a module is read as this call. -/
theorem expresses_require (path : Text) :
    Expresses must (· = requireTree path) (requireCall path) where
  begins := rfl
  reads rounds depth c s x u hs _ hu hends hfit := by
    apply reads_assignment_require hfit hs
    rw [Skips, hu]
    exact ⟨hends, rfl, rfl⟩

/-- The call that requires a path is an expression with that requirement. -/
theorem isExpression_require (path : Text) : IsExpression must [.required path] (requireCall path) :=
  (expresses_require path).imp fun _ ht => ht ▸ ⟨needs_requireTree path, by rintro ⟨⟩⟩

/-- A call with a chain for its argument requires nothing. -/
theorem requiredBy_chainTree {callee : Tree} (head : Text) (links : List Link) :
    requiredBy callee [chainTree head links] = [] := by
  have hkind {t : Tree} (ht : t.kind ≠ .string) (links : List Link) :
      (links.foldl Link.tree t).kind ≠ .string := by
    induction links generalizing t with
    | nil => exact ht
    | cons link links ih =>
        apply ih
        cases link <;> rintro ⟨⟩
  have hchain : (chainTree head links).kind ≠ .string := by
    apply hkind
    unfold wordKind leaf
    split <;> rintro ⟨⟩
  unfold requiredBy
  split
  · next heq =>
      simp only [List.cons.injEq] at heq
      rw [heq.1] at hchain
      exact absurd rfl hchain
  · rfl

/-- A call of a name with one argument. -/
theorem isExpression_call {callee head : Text} {links : List Link} (hcallee : isHead callee = true)
    (hhead : isHead head = true) (hlinks : links.all Link.isSound = true) :
    IsExpression must [] (callee ++ '(' :: (chain head links ++ [')'])) where
  begins := by
    have hbegins := beginsPhrase_chain [] hcallee
    rw [chain, List.flatMap_nil, List.append_nil] at hbegins
    obtain ⟨d, y, rfl, hd⟩ := exists_cons_of_beginsPhrase hbegins
    exact hd
  reads rounds depth c s x u hs _ hu hends hfit := by
    have hs : s.rest = callee ++ '(' :: (chain head links ++ ')' :: x) := by simp [hs]
    have hlength : (chain head links ++ ')' :: x).length + 1 ≤ s.rest.length := by
      simp only [hs, List.length_append, List.length_cons]
      omega
    have hbegins := beginsPhrase_chain links hhead
    have hrounds : 1 < (grammarWithin rounds depth).rounds := by
      change 1 < rounds
      rw [List.length_append, List.length_cons] at hlength
      omega
    apply reads_assignment_call hrounds hs hcallee
    refine reads_arguments_one (by omega) rfl (isSolid_of_beginsPhrase hbegins) ⟨?_, ?_⟩ ?_
    · exact mark_ne_of_beginsPhrase hbegins rfl (by decide)
    · exact mark_ne_of_beginsPhrase hbegins rfl (by decide)
    apply reads_assignmentWithin
    · dsimp only
      omega
    intro d hd hfit
    apply reads_assignment_chain hfit rfl hhead hlinks rfl
    apply skips_of_isSolid (x := ')' :: x) rfl
    refine ⟨Source.endsExpression_of_mem (by decide), rfl, ?_⟩
    refine Reads.mark (x := x) rfl ?_
    rw [Skips, hu]
    refine ⟨hends, ⟨?_, by rintro ⟨⟩⟩, rfl⟩
    have hname : (leaf (wordKind callee) callee).Needs [] := by
      apply needs_leaf
      unfold wordKind
      split <;> rfl
    exact needs_call (requiredBy_chainTree head links)
      (allNeed_cons hname (allNeed_one (needs_chainTree head links)))

/-! ## Operations -/

/-- An operand that requires nothing, in front of anything that ends it. -/
structure IsOperand (must : Bool) (e : Text) : Prop where
  begins : beginsPhrase e = true
  opens : ∀ s x, Source.rest s = e ++ x → endsName x = true → s.beginsOperand = true
  reads : ∀ rounds depth c n s x u, 0 < n → Source.rest s = e ++ x → endsName x = true →
    Source.ofText x = some u → u.endsOperand = true → Suffices 1 rounds depth s.rest.length →
      Reads must (operand (grammarWithin rounds depth) c n) s fun t v =>
        (t.Needs [] ∧ isAtom t.kind = true) ∧ v = u

/-- A chain is an operand. -/
theorem isOperand_chain {head : Text} {links : List Link} (hhead : isHead head = true)
    (hlinks : links.all Link.isSound = true) : IsOperand must (chain head links) where
  begins := beginsPhrase_chain links hhead
  opens s x hs hx := beginsOperand_chain hs hhead hx
  reads rounds depth c n s x u hn hs hx hu hends hfit := by
    apply reads_operand_chain hn hfit hs hhead hlinks hx
    rw [Skips, hu]
    exact ⟨hends, ⟨needs_chainTree head links, isAtom_chainTree head links⟩, rfl⟩

/-- A quoted text is an operand. -/
theorem isOperand_quoted (v : Text) : IsOperand must (quoted v) where
  begins := rfl
  opens s x hs _ := beginsOperand_quoted hs
  reads rounds depth c n s x u hn hs _ hu hends hfit := by
    apply reads_operand_string hn hfit.rounds_pos hs
    rw [Skips, hu]
    exact ⟨hends, ⟨needs_leaf rfl, rfl⟩, rfl⟩

/-- A binary operator between blanks. -/
structure IsOperator (operator : Text) : Prop where
  binds : ∃ level, binaryOperators.lookup operator = some level
  solid : ∀ x, isSolid (operator ++ ' ' :: x) = true
  reads : ∀ x, readPunctuator (operator ++ ' ' :: x) = some (operator, ' ' :: x)
  word : ∀ x, readName (operator ++ ' ' :: x) = none
  ends : ∀ x, Source.endsOperand ⟨operator ++ ' ' :: x, false, []⟩ = true

theorem isOperator_or : IsOperator (text "||") :=
  ⟨⟨2, rfl⟩, fun _ => rfl, fun _ => rfl, fun _ => rfl, fun _ => rfl⟩

theorem isOperator_equals : IsOperator (text "==") :=
  ⟨⟨7, rfl⟩, fun _ => rfl, fun _ => rfl, fun _ => rfl, fun _ => rfl⟩

theorem isOperator_differs : IsOperator (text "!==") :=
  ⟨⟨7, rfl⟩, fun _ => rfl, fun _ => rfl, fun _ => rfl, fun _ => rfl⟩

/-- Between two atoms every operator makes an operation. -/
theorem operation_of_isAtom {operator : Text} {left right : Tree} (hleft : isAtom left.kind = true)
    (hright : isAtom right.kind = true) :
    operation operator left right = some (.node .binary operator [left, right]) := by
  have hoperation {t : Tree} (ht : isAtom t.kind = true) (operators : List Text) :
      isOperation operators t = false := by
    have hkind : (t.kind == .binary) = false := beq_eq_false_iff_ne.2 (kind_ne_of_isAtom ht rfl)
    rw [isOperation, hkind, Bool.false_and]
  have hunary : (left.kind == .unary) = false := beq_eq_false_iff_ne.2 (kind_ne_of_isAtom hleft rfl)
  have hawait : (left.kind == .await) = false := beq_eq_false_iff_ne.2 (kind_ne_of_isAtom hleft rfl)
  simp [operation, hoperation hleft, hoperation hright, hunary, hawait]

/-- Two operands with an operator between them. -/
def binary (left operator right : Text) : Text := left ++ ' ' :: (operator ++ ' ' :: right)

section Binary

variable {left operator right : Text} (hleft : IsOperand must left) (hright : IsOperand must right)
  (hoperator : IsOperator operator)
include hleft hright hoperator

/-- Two operands with an operator between them are read as one operation. -/
theorem reads_binary (hs : s.rest = binary left operator right ++ x) (hx : endsName x = true)
    (hu : Source.ofText x = some u) (hends : u.endsOperand = true) (hlast : u.endsOperation = true)
    (hfit : Suffices 1 rounds depth s.rest.length)
    (h : ∀ t, t.Needs [] → t.kind = .binary → Q t u) :
    Reads must (operand (grammarWithin rounds depth) c rounds) s fun t v =>
      Reads must (operations (grammarWithin rounds depth) c rounds 0 t) v Q := by
  obtain ⟨level, hlevel⟩ := hoperator.binds
  generalize hy : operator ++ ' ' :: (right ++ x) = y
  have hs : s.rest = left ++ ([' '] ++ y) := by
    rw [hs, ← hy]
    simp [binary]
  have hsolid : isSolid y = true := by
    rw [← hy]
    exact hoperator.solid _
  have hlength : (right ++ x).length + 1 ≤ y.length ∧ y.length + 1 ≤ s.rest.length := by
    rw [hs, ← hy]
    simp only [List.length_append, List.length_cons, List.length_nil]
    omega
  have hends' : Source.endsOperand ⟨y, false, []⟩ = true := by
    rw [← hy]
    exact hoperator.ends _
  have hmark : Source.mark ⟨y, false, []⟩ = operator := by
    rw [Source.mark, ← hy, hoperator.reads]
  have hword : Source.word ⟨y, false, []⟩ = [] := by
    rw [Source.word, ← hy, hoperator.word]
  have hread : readPunctuator y = some (operator, [' '] ++ (right ++ x)) := by
    rw [← hy]
    exact hoperator.reads _
  apply (hleft.reads rounds depth c rounds s ([' '] ++ y) ⟨y, false, []⟩ (by omega) hs rfl
    (Source.ofText_append rfl hsolid) hends' hfit).mono
  rintro t v ⟨⟨ht, hatom⟩, rfl⟩
  refine reads_operations_one (by omega) ⟨?_, ?_⟩ hmark hlevel ?_
  · rw [hword]
    decide
  · rw [hword]
    decide
  refine reads_mark_gap hread rfl (isSolid_of_beginsPhrase hright.begins) ?_
  have hright := hright.reads rounds depth c rounds ⟨right ++ x, [' '].any isLineEnd, []⟩ x u
    (by omega) rfl hx hu hends (by dsimp only; omega)
  apply hright.mono
  rintro t' v ⟨⟨ht', hatom'⟩, rfl⟩
  refine ⟨hlast, operation_of_isAtom hatom hatom', h _ ?_ rfl⟩
  exact needs_node rfl (allNeed_cons ht (allNeed_one ht'))

/-- Two operands with an operator between them are an expression with no items. -/
theorem isExpression_binary : IsExpression must [] (binary left operator right) where
  begins := by
    obtain ⟨d, y, rfl, hd⟩ := exists_cons_of_beginsPhrase hleft.begins
    exact hd
  reads rounds depth c s x u hs hx hu hends hfit := by
    have hbegins : s.beginsOperand = true := by
      refine hleft.opens s (' ' :: (operator ++ ' ' :: (right ++ x))) ?_ rfl
      rw [hs]
      simp [binary]
    have hparts := hends
    simp only [Source.endsExpression, Bool.and_eq_true] at hparts
    have hassignment := hparts.2
    simp only [Source.endsAssignment, Bool.and_eq_true, bne_iff_ne] at hassignment
    apply reads_assignment (Source.word_of_beginsOperand hbegins rfl)
      (Source.word_of_beginsOperand hbegins rfl)
    apply reads_conditional
    apply reads_binary hleft hright hoperator hs hx hu hparts.1.1 hparts.1.2 hfit
    intro t ht hkind
    exact ⟨hassignment.1.1.1, hparts.2, ⟨ht, by rw [hkind]; rintro ⟨⟩⟩, rfl⟩

/-- A comparison that chooses between two expressions. -/
theorem isExpression_choice {yes no : Text} (hyes : IsExpression must items yes)
    (hno : IsExpression must others no) :
    IsExpression must (items ++ others)
      (binary left operator right ++ (text " ? " ++ (yes ++ (text " : " ++ no)))) where
  begins := by
    obtain ⟨d, y, rfl, hd⟩ := exists_cons_of_beginsPhrase hleft.begins
    exact hd
  reads rounds depth c s x u hs hx hu hends hfit := by
    generalize hz : no ++ x = z
    generalize hy : yes ++ (text " : " ++ z) = y
    have hs : s.rest = binary left operator right ++ (text " ? " ++ y) := by
      rw [hs, ← hy, ← hz]
      simp
    have hlength : z.length + 3 ≤ y.length ∧ y.length + 3 ≤ s.rest.length := by
      rw [hs, ← hy]
      have hcolon : (text " : ").length = 3 := rfl
      have hquestion : (text " ? ").length = 3 := rfl
      simp only [List.length_append, hcolon, hquestion]
      omega
    have hbegins : s.beginsOperand = true := by
      refine hleft.opens s (' ' :: (operator ++ ' ' :: (right ++ (text " ? " ++ y)))) ?_ rfl
      rw [hs]
      simp [binary]
    have hysolid : isSolid y = true := by
      rw [← hy]
      exact isSolid_of_beginsPhrase hyes.begins
    have hzsolid : isSolid z = true := by
      rw [← hz]
      exact isSolid_of_beginsPhrase hno.begins
    have hquestion : Source.ofText (text " ? " ++ y) = some ⟨'?' :: ([' '] ++ y), false, []⟩ :=
      Source.ofText_append (b := [' ']) (x := '?' :: ([' '] ++ y)) rfl rfl
    have hcolon : Source.ofText (text " : " ++ z) = some ⟨':' :: ([' '] ++ z), false, []⟩ :=
      Source.ofText_append (b := [' ']) (x := ':' :: ([' '] ++ z)) rfl rfl
    have hassignment := hends
    simp only [Source.endsExpression, Bool.and_eq_true] at hassignment
    apply reads_assignment (Source.word_of_beginsOperand hbegins rfl)
      (Source.word_of_beginsOperand hbegins rfl)
    apply reads_conditional_choice
    apply reads_binary hleft hright hoperator hs rfl hquestion rfl rfl hfit
    intro test htest _
    refine ⟨rfl, ?_⟩
    refine reads_mark_gap (b := [' ']) (y := y) rfl rfl hysolid ?_
    refine hyes.readsWithin hy.symm rfl hcolon (Source.endsExpression_of_mem (by decide)) ?_ ?_
    · dsimp only
      omega
    intro t ht
    refine reads_mark_gap (b := [' ']) (y := z) rfl rfl hzsolid ?_
    refine hno.readsWithin hz.symm hx hu hends ?_ ?_
    · dsimp only
      omega
    intro t' ht'
    refine ⟨hassignment.2, ⟨?_, by rintro ⟨⟩⟩, rfl⟩
    have hall := allNeed_cons htest (allNeed_cons ht.needs (allNeed_one ht'.needs))
    exact needs_node rfl hall

end Binary

/-! ## Objects, elements and parentheses -/

/-- The empty object is an expression with no items. -/
theorem isExpression_emptyObject : IsExpression must [] (text "\x7b\x7d") where
  begins := rfl
  reads rounds depth c s x u hs _ hu hends hfit := by
    refine reads_assignment_emptyObject ?_ hfit.rounds_pos hs
    intro t ht hkind
    rw [Skips, hu]
    exact ⟨hends, ⟨ht, by rw [hkind]; rintro ⟨⟩⟩, rfl⟩

/-- An object with members on lines of their own. -/
theorem isExpression_closedEntries {entries : List (Text × Text)} {b b' : Text}
    (hentries : ∀ e ∈ entries, IsKey must e.1 ∧ IsValue must e.2) (hb : b.all isBlank = true)
    (hb' : b'.all isBlank = true) :
    IsExpression must []
      ('\x7b' :: ((entries.flatMap fun e => b ++ entry e.1 e.2 ++ [',']) ++ (b' ++ ['\x7d']))) where
  begins := rfl
  reads rounds depth c s x u hs _ hu hends hfit := by
    refine reads_assignment_closedEntries ?_ hentries hfit hb hb' (x := x) (by simp [hs])
    intro t ht hkind
    rw [Skips, hu]
    exact ⟨hends, ⟨ht, by rw [hkind]; rintro ⟨⟩⟩, rfl⟩

/-- An element is an expression with its items. -/
theorem isExpression_element {o : Text} (ho : ∀ x, Element must items x (o ++ x)) :
    IsExpression must items ('<' :: o) where
  begins := rfl
  reads rounds depth c s x u hs _ hu hends hfit := by
    simp only [Source.endsExpression, Bool.and_eq_true] at hends
    apply reads_assignment_element hfit.rounds_pos (ho x).startsName hs
    apply (readsElements rounds depth items x (o ++ x) c s (ho x) hs hfit).mono
    rintro t v ⟨ht, rfl⟩
    rw [Skips, hu]
    refine ⟨hends.1.2, hends.2, ⟨ht.needs, ?_⟩, rfl⟩
    rcases ht.kind with hkind | hkind <;> rw [hkind] <;> rintro ⟨⟩

theorem endsName_of_blank {b : Text} (hb : b.all isBlank = true) :
    endsName (b ++ ')' :: x) = true := by
  cases b with
  | nil => rfl
  | cons d b =>
      simp only [List.all_cons, Bool.and_eq_true] at hb
      have hpart : isNamePart d = false := by
        rw [← Bool.not_eq_true]
        intro hpart
        simp [isBlank_of_isNamePart hpart] at hb
      have hslash : d ≠ '\\' := by
        rintro rfl
        exact absurd hb.1 (by decide)
      simp [endsName, hpart, hslash]

/-- An expression in parentheses. -/
theorem isExpression_group {b b' : Text} (he : IsExpression must items e)
    (hb : b.all isBlank = true) (hb' : b'.all isBlank = true) :
    IsExpression must items ('(' :: (b ++ (e ++ (b' ++ [')'])))) where
  begins := rfl
  reads rounds depth c s x u hs _ hu hends hfit := by
    generalize hy : e ++ (b' ++ ')' :: x) = y
    have hs : s.rest = '(' :: (b ++ y) := by simp [hs, ← hy]
    have hlength := congrArg List.length hs
    rw [List.length_cons, List.length_append] at hlength
    have hsolid : isSolid y = true := by
      rw [← hy]
      exact isSolid_of_beginsPhrase he.begins
    have hbegins : s.beginsOperand = true := Source.beginsOperand_of_rest hs rfl
    have hrounds : 0 < (grammarWithin rounds depth).rounds := hfit.rounds_pos
    apply reads_assignment_operand hrounds hbegins
    apply reads_operand_primary hrounds hbegins
    refine reads_group hrounds hs hb hsolid ⟨?_, ?_⟩ ?_
    · exact mark_ne_of_beginsPhrase he.begins hy.symm (by decide)
    · exact mark_ne_of_beginsPhrase he.begins hy.symm (by decide)
    refine he.readsWithin hy.symm (endsName_of_blank hb')
      (Source.ofText_append (x := ')' :: x) hb' rfl) (Source.endsExpression_of_mem (by decide)) ?_ ?_
    · dsimp only
      omega
    intro t ht
    refine ⟨ht.isOwn, rfl, Reads.mark (x := x) rfl ?_⟩
    rw [Skips, hu]
    have hoperand := endsOperand_of_endsExpression hends
    apply reads_suffixes_end hrounds (endsAccess_of_endsOperand hoperand)
    exact ⟨hoperand, hends, ⟨needs_node rfl (allNeed_one ht.needs), by rintro ⟨⟩⟩, rfl⟩

end Viewloom.Script
