import Viewloom.Proofs.Script.Phrases

/-!
# Statements at the ends of lines

The statements of an emitted module. Each of them is read in front of a line end, so that statements
behind one another can be read as a list.
-/

namespace Viewloom.Script

open Viewloom.Script.Parser Viewloom.Script.Tree Template

variable {must : Bool} {g : Grammar} {c : Context} {rounds depth n : Nat} {s u : Source}
  {e w x y name : Text} {items others : List Item} {Q : Tree → Source → Prop}

/-! ## Ends of lines -/

/-- Words that end a list of statements or go on with the statement in front of them. -/
def joiningWords : List Text :=
  [text "case", text "default", text "in", text "instanceof", text "else", text "catch",
    text "finally"]

/-- Whether a text begins with a word that can begin a statement. -/
def BeginsStatement (e : Text) : Prop :=
  ∃ w x, e = w ++ x ∧ x ≠ [] ∧ isPlainName w = true ∧ endsName x = true ∧
    joiningWords.contains w = false

/-- Whether a line ends in front of a text, and behind it the statements end or go on. -/
def EndsLine (x : Text) : Prop :=
  ∃ b y, x = b ++ y ∧ b.all isBlank = true ∧ b.any isLineEnd = true ∧
    (y = [] ∨ (∃ z, y = '\x7d' :: z) ∨ BeginsStatement y)

/-- What stands behind the end of a line. -/
structure Ended (u : Source) : Prop where
  hasBreak : u.hasBreak = true
  ends : u.endsExpression = true
  mark : u.mark = [] ∨ u.mark = ['\x7d']
  word : joiningWords.contains u.word = false

/-- Where a statement has ended, no mark follows but a closing brace. -/
theorem Ended.mark_ne (h : Ended u) {m : Text} (hm : m ≠ []) (hbrace : m ≠ ['\x7d']) : u.mark ≠ m := by
  rintro rfl
  rcases h.mark with heq | heq
  · exact hm heq
  · exact hbrace heq

/-- Where a statement has ended, no word joins it to what follows. -/
theorem Ended.word_ne (h : Ended u) {w : Text} (hw : joiningWords.contains w = true) :
    u.word ≠ w := by
  rintro rfl
  rw [h.word] at hw
  cases hw

/-- Behind the end of a line the statement has ended. -/
theorem EndsLine.ended (hx : EndsLine x) : ∃ u, Source.ofText x = some u ∧ Ended u := by
  obtain ⟨b, y, rfl, hb, hbreak, hy⟩ := hx
  rcases hy with rfl | ⟨z, rfl⟩ | ⟨w, x, rfl, -, hw, hx, hjoin⟩
  · exact ⟨_, Source.ofText_append hb rfl, hbreak, rfl, .inl rfl, rfl⟩
  · exact ⟨_, Source.ofText_append hb rfl, hbreak, rfl, .inr rfl, rfl⟩
  · have hword : Source.word ⟨w ++ x, b.any isLineEnd, []⟩ = w := Source.word_of_isPlainName rfl hw hx
    refine ⟨_, Source.ofText_append hb (isSolid_of_isPlainName hw), hbreak, ?_, .inl ?_, ?_⟩
    · apply Source.endsExpression_of_isPlainName rfl hw hx
      · rintro rfl
        exact absurd hjoin (by decide)
      · rintro rfl
        exact absurd hjoin (by decide)
    · exact Source.mark_of_isPlainName rfl hw
    · rw [hword]
      exact hjoin

theorem endsName_of_isBlank {d : Char} (hd : isBlank d = true) : endsName (d :: x) = true := by
  have hpart : isNamePart d = false := by
    rw [← Bool.not_eq_true]
    intro hpart
    simp [isBlank_of_isNamePart hpart] at hd
  have hslash : d ≠ '\\' := by
    rintro rfl
    exact absurd hd (by decide)
  simp [endsName, hpart, hslash]

theorem EndsLine.endsName (hx : EndsLine x) : endsName x = true := by
  obtain ⟨b, y, rfl, hb, hbreak, -⟩ := hx
  cases b with
  | nil => simp at hbreak
  | cons d b =>
      simp only [List.all_cons, Bool.and_eq_true] at hb
      exact endsName_of_isBlank hb.1

/-- A statement that has ended needs no semicolon. -/
theorem reads_semicolon {Q : Unit → Source → Prop} (h : Ended s) (hQ : Q () s) :
    Reads must semicolon s Q := by
  have hmark : s.mark ≠ [';'] := h.mark_ne (by decide) (by decide)
  simp [semicolon, hmark, h.hasBreak, hQ]

/-! ## Statements by their first words -/

/-- What is known of the tree of a statement: what it requires, that it is no directive, and whether it
may be part of another statement. -/
structure Requiring (isPart : Bool) (items : List Item) (t : Tree) : Prop where
  needs : t.Needs items
  isOwn : ∀ source, asDirective source t = t
  isBody : isPart = true → isBody t = true

/-- A text that is read as a statement where a line ends behind it. Some statements only stand in
functions. -/
structure IsStatement (must inFunction isPart : Bool) (items : List Item) (e : Text) : Prop where
  reads : ∀ rounds depth c s x u, (inFunction = true → c.inFunction = true) →
    Source.rest s = e ++ x → EndsLine x → Source.ofText x = some u → Ended u →
      Suffices 2 rounds depth s.rest.length →
        Reads must (statement (grammarWithin rounds depth) c) s fun t v =>
          Requiring isPart items t ∧ v = u

theorem requiring_of_kind {isPart : Bool} {t : Tree} (ht : t.Needs items)
    (hkind : t.kind ≠ .expression) (hbody : isPart = true → isBody t = true) :
    Requiring isPart items t := by
  refine ⟨ht, fun source => ?_, hbody⟩
  unfold asDirective
  split
  · exact absurd rfl hkind
  · rfl

/-- A plain name begins with no other character than those of names. -/
theorem head_ne_of_isPlainName (hw : isPlainName w = true) {d : Char}
    (hd : isNameStart d = false) : (w ++ x).head? ≠ some d := by
  cases w with
  | nil => simp [isPlainName] at hw
  | cons e w =>
      simp only [isPlainName, Bool.and_eq_true] at hw
      rw [List.cons_append, List.head?_cons, ne_eq, Option.some.injEq]
      exact ne_of_isNameStart hw.1 hd

/-- A statement is told by the word that it begins with. -/
theorem reads_statement (hs : s.rest = w ++ x) (hw : isPlainName w = true) (hx : endsName x = true)
    (h : Reads must (match (wordStatements g c).lookup w with
      | some p => p
      | none => do
        if ← atVariables then
          let t ← variableList g c.allowIn true
          semicolon
          pure t
        else if ← atAsyncFunction then declarationTree g c
        else if ← atImport then importDeclaration g c
        else expressionStatement g c) s Q) :
    Reads must (statement g c) s Q := by
  have hne (d : Char) (hd : isNameStart d = false) : s.rest.head? ≠ some d := by
    rw [hs]
    exact head_ne_of_isPlainName hw hd
  simp only [statement, Reads.bind_iff, Reads.nextChar_iff]
  split
  · next heq => exact absurd heq (hne '\x7b' (by decide))
  · next heq => exact absurd heq (hne ';' (by decide))
  · simp only [Reads.bind_iff, Reads.nextWord_iff, Source.word_of_isPlainName hs hw hx]
    exact h

/-- A word of statements is read by its own reader. -/
theorem reads_statement_word {p : Parser Tree} (hs : s.rest = w ++ x) (hw : isPlainName w = true)
    (hx : endsName x = true) (hlookup : (wordStatements g c).lookup w = some p)
    (h : Reads must p s Q) : Reads must (statement g c) s Q := by
  apply reads_statement hs hw hx
  simpa only [hlookup] using h

/-! ## Declarations of variables -/

/-- Whether a word is the name of a variable in any context. -/
def isVariable (name : Text) : Bool := isHead name && !constants.contains name

section Variable

variable (hname : isVariable name = true)
include hname

/-- The name of a variable is the head of a chain. -/
theorem isHead_of_isVariable : isHead name = true := by
  simp only [isVariable, Bool.and_eq_true] at hname
  exact hname.1

theorem isPlainName_of_isVariable : isPlainName name = true :=
  isPlainName_of_isHead (isHead_of_isVariable hname)

theorem isVariableName_of_isVariable (c : Context) : isVariableName c name = true := by
  simp only [isVariable, Bool.and_eq_true, Bool.not_eq_true'] at hname
  exact isVariableName_of_isHead hname.1 hname.2 c

/-- The name of a variable is read as it stands. -/
theorem reads_variableName {Q : Text → Source → Prop} (hs : s.rest = name ++ x)
    (hx : endsName x = true) (h : Skips must x (Q name)) :
    Reads must (variableName c) s Q := by
  simp only [variableName, Reads.bind_iff]
  apply reads_name hs (isPlainName_of_isVariable hname) hx
  apply h.mono
  intro u _ hu
  exact Reads.require (isVariableName_of_isVariable hname c) hu

/-- A declared name may have a value behind it. -/
theorem reads_declared_name (hs : s.rest = name ++ x) (hx : endsName x = true)
    (h : Skips must x fun u => Reads must (do
      if ← skipMark ['='] then
        let value ← g.assignment c
        pure (inner .withDefault [leaf .identifier name, value])
      else pure (leaf .identifier name)) u Q) :
    Reads must (declared g c) s Q := by
  have hplain := isPlainName_of_isVariable hname
  simp only [declared, Reads.bind_iff, Reads.nextChar_iff]
  split
  · next heq => exact absurd (hs ▸ heq) (head_ne_of_isPlainName hplain (by decide))
  · next heq => exact absurd (hs ▸ heq) (head_ne_of_isPlainName hplain (by decide))
  · rw [Reads.bind_iff]
    apply reads_variableName hname hs hx
    apply h.mono
    intro u _ hu
    simpa only [Reads.bind_iff] using hu

/-- A variable without a value. -/
theorem reads_declared_bare (hs : s.rest = name ++ x) (hx : endsName x = true)
    (h : Skips must x fun u => u.mark ≠ ['='] ∧ Q (leaf .identifier name) u) :
    Reads must (declared g c) s Q := by
  apply reads_declared_name hname hs hx
  apply h.mono
  rintro u - ⟨hmark, hQ⟩
  simp [hmark, hQ]

/-- A variable and its value. -/
theorem reads_declared_value {P : Tree → Prop} (he : Expresses must P e)
    (hs : s.rest = name ++ (text " = " ++ (e ++ x))) (hx : endsName x = true)
    (hu : Source.ofText x = some u) (hends : u.endsExpression = true)
    (hfit : Suffices 2 rounds depth s.rest.length)
    (h : ∀ t, P t → Q (inner .withDefault [leaf .identifier name, t]) u) :
    Reads must (declared (grammarWithin rounds depth) c) s Q := by
  have hlength : (e ++ x).length ≤ s.rest.length := by
    simp only [hs, List.length_append]
    omega
  apply reads_declared_name hname hs rfl
  apply skips_append (b := [' ']) (x := '=' :: ([' '] ++ (e ++ x))) rfl rfl
  simp only [Reads.bind_iff, Reads.skipMark_iff]
  refine ⟨fun _ => ?_, fun hne => absurd rfl hne⟩
  refine reads_mark_gap (b := [' ']) (y := e ++ x) rfl rfl (isSolid_of_beginsPhrase he.begins) ?_
  simp only [if_true, Reads.bind_iff]
  refine he.readsWithin rfl hx hu hends ?_ ?_
  · dsimp only
    omega
  exact h

end Variable

/-- A name with a value declares both. -/
theorem reads_declarator_value {isConstant needsValue : Bool}
    (h : Reads must (declared g c) s fun t u => ∃ target value,
      t = inner .withDefault [target, value] ∧ Q (inner .declarator [target, value]) u) :
    Reads must (declarator g c isConstant needsValue) s Q := by
  simp only [declarator, Reads.bind_iff]
  apply h.mono
  rintro t u ⟨target, value, rfl, hQ⟩
  exact hQ

/-- A name without a value declares a hole. -/
theorem reads_declarator_bare
    (h : Reads must (declared g c) s fun t u =>
      t = leaf .identifier name ∧ Q (inner .declarator [leaf .identifier name, hole]) u) :
    Reads must (declarator g c false true) s Q := by
  simp only [declarator, Reads.bind_iff]
  apply h.mono
  rintro t u ⟨rfl, hQ⟩
  exact hQ

/-- One declarator without a comma behind it. -/
theorem reads_declarators {isConstant needsValue : Bool} {Q : List Tree → Source → Prop} (hn : 0 < n)
    (h : Reads must (declarator g c isConstant needsValue) s fun t u =>
      u.mark ≠ [','] ∧ Q [t] u) :
    Reads must (declarators g c isConstant needsValue n) s Q := by
  obtain ⟨k, rfl⟩ : ∃ k, n = k + 1 := ⟨n - 1, by omega⟩
  simp only [declarators, Reads.bind_iff, Reads.skipMark_iff]
  apply h.mono
  rintro t u ⟨hmark, hQ⟩
  simpa [hmark] using hQ

/-- A declaration by `const` or `let` that ends with its line. -/
theorem reads_statement_variables (hg : 0 < g.rounds) (hs : s.rest = w ++ ([' '] ++ y))
    (hw : isPlainName w = true) (hy : isSolid y = true)
    (hlookup : (wordStatements g c).lookup w = none)
    (hvariables : Reads must atVariables s fun found v => found = true ∧ v = s)
    (h : Reads must (declarator g c.allowIn (w == text "const") true) ⟨y, false, []⟩ fun t v =>
      Ended v ∧ Q (.node .variable w [t]) v) :
    Reads must (statement g c) s Q := by
  apply reads_statement hs hw rfl
  simp only [hlookup, Reads.bind_iff]
  apply hvariables.mono
  rintro found v ⟨rfl, rfl⟩
  simp only [if_true, variableList, Reads.bind_iff]
  apply reads_name hs hw rfl
  apply skips_append (b := [' ']) rfl hy
  apply reads_declarators hg
  apply h.mono
  rintro t v ⟨hended, hQ⟩
  refine ⟨hended.mark_ne (by decide) (by decide), ?_⟩
  exact reads_semicolon hended hQ

/-- The word of constants begins a declaration of variables. -/
theorem reads_atVariables_const (hs : s.rest = text "const" ++ x) (hx : endsName x = true) :
    Reads must atVariables s fun found v => found = true ∧ v = s := by
  have hword : s.word = text "const" := Source.word_of_isPlainName hs rfl hx
  simp [atVariables, hword]

/-- A constant is read with its name and its value. -/
theorem reads_statement_const {P : Tree → Prop} (hname : isVariable name = true)
    (he : Expresses must P e)
    (hs : s.rest = text "const " ++ (name ++ (text " = " ++ e)) ++ x) (hx : EndsLine x)
    (hu : Source.ofText x = some u) (hended : Ended u) (hfit : Suffices 2 rounds depth s.rest.length)
    (h : ∀ t, P t →
      Q (.node .variable (text "const") [inner .declarator [leaf .identifier name, t]]) u) :
    Reads must (statement (grammarWithin rounds depth) c) s Q := by
  have hs : s.rest = text "const" ++ ([' '] ++ (name ++ (text " = " ++ (e ++ x)))) := by
    rw [hs]
    simp
    rfl
  have hlength : (name ++ (text " = " ++ (e ++ x))).length ≤ s.rest.length := by
    simp only [hs, List.length_append]
    omega
  refine reads_statement_variables hfit.rounds_pos hs rfl
    (isSolid_of_isPlainName (isPlainName_of_isVariable hname)) rfl
    (reads_atVariables_const hs rfl) ?_
  apply reads_declarator_value
  refine reads_declared_value hname he rfl hx.endsName hu hended.ends ?_ ?_
  · dsimp only
    omega
  intro t ht
  exact ⟨_, t, rfl, hended, h t ht⟩

/-- A constant. -/
theorem isStatement_const (hname : isVariable name = true) (he : IsExpression must items e) :
    IsStatement must false false items (text "const " ++ (name ++ (text " = " ++ e))) where
  reads rounds depth c s x u _ hs hx hu hended hfit := by
    apply reads_statement_const hname he hs hx hu hended hfit
    intro t ht
    have hdeclarator : (inner .declarator [leaf .identifier name, t]).Needs items :=
      needs_node rfl (allNeed_cons (needs_leaf rfl) (allNeed_one ht.needs))
    exact ⟨requiring_of_kind (needs_node rfl (allNeed_one hdeclarator)) (by rintro ⟨⟩) (by rintro ⟨⟩),
      rfl⟩

/-- A variable without a value is read with its name. -/
theorem reads_statement_let (hname : isVariable name = true) (hs : s.rest = text "let " ++ name ++ x)
    (hx : EndsLine x) (hu : Source.ofText x = some u) (hended : Ended u)
    (hfit : Suffices 2 rounds depth s.rest.length)
    (h : Q (.node .variable (text "let") [inner .declarator [leaf .identifier name, hole]]) u) :
    Reads must (statement (grammarWithin rounds depth) c) s Q := by
  have hplain := isPlainName_of_isVariable hname
  have hs : s.rest = text "let" ++ ([' '] ++ (name ++ x)) := by
    rw [hs]
    simp
    rfl
  have hword : s.word = text "let" := Source.word_of_isPlainName hs rfl rfl
  have hin : name ≠ text "in" ∧ name ≠ text "instanceof" := by
    have hreserved := isVariableName_of_isVariable hname Context.top
    constructor <;>
      · rintro rfl
        exact absurd hreserved (by decide)
  have hpeek : Reads must (peek readName fun name =>
      name.isEscaped || name.word != text "in" && name.word != text "instanceof")
      ⟨name ++ x, false, []⟩ fun found _ => found = true :=
    Reads.peek (readName_append hplain hx.endsName) (by simp [hin])
  have hlet : Reads must atLet s fun found v => found = true ∧ v = s := by
    simp only [atLet, Reads.bind_iff, Reads.atWord_iff, hword, beq_self_eq_true, if_true,
      Reads.behindWord_iff, Reads.nextChar_iff]
    apply reads_name hs rfl rfl
    apply skips_append (b := [' ']) rfl (isSolid_of_isPlainName hplain)
    split
    · next heq => exact absurd heq (head_ne_of_isPlainName hplain (by decide))
    · next heq => exact absurd heq (head_ne_of_isPlainName hplain (by decide))
    · apply hpeek.mono
      intro found _ hfound
      exact ⟨hfound, trivial⟩
  have hvariables : Reads must atVariables s fun found v => found = true ∧ v = s := by
    have hvar : (text "let" == text "var" || text "let" == text "const") = false := by decide
    simpa only [atVariables, Reads.bind_iff, Reads.nextWord_iff, hword, hvar, Bool.false_eq_true,
      if_false] using hlet
  refine reads_statement_variables hfit.rounds_pos hs rfl
    (isSolid_of_isPlainName hplain) rfl hvariables ?_
  have hconst : (text "let" == text "const") = false := by decide
  rw [hconst]
  apply reads_declarator_bare
  apply reads_declared_bare hname rfl hx.endsName
  rw [Skips, hu]
  exact ⟨hended.mark_ne (by decide) (by decide), rfl, hended, h⟩

/-- A variable that gets its value later. -/
theorem isStatement_let (hname : isVariable name = true) :
    IsStatement must false false [] (text "let " ++ name) where
  reads rounds depth c s x u _ hs hx hu hended hfit := by
    apply reads_statement_let hname hs hx hu hended hfit
    have hdeclarator : (inner .declarator [leaf .identifier name, hole]).Needs [] :=
      needs_node rfl (allNeed_cons (needs_leaf rfl) (allNeed_one (needs_leaf rfl)))
    exact ⟨requiring_of_kind (needs_node rfl (allNeed_one hdeclarator)) (by rintro ⟨⟩) (by rintro ⟨⟩),
      rfl⟩

/-! ## Assignments, and leaving a function -/

/-- An expression that is no string requires as a statement what it needs. -/
theorem requiring_expression {isPart : Bool} {t : Tree} (ht : t.Needs items)
    (hkind : t.kind ≠ .string) : Requiring isPart items (Tree.inner .expression [t]) := by
  refine ⟨needs_node rfl (allNeed_one ht), fun source => ?_, fun _ => rfl⟩
  unfold asDirective
  split
  · next heq =>
      simp only [Tree.inner, Tree.node.injEq, List.cons.injEq] at heq
      rw [heq.2.2.1] at hkind
      exact absurd rfl hkind
  · rfl

/-- A chain that is given a value is a statement. -/
theorem reads_statement_set {head : Text} {links : List Link} {target : Tree}
    (hhead : isHead head = true) (hlinks : links.all Link.isSound = true)
    (hpattern : (chainTree head links).toPattern false = some target)
    (hword : ∀ g c, (wordStatements g c).lookup head = none)
    (hvariables : head ≠ text "var" ∧ head ≠ text "const" ∧ head ≠ text "let")
    (he : IsExpression must items e) (hs : s.rest = chain head links ++ (text " = " ++ e) ++ x)
    (hx : EndsLine x) (hu : Source.ofText x = some u) (hended : Ended u)
    (hfit : Suffices 2 rounds depth s.rest.length)
    (h : ∀ t, IsPhrase items t → Q (inner .expression [.node .assignment ['='] [target, t]]) u) :
    Reads must (statement (grammarWithin rounds depth) c) s Q := by
  have hs : s.rest = chain head links ++ (text " = " ++ (e ++ x)) := by simp [hs]
  have hparts : s.rest = head ++ (links.flatMap Link.print ++ (text " = " ++ (e ++ x))) := by
    rw [hs, chain, List.append_assoc]
  have hlength : (e ++ x).length < s.rest.length := by
    rw [hs]
    have htext : (text " = ").length = 3 := rfl
    simp only [List.length_append, htext]
    omega
  have hrounds : 0 < (grammarWithin rounds depth).rounds := hfit.rounds_pos
  have hplain := isPlainName_of_isHead hhead
  have hends : endsName (links.flatMap Link.print ++ (text " = " ++ (e ++ x))) = true :=
    endsName_links rfl
  have hasync : head ≠ text "async" := ne_of_isHead hhead rfl
  have himport : head ≠ text "import" := ne_of_isHead hhead rfl
  apply reads_statement hparts hplain hends
  have htree : Reads must (expressionStatement (grammarWithin rounds depth) c) s Q := by
    simp only [expressionStatement, Reads.bind_iff]
    apply reads_expression hrounds
    apply reads_assignmentWithin hfit
    intro d hd hfit
    apply reads_assignment_set hpattern (beginsOperand_chain hs hhead rfl)
    apply reads_conditional
    apply reads_operand_chain hfit.rounds_pos hfit hs hhead hlinks rfl
    apply skips_append (b := [' ']) (x := '=' :: ([' '] ++ (e ++ x))) rfl rfl
    refine ⟨rfl, ?_⟩
    apply reads_operations_end hfit.rounds_pos rfl
    refine ⟨show ['='] ≠ ['?'] by decide, rfl, rfl, ?_⟩
    refine reads_mark_gap (b := [' ']) (y := e ++ x) rfl rfl (isSolid_of_beginsPhrase he.begins) ?_
    refine he.readsWithin rfl hx.endsName hu hended.ends ?_ ?_
    · dsimp only
      omega
    intro t ht
    refine ⟨hended.mark_ne (by decide) (by decide), ?_⟩
    have hkind : ((Tree.node .assignment ['='] [target, t]).kind == .identifier) = false := rfl
    simp only [hkind, Bool.false_and, Reads.atMark_iff, Bool.false_eq_true, if_false,
      Reads.bind_iff]
    exact reads_semicolon hended (h t ht)
  simpa [hword, atVariables, atLet, atAsyncFunction, atImport, hvariables, hasync, himport,
    Source.word_of_isPlainName hparts hplain hends] using htree

/-- A variable or a member that gets a value. -/
theorem isStatement_set {head : Text} {links : List Link} {target : Tree} (hhead : isHead head = true)
    (hlinks : links.all Link.isSound = true)
    (hpattern : (chainTree head links).toPattern false = some target) (htarget : target.Needs [])
    (hword : ∀ g c, (wordStatements g c).lookup head = none)
    (hvariables : head ≠ text "var" ∧ head ≠ text "const" ∧ head ≠ text "let")
    (he : IsExpression must items e) :
    IsStatement must false true items (chain head links ++ (text " = " ++ e)) where
  reads rounds depth c s x u _ hs hx hu hended hfit := by
    apply reads_statement_set hhead hlinks hpattern hword hvariables he hs hx hu hended hfit
    intro t ht
    have hneeds : (Tree.node .assignment ['='] [target, t]).Needs items :=
      needs_node rfl (allNeed_cons htarget (allNeed_one ht.needs))
    exact ⟨requiring_expression hneeds (by rintro ⟨⟩), rfl⟩

/-- A phrase on the same line does not end a statement. -/
theorem reads_endsStatement {e : Text} {Q : Bool → Source → Prop} (he : beginsPhrase e = true)
    (hs : s.rest = e ++ x) (hbreak : s.hasBreak = false) (h : Q false s) :
    Reads must endsStatement s Q := by
  have hnil : s.rest ≠ [] := by
    obtain ⟨d, y, rfl, -⟩ := exists_cons_of_beginsPhrase he
    simp [hs]
  have hbrace : s.rest.head? ≠ some '\x7d' := by
    rw [hs]
    exact head_ne_of_beginsPhrase he (by decide)
  have hsemicolon : s.rest.head? ≠ some ';' := by
    rw [hs]
    exact head_ne_of_beginsPhrase he (by decide)
  have hend : (s.hasBreak || s.rest == [] || s.rest.head? == some '\x7d' ||
      s.rest.head? == some ';') = false := by
    simp [hbreak, hnil, hbrace, hsemicolon, -List.beq_nil_eq]
  simp only [endsStatement, Reads.bind_iff, Reads.source_iff, Reads.pure_iff, hend]
  exact h

/-- A value that a function returns. -/
theorem isStatement_return (he : IsExpression must items e) :
    IsStatement must true true items (text "return " ++ e) where
  reads rounds depth c s x u hc hs hx hu hended hfit := by
    have hs : s.rest = text "return" ++ ([' '] ++ (e ++ x)) := by
      rw [hs]
      simp
      rfl
    have hlength : (e ++ x).length ≤ s.rest.length := by
      simp only [hs, List.length_append]
      omega
    apply reads_statement_word hs rfl rfl rfl
    simp only [returnTree, Reads.bind_iff]
    apply Reads.require (hc rfl)
    apply reads_word_gap hs rfl rfl rfl (isSolid_of_beginsPhrase he.begins)
    apply reads_endsStatement he.begins rfl rfl
    simp only [Bool.false_eq_true, if_false, Reads.bind_iff]
    apply reads_expression hfit.rounds_pos
    refine he.readsWithin rfl hx.endsName hu hended.ends ?_ ?_
    · dsimp only
      omega
    intro t ht
    refine ⟨hended.mark_ne (by decide) (by decide), ?_⟩
    apply reads_semicolon hended
    exact ⟨requiring_of_kind (needs_node rfl (allNeed_one ht.needs)) (by rintro ⟨⟩) fun _ => rfl, rfl⟩

/-- A thrown expression is a statement with the items of the expression. -/
theorem isStatement_throw (he : IsExpression must items e) :
    IsStatement must false true items (text "throw " ++ e) where
  reads rounds depth c s x u _ hs hx hu hended hfit := by
    have hs : s.rest = text "throw" ++ ([' '] ++ (e ++ x)) := by
      rw [hs]
      simp
      rfl
    have hlength : (e ++ x).length ≤ s.rest.length := by
      simp only [hs, List.length_append]
      omega
    apply reads_statement_word hs rfl rfl rfl
    simp only [throwTree, Reads.bind_iff, Reads.hasBreak_iff]
    apply reads_word_gap hs rfl rfl rfl (isSolid_of_beginsPhrase he.begins)
    apply Reads.require rfl
    apply reads_expression hfit.rounds_pos
    refine he.readsWithin rfl hx.endsName hu hended.ends ?_ ?_
    · dsimp only
      omega
    intro t ht
    refine ⟨hended.mark_ne (by decide) (by decide), ?_⟩
    apply reads_semicolon hended
    exact ⟨requiring_of_kind (needs_node rfl (allNeed_one ht.needs)) (by rintro ⟨⟩) fun _ => rfl, rfl⟩

/-! ## Names taken out of an object -/

/-- Whether a word is only the name of a member. -/
def isMemberName (name : Text) : Bool :=
  isPlainName name && !([text "static", text "get", text "set", text "async"].contains name)

/-- The name of a member is its head, with nothing in front of it. -/
theorem reads_memberHead_name {Q : Head → Source → Prop} (hs : s.rest = name ++ x)
    (hname : isMemberName name = true) (hx : endsName x = true) (h : Q ⟨[], false, false⟩ s) :
    Reads must memberHead s Q := by
  simp only [isMemberName, Bool.and_eq_true, Bool.not_eq_true', List.contains_eq_mem,
    decide_eq_false_iff_not, List.mem_cons, not_or] at hname
  obtain ⟨hplain, -, hget, hset, hasync, -⟩ := hname
  have hword : s.word = name := Source.word_of_isPlainName hs hplain hx
  have hmark : s.mark = [] := Source.mark_of_isPlainName hs hplain
  simp [memberHead, hword, hget, hset, hasync, hmark, h]

/-- A plain name is read as a key. -/
theorem reads_key_name (hs : s.rest = name ++ x) (hname : isPlainName name = true)
    (hx : endsName x = true) (h : Skips must x (Q (leaf .identifier name))) :
    Reads must (key g c) s Q := by
  cases name with
  | nil => simp [isPlainName] at hname
  | cons d name =>
      have hne (e : Char) (he : isNameStart e = false) : s.rest.head? ≠ some e := by
        rw [hs]
        exact head_ne_of_isPlainName hname he
      simp only [key, Reads.bind_iff, Reads.nextChar_iff]
      split
      · next heq => exact absurd heq (hne '"' (by decide))
      · next heq => exact absurd heq (hne '\'' (by decide))
      · next heq => exact absurd heq (hne '[' (by decide))
      · next heq => exact absurd heq (hne '#' (by decide))
      · next first _ _ _ _ heq =>
          obtain rfl : d = first := by simpa [hs] using heq
          have hstart : isNameStart d = true := by
            simp only [isPlainName, Bool.and_eq_true] at hname
            exact hname.1
          have hpoint : d ≠ '.' := ne_of_isNameStart hstart (by decide)
          have htoken : Reads must (token readName) s fun n u => Q (leaf .identifier n.word) u :=
            reads_name hs hname hx h
          simpa [isDigit_of_isNameStart hstart, hpoint] using htoken
      · next heq => simp [hs] at heq

/-- Whether a word is a member that names a variable. -/
def isShorthand (name : Text) : Bool := isVariable name && isMemberName name

/-- A name on its own is a member of an object. -/
theorem reads_objectMember_shorthand (hs : s.rest = name ++ x) (hname : isShorthand name = true)
    (hx : endsName x = true) (hu : Source.ofText x = some u)
    (hends : u.mark = [','] ∨ u.mark = ['\x7d']) (h : Q (leaf .shorthand name) u) :
    Reads must (objectMember g c) s Q := by
  simp only [isShorthand, Bool.and_eq_true] at hname
  obtain ⟨hvariable, hmember⟩ := hname
  have hplain := isPlainName_of_isVariable hvariable
  have hmark : s.mark ≠ text "..." := by
    rw [Source.mark_of_isPlainName hs hplain]
    decide
  have hkind : ((leaf .identifier name).kind != .privateName) = true := rfl
  have hshorthand : ((leaf .identifier name).kind == .identifier &&
      isVariableName c (leaf .identifier name).word) = true := by
    rw [Bool.and_eq_true]
    exact ⟨rfl, isVariableName_of_isVariable hvariable c⟩
  have hne {m : Text} (hcomma : m ≠ [',']) (hbrace : m ≠ ['\x7d']) : u.mark ≠ m := by
    rintro rfl
    rcases hends with heq | heq
    · exact hcomma heq
    · exact hbrace heq
  have hparen : (u.mark == ['(']) = false := beq_eq_false_iff_ne.2 (hne (by decide) (by decide))
  simp only [objectMember, Reads.bind_iff, Reads.skipMark_iff]
  refine ⟨fun heq => absurd heq hmark, fun _ => ?_⟩
  simp only [Bool.false_eq_true, if_false, Reads.bind_iff]
  apply reads_memberHead_name hs hmember hx
  apply reads_key_name hs hplain hx
  rw [Skips, hu]
  apply Reads.require hkind
  simp only [Reads.atMark_iff, hparen, Bool.false_eq_true, if_false, bne_self_eq_false,
    Reads.bind_iff, Reads.skipMark_iff]
  refine ⟨fun heq => absurd heq (hne (by decide) (by decide)), fun _ => ?_⟩
  apply Reads.require hshorthand
  refine ⟨fun heq => absurd heq (hne (by decide) (by decide)), fun _ => ?_⟩
  exact h

/-- The object that two names are taken out of. -/
def namesObject (a b : Text) : Text := text "\x7b " ++ (a ++ (text ", " ++ (b ++ text " \x7d")))

theorem isPlainName_of_isShorthand (h : isShorthand name = true) : isPlainName name = true := by
  simp only [isShorthand, Bool.and_eq_true] at h
  exact isPlainName_of_isVariable h.1

theorem mark_shorthand_ne (hs : s.rest = name ++ x) (h : isShorthand name = true) :
    s.mark ≠ ['\x7d'] := by
  rw [Source.mark_of_isPlainName hs (isPlainName_of_isShorthand h)]
  decide

/-- The two names with the brace behind them. -/
theorem reads_commaList_names {a b y : Text} {hasBreak : Bool} {Q : List Tree × Bool → Source → Prop}
    (hn : 1 < n) (ha : isShorthand a = true) (hb : isShorthand b = true)
    (h : Skips must y (Q ([leaf .shorthand a, leaf .shorthand b], false))) :
    Reads must (commaList ['\x7d'] (objectMember g c) n)
      ⟨a ++ (text ", " ++ (b ++ ([' '] ++ '\x7d' :: y))), hasBreak, []⟩ Q := by
  apply reads_commaList_cons (by omega) (mark_shorthand_ne rfl ha)
  apply reads_objectMember_shorthand rfl ha rfl (Source.ofText_of_isSolid (x := text ", " ++ _) rfl)
    (.inl rfl)
  refine ⟨fun heq => absurd (show [','] = ['\x7d'] from heq) (by decide), ?_⟩
  refine reads_mark_gap (b := [' ']) rfl rfl (isSolid_of_isPlainName (isPlainName_of_isShorthand hb)) ?_
  apply reads_commaList_last (by omega) (mark_shorthand_ne rfl hb)
  apply reads_objectMember_shorthand rfl hb rfl
    (Source.ofText_append (b := [' ']) (x := '\x7d' :: y) rfl rfl) (.inr rfl)
  exact ⟨rfl, Reads.mark rfl h⟩

/-- Two names that are taken out of a value. -/
theorem reads_assignment_names {a b : Text} {P : Tree → Prop} (ha : isShorthand a = true)
    (hb : isShorthand b = true) (he : Expresses must P e)
    (hs : s.rest = namesObject a b ++ (text " = " ++ (e ++ x)))
    (hx : endsName x = true) (hu : Source.ofText x = some u) (hends : u.endsExpression = true)
    (hfit : Suffices 1 rounds depth s.rest.length)
    (h : ∀ t, P t → Q (.node .assignment ['=']
      [inner .objectPattern [leaf .shorthand a, leaf .shorthand b], t]) u) :
    Reads must (assignment (grammarWithin rounds depth) c) s Q := by
  generalize hz : '=' :: ([' '] ++ (e ++ x)) = z
  generalize hy : [' '] ++ z = y
  have hs : s.rest = '\x7b' :: ([' '] ++ (a ++ (text ", " ++ (b ++ ([' '] ++ '\x7d' :: y))))) := by
    rw [hs, ← hy, ← hz]
    simp [namesObject]
    rfl
  have hlength : (e ++ x).length + 4 ≤ s.rest.length := by
    rw [hs, ← hy, ← hz]
    simp only [List.length_append, List.length_cons]
    omega
  have hrounds : 1 < (grammarWithin rounds depth).rounds := by
    change 1 < rounds
    omega
  have hbehind : isSolid z = true ∧ Source.mark ⟨z, [' '].any isLineEnd, []⟩ = ['='] ∧
      Source.endsAccess ⟨z, [' '].any isLineEnd, []⟩ = true ∧
      Source.endsOperand ⟨z, [' '].any isLineEnd, []⟩ = true ∧
      Source.endsOperation ⟨z, [' '].any isLineEnd, []⟩ = true := by
    rw [← hz]
    exact ⟨rfl, rfl, rfl, rfl, rfl⟩
  obtain ⟨hsolid, hequals, haccess, hoperand, hoperation⟩ := hbehind
  have hread : readPunctuator z = some (['='], [' '] ++ (e ++ x)) := by
    rw [← hz]
    rfl
  have hpattern : (Tree.node .object [] [leaf .shorthand a, leaf .shorthand b]).toPattern false =
      some (inner .objectPattern [leaf .shorthand a, leaf .shorthand b]) := rfl
  apply reads_assignment_set hpattern (beginsOperand_brace hs)
  apply reads_conditional
  apply reads_operand_object (by omega) hs
  apply skips_append (b := [' ']) rfl (isSolid_of_isPlainName (isPlainName_of_isShorthand ha))
  apply reads_commaList_names hrounds ha hb
  rw [← hy]
  apply skips_append (b := [' ']) rfl hsolid
  apply reads_suffixes_end (by omega) haccess
  refine ⟨hoperand, ?_⟩
  apply reads_operations_end (by omega) hoperation
  refine ⟨by rw [hequals]; decide, rfl, hequals, ?_⟩
  refine reads_mark_gap hread rfl (isSolid_of_beginsPhrase he.begins) ?_
  refine he.readsWithin rfl hx hu hends ?_ h
  dsimp only
  omega

/-- A constant of two names is read with its names and its value. -/
theorem reads_statement_constNames {a b : Text} {P : Tree → Prop} (ha : isShorthand a = true)
    (hb : isShorthand b = true) (he : Expresses must P e)
    (hs : s.rest = text "const " ++ (namesObject a b ++ (text " = " ++ e)) ++ x) (hx : EndsLine x)
    (hu : Source.ofText x = some u) (hended : Ended u) (hfit : Suffices 2 rounds depth s.rest.length)
    (h : ∀ t, P t → Q (.node .variable (text "const") [inner .declarator
      [inner .objectPattern [leaf .shorthand a, leaf .shorthand b], t]]) u) :
    Reads must (statement (grammarWithin rounds depth) c) s Q := by
  have hs : s.rest = text "const" ++ ([' '] ++ (namesObject a b ++ (text " = " ++ (e ++ x)))) := by
    rw [hs]
    simp
    rfl
  have hlength : (namesObject a b ++ (text " = " ++ (e ++ x))).length ≤ s.rest.length := by
    simp only [hs, List.length_append]
    omega
  refine reads_statement_variables hfit.rounds_pos hs rfl rfl rfl
    (reads_atVariables_const hs rfl) ?_
  apply reads_declarator_value
  have hhead : (namesObject a b ++ (text " = " ++ (e ++ x))).head? = some '\x7b' := rfl
  simp only [declared, Reads.bind_iff, Reads.nextChar_iff, hhead]
  apply reads_assignmentWithin
  · dsimp only
    omega
  intro d hd hfit
  apply reads_assignment_names ha hb he rfl hx.endsName hu hended.ends hfit
  intro t ht
  apply Reads.ofOption (a := inner .withDefault
    [inner .objectPattern [leaf .shorthand a, leaf .shorthand b], t]) rfl
  exact ⟨_, t, rfl, hended, h t ht⟩

/-- A declaration of two constants that are taken out of a value. -/
theorem isStatement_constNames {a b : Text} (ha : isShorthand a = true) (hb : isShorthand b = true)
    (he : IsExpression must items e) :
    IsStatement must false false items
      (text "const " ++ (namesObject a b ++ (text " = " ++ e))) where
  reads rounds depth c s x u _ hs hx hu hended hfit := by
    apply reads_statement_constNames ha hb he hs hx hu hended hfit
    intro t ht
    have hnames : (inner .objectPattern [leaf .shorthand a, leaf .shorthand b]).Needs [] :=
      needs_node rfl (allNeed_cons (needs_leaf rfl) (allNeed_one (needs_leaf rfl)))
    have hdeclarator : (inner .declarator
        [inner .objectPattern [leaf .shorthand a, leaf .shorthand b], t]).Needs items :=
      needs_node rfl (allNeed_cons hnames (allNeed_one ht.needs))
    exact ⟨requiring_of_kind (needs_node rfl (allNeed_one hdeclarator)) (by rintro ⟨⟩) (by rintro ⟨⟩),
      rfl⟩

end Viewloom.Script
