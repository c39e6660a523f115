import Viewloom.Proofs.Script.Requirements
import Viewloom.Proofs.Script.Tokens
import Viewloom.Script.Module

/-!
# Expressions in front of a rest

An expression is read up to a token that does not go on with it. The rules descend from assignments to
the operands that they consist of. The rounds and the depth of a grammar have to suffice for the text
that is left, which every level of the grammar shortens.
-/

namespace Viewloom.Script

open Viewloom.Script.Parser Viewloom.Script.Tree Template

variable {must : Bool} {g : Grammar} {c : Context} {rounds depth n : Nat} {s : Source}
  {Q : Tree → Source → Prop}

/-! ## Levels of a grammar -/

/-- The grammar in which expressions stand in one another up to a depth. -/
def grammarWithin (rounds depth : Nat) : Grammar :=
  ⟨rounds, assignmentWithin rounds depth, statementWithin rounds depth,
    elementWithin rounds depth⟩

/-- Whether a grammar suffices for a text of a length. A statement may lead to an expression and that
to an element before anything is read, so each of the three has a level of its own. -/
abbrev Suffices (level rounds depth length : Nat) : Prop :=
  length < rounds ∧ 4 * length + level ≤ depth

/-- Where a text fits, a round is left for it. -/
theorem Suffices.rounds_pos {level length d : Nat} (hfit : Suffices level rounds depth length) :
    0 < (grammarWithin rounds d).rounds :=
  Nat.zero_lt_of_lt hfit.1

/-- One level of the grammar reads an assignment by the level below. -/
theorem reads_assignmentWithin (hfit : Suffices 2 rounds depth s.rest.length)
    (h : ∀ d, d < depth → Suffices 1 rounds d s.rest.length →
      Reads must (assignment (grammarWithin rounds d) c) s Q) :
    Reads must ((grammarWithin rounds depth).assignment c) s Q := by
  cases depth with
  | zero => omega
  | succ d => exact h d (Nat.lt_succ_self d) (by omega)

/-- One level of the grammar reads a statement by the level below. -/
theorem reads_statementWithin (hfit : Suffices 3 rounds depth s.rest.length)
    (h : ∀ d, d < depth → Suffices 2 rounds d s.rest.length →
      Reads must (statement (grammarWithin rounds d) c) s Q) :
    Reads must ((grammarWithin rounds depth).statement c) s Q := by
  cases depth with
  | zero => omega
  | succ d => exact h d (Nat.lt_succ_self d) (by omega)

/-- One level of the grammar reads an element by the level below. -/
theorem reads_elementWithin (hfit : Suffices 1 rounds depth s.rest.length)
    (h : ∀ d, d < depth → Suffices 0 rounds d s.rest.length →
      Reads must (element (grammarWithin rounds d) c) s Q) :
    Reads must ((grammarWithin rounds depth).element c) s Q := by
  cases depth with
  | zero => omega
  | succ d => exact h d (Nat.lt_succ_self d) (by omega)

/-! ## Ends -/

namespace Source

/-- Whether no member and no call goes on with the expression in front. -/
def endsAccess (s : Source) : Bool :=
  s.rest.head?.all (fun c => !(text ".[(\x60").contains c) && s.mark != text "?."

/-- Whether the operand in front is complete. -/
def endsOperand (s : Source) : Bool := s.endsAccess && !stepMarks.contains s.mark

/-- Whether no operator goes on with the operand in front. -/
def endsOperation (s : Source) : Bool :=
  s.word != text "in" && s.word != text "instanceof" && (binaryOperators.lookup s.mark).isNone

/-- Whether no assignment and no arrow begins with the expression in front. -/
def endsAssignment (s : Source) : Bool :=
  s.mark != ['?'] && s.mark != text "=>" && s.mark != ['='] && !assigningMarks.contains s.mark

/-- Whether nothing goes on with the expression in front. -/
def endsExpression (s : Source) : Bool :=
  s.endsOperand && s.endsOperation && s.endsAssignment

/-- Words that make an expression more than a name. -/
def leadingWords : List Text :=
  [text "async", text "yield", text "new", text "delete", text "void", text "typeof", text "await",
    text "function", text "class", text "import", text "super"]

/-- Whether an expression begins with an operand that has no operator in front of it. -/
def beginsOperand (s : Source) : Bool :=
  !unaryMarks.contains s.mark && !stepMarks.contains s.mark && s.mark.head? != some '<' &&
    !leadingWords.contains s.word

theorem beginsOperand_of_rest {s : Source} {x : Text} (hs : s.rest = x)
    (h : beginsOperand ⟨x, false, []⟩ = true) : s.beginsOperand = true := by
  rw [← h, beginsOperand, beginsOperand, mark_of_rest hs rfl, word_of_rest hs rfl]

/-- An expression ends at a closing bracket, a comma, a colon, a semicolon or an opening brace. -/
theorem endsExpression_of_mem {d : Char} {x : Text} {hasBreak : Bool} {comments : List Comment}
    (hd : d ∈ text ")]\x7d,:;\x7b") : endsExpression ⟨d :: x, hasBreak, comments⟩ = true := by
  obtain rfl | rfl | rfl | rfl | rfl | rfl | rfl : d = ')' ∨ d = ']' ∨ d = '\x7d' ∨ d = ',' ∨ d = ':' ∨
      d = ';' ∨ d = '\x7b' := by
    simpa using (show d ∈ [')', ']', '\x7d', ',', ':', ';', '\x7b'] from hd)
  all_goals rfl

/-- An expression ends at a name that is no operator. -/
theorem endsExpression_of_isPlainName {s : Source} {w x : Text} (hs : s.rest = w ++ x)
    (hw : isPlainName w = true) (hx : endsName x = true) (hin : w ≠ text "in")
    (hinstanceof : w ≠ text "instanceof") : s.endsExpression = true := by
  have hmark := mark_of_isPlainName hs hw
  have hword := word_of_isPlainName hs hw hx
  have haccess : s.endsAccess = true := by
    cases w with
    | nil => simp [isPlainName] at hw
    | cons d w =>
        simp only [isPlainName, Bool.and_eq_true] at hw
        have hd : (text ".[(\x60").contains d = false := by
          rw [← Bool.not_eq_true]
          intro hmem
          have hmem : d ∈ ['.', '[', '(', '\x60'] := List.contains_iff_mem.1 hmem
          have hnone : ['.', '[', '(', '\x60'].all (fun d => !isNameStart d) = true := by decide
          simpa [hw.1] using List.all_eq_true.1 hnone d hmem
        simp only [endsAccess, hs, List.cons_append, List.head?_cons, Option.all_some, hd, hmark]
        decide
  have hin : (w != text "in") = true := bne_iff_ne.2 hin
  have hinstanceof : (w != text "instanceof") = true := bne_iff_ne.2 hinstanceof
  simp only [endsExpression, endsOperand, endsOperation, endsAssignment, haccess, hmark, hword, hin,
    hinstanceof]
  decide

/-- What begins an operand is no word that leads an expression. -/
theorem word_of_beginsOperand {s : Source} {word : Text} (h : s.beginsOperand = true)
    (hword : leadingWords.contains word = true) : s.word ≠ word := by
  simp only [beginsOperand, Bool.and_eq_true, Bool.not_eq_true'] at h
  rintro rfl
  exact absurd hword (by simp only [h.2, Bool.false_eq_true, not_false_eq_true])

end Source

/-! ## Descending -/

/-- An assignment with no comma behind it is an expression. -/
theorem reads_expression (hg : 0 < g.rounds)
    (h : Reads must (g.assignment c) s fun t u => u.mark ≠ [','] ∧ Q t u) :
    Reads must (g.expression c) s Q := by
  have hexpressions : Reads must (g.expressions c g.rounds) s fun ts u =>
      ∃ t, ts = [t] ∧ Q t u := by
    obtain ⟨n, hn⟩ : ∃ n, g.rounds = n + 1 := ⟨g.rounds - 1, by omega⟩
    rw [hn]
    simp only [Grammar.expressions, Reads.bind_iff, Reads.skipMark_iff, Reads.ite_iff,
      Reads.pure_iff]
    apply h.mono
    intro t u hu
    constructor
    · intro hmark
      exact absurd hmark hu.1
    · simp [hu.2]
  simp only [Grammar.expression, Reads.bind_iff]
  apply hexpressions.mono
  rintro ts u ⟨t, rfl, hQ⟩
  exact hQ

/-- A conditional with no arrow and no sign of assignment behind it is an assignment. -/
theorem reads_assignment (hasync : s.word ≠ text "async") (hyield : s.word ≠ text "yield")
    (h : Reads must (conditional g c) s fun t u => u.endsAssignment = true ∧ Q t u) :
    Reads must (assignment g c) s Q := by
  simp only [Source.endsAssignment, Bool.and_eq_true, bne_iff_ne, Bool.not_eq_true'] at h
  simp [assignment, atAsyncArrow, breaksAsync, hasync, hyield]
  apply h.mono
  intro t u hu
  simp_all

/-- Parameters in front of an arrow begin a function. -/
theorem reads_assignment_arrow (hbegins : s.beginsOperand = true)
    (h : Reads must (conditional g c) s fun t u => u.mark = text "=>" ∧ u.hasBreak = false ∧
      ∃ ps, t.toParams = some (false, ps) ∧ Reads must (arrowBehind g c false ps) u Q) :
    Reads must (assignment g c) s Q := by
  have hasync : s.word ≠ text "async" := Source.word_of_beginsOperand hbegins rfl
  have hyield : s.word ≠ text "yield" := Source.word_of_beginsOperand hbegins rfl
  simp [assignment, atAsyncArrow, breaksAsync, hasync, hyield]
  apply h.mono
  rintro t u ⟨hmark, hbreak, ps, hps, hbehind⟩
  simp [hmark, hbreak, hps, hbehind]

/-- A target in front of an equals sign is given the value behind it. -/
theorem reads_assignment_set {left target : Tree} (hpattern : left.toPattern false = some target)
    (hbegins : s.beginsOperand = true)
    (h : Reads must (conditional g c) s fun t u => t = left ∧ u.mark = ['='] ∧
      Reads must (mark ['=']) u fun _ v => Reads must (g.assignment c) v fun value w =>
        Q (.node .assignment ['='] [target, value]) w) :
    Reads must (assignment g c) s Q := by
  have hasync : s.word ≠ text "async" := Source.word_of_beginsOperand hbegins rfl
  have hyield : s.word ≠ text "yield" := Source.word_of_beginsOperand hbegins rfl
  have hne : ['='] ≠ text "=>" := by decide
  simp [assignment, atAsyncArrow, breaksAsync, hasync, hyield]
  apply h.mono
  rintro t u ⟨rfl, hmark, hset⟩
  simpa [hmark, hne, hpattern] using hset

/-- An operand with its operations is a conditional if no question mark follows. -/
theorem reads_conditional
    (h : Reads must (operand g c g.rounds) s fun t u =>
      Reads must (operations g c g.rounds 0 t) u fun t v => v.mark ≠ ['?'] ∧ Q t v) :
    Reads must (conditional g c) s Q := by
  simp only [conditional, Reads.bind_iff, Reads.skipMark_iff, Reads.ite_iff, Reads.pure_iff]
  apply h.mono
  intro t u hu
  apply hu.mono
  intro t v hv
  simp [hv]

/-- A test in front of a question mark chooses between the two values behind it. -/
theorem reads_conditional_choice
    (h : Reads must (operand g c g.rounds) s fun t u =>
      Reads must (operations g c g.rounds 0 t) u fun test v => v.mark = ['?'] ∧
        Reads must (mark ['?']) v fun _ v => Reads must (g.assignment c.allowIn) v fun yes v =>
          Reads must (mark [':']) v fun _ v => Reads must (g.assignment c) v fun no v =>
            Q (inner .conditional [test, yes, no]) v) :
    Reads must (conditional g c) s Q := by
  simp only [conditional, Reads.bind_iff, Reads.skipMark_iff, Reads.ite_iff, Reads.pure_iff]
  apply h.mono
  intro t u hu
  apply hu.mono
  rintro test v ⟨hmark, hchoice⟩
  simpa [hmark] using hchoice

/-- Operations are over where no operator follows. -/
theorem reads_operations_end {lowest : Nat} {t : Tree} (hn : 0 < n) (h : s.endsOperation = true)
    (hQ : Q t s) : Reads must (operations g c n lowest t) s Q := by
  obtain ⟨k, rfl⟩ := Nat.exists_eq_add_of_lt hn
  simp only [Source.endsOperation, Bool.and_eq_true, bne_iff_ne, Option.isNone_iff_eq_none] at h
  simp [operations, nextOperator, h, hQ]

/-- One operator, which joins any two operands if it is neither `??` nor `**` nor a logical one. -/
theorem reads_operations_one {operator : Text} {left : Tree} {level : Nat} (hn : 1 < n)
    (hword : s.word ≠ text "in" ∧ s.word ≠ text "instanceof")
    (hmark : s.mark = operator) (hlevel : binaryOperators.lookup operator = some level)
    (h : Reads must (mark operator) s fun _ u => Reads must (operand g c g.rounds) u fun right v =>
      v.endsOperation = true ∧
        operation operator left right = some (.node .binary operator [left, right]) ∧
          Q (.node .binary operator [left, right]) v) :
    Reads must (operations g c n 0 left) s Q := by
  have hin : operator ≠ text "in" := by
    rintro rfl
    exact absurd hlevel (by rw [show binaryOperators.lookup (text "in") = none by decide]; simp)
  have hinstanceof : operator ≠ text "instanceof" := by
    rintro rfl
    exact absurd hlevel
      (by rw [show binaryOperators.lookup (text "instanceof") = none by decide]; simp)
  obtain ⟨k, rfl⟩ : ∃ k, n = k + 1 := ⟨n - 1, by omega⟩
  simp [operations, nextOperator, hword, hmark, hlevel, hin, hinstanceof]
  apply h.mono
  intro _ u hu
  apply hu.mono
  rintro right v ⟨hends, hjoin, hQ⟩
  apply reads_operations_end (by omega) hends
  simp only [hjoin, Option.some.injEq, forall_eq', reduceCtorEq, false_implies, and_true]
  exact reads_operations_end (by omega) hends hQ

/-! ## Operands -/

/-- An access that begins like an operand and has nothing behind it is an operand. -/
theorem reads_operand (hn : 0 < n) (hbegins : s.beginsOperand = true)
    (h : Reads must (access g c) s fun t u => u.endsOperand = true ∧ Q t u) :
    Reads must (operand g c n) s Q := by
  have hwords (word : Text) (hword : Source.leadingWords.contains word = true) : s.word ≠ word :=
    Source.word_of_beginsOperand hbegins hword
  have hunary : s.word ∉ unaryWords := by
    simp [unaryWords, hwords (text "delete") rfl, hwords (text "void") rfl,
      hwords (text "typeof") rfl]
  simp only [Source.beginsOperand, Bool.and_eq_true, Bool.not_eq_true', bne_iff_ne,
    List.contains_eq_mem, decide_eq_false_iff_not] at hbegins
  obtain ⟨k, rfl⟩ : ∃ k, n = k + 1 := ⟨n - 1, by omega⟩
  simp [operand, stepped, hbegins, hunary, hwords (text "await") rfl]
  apply h.mono
  intro t u hu
  simp only [Source.endsOperand, Bool.and_eq_true, Bool.not_eq_true', List.contains_eq_mem,
    decide_eq_false_iff_not] at hu
  simp [hu]

/-- An element is an operand. -/
theorem reads_operand_element (hn : 0 < n) (hmark : s.mark = ['<'])
    (h : Reads must (g.element c) s fun t u => Skips must u.rest (Q t)) :
    Reads must (operand g c n) s Q := by
  have hunary : ['<'] ∉ unaryMarks := by decide
  have hstep : ['<'] ∉ stepMarks := by decide
  obtain ⟨k, rfl⟩ : ∃ k, n = k + 1 := ⟨n - 1, by omega⟩
  simpa [operand, hmark, hunary, hstep] using h

/-- A primary with its suffixes is an access. -/
theorem reads_access (hword : s.word ≠ text "new")
    (h : Reads must (primary g c) s fun t u =>
      Reads must (suffixes g c true false g.rounds t) u Q) :
    Reads must (access g c) s Q := by
  simpa [access, hword] using h

/-! ## Members, indexes and calls -/

/-- Suffixes are over where an access ends. -/
theorem reads_suffixes_end {calls inChain : Bool} {t : Tree} (hn : 0 < n)
    (h : s.endsAccess = true) (hQ : Q t s) :
    Reads must (suffixes g c calls inChain n t) s Q := by
  have hchar (d : Char) (hd : (text ".[(\x60").contains d = true) : s.rest.head? ≠ some d := by
    intro heq
    simp only [Source.endsAccess, heq, Option.all_some, hd] at h
    simp at h
  have hmark : s.mark ≠ text "?." := by
    simp only [Source.endsAccess, Bool.and_eq_true, bne_iff_ne] at h
    exact h.2
  obtain ⟨k, rfl⟩ : ∃ k, n = k + 1 := ⟨n - 1, by omega⟩
  simp only [suffixes, Reads.bind_iff, Reads.nextChar_iff]
  split
  · next heq => exact absurd heq (hchar '.' rfl)
  · next heq => exact absurd heq (hchar '[' rfl)
  · next heq => exact absurd heq (hchar '(' rfl)
  · simpa [hmark] using hQ
  · next heq => exact absurd heq (hchar '\x60' rfl)
  · exact hQ

/-- A plain name is read as the name of a member. -/
theorem reads_memberName {name x : Text} {Q : Text → Source → Prop} (hs : s.rest = name ++ x)
    (hname : isPlainName name = true) (hx : endsName x = true) (h : Skips must x (Q name)) :
    Reads must memberName s Q := by
  have hhead : s.rest.head? ≠ some '#' := by
    cases name with
    | nil => simp [isPlainName] at hname
    | cons c name =>
        simp only [isPlainName, Bool.and_eq_true] at hname
        intro heq
        simp only [hs, List.cons_append, List.head?_cons, Option.some.injEq] at heq
        subst heq
        exact absurd hname.1 (by decide)
  simp only [memberName, Reads.bind_iff, Reads.nextChar_iff, Reads.ite_iff, beq_iff_eq]
  constructor
  · intro heq
    exact absurd heq hhead
  · intro _
    exact reads_name hs hname hx h

theorem readPunctuator_period {c : Char} {x : Text} (hc : '.' ≠ c) :
    readPunctuator ('.' :: c :: x) = some (['.'], c :: x) := by
  have hread : readPunctuator ('.' :: c :: x) = longest [text "...", ['.']] ('.' :: c :: x) := rfl
  rw [hread]
  have hdots : text "..." = ['.', '.', '.'] := rfl
  simp [longest, Text.stripStart, hdots, hc]

/-- A point in front of a name is read on its own. -/
theorem readPunctuator_point {name x : Text} (hname : isPlainName name = true) :
    readPunctuator ('.' :: (name ++ x)) = some (['.'], name ++ x) := by
  cases name with
  | nil => simp [isPlainName] at hname
  | cons c name =>
      simp only [isPlainName, Bool.and_eq_true] at hname
      refine readPunctuator_period ?_
      rintro rfl
      exact absurd hname.1 (by decide)

/-! ## Names with members and indexes -/

/-- What stands behind a name: a member, or an index that is a string. -/
inductive Link where
  | member (name : Text)
  | index (key : Text)

namespace Link

def print : Link → Text
  | member name => '.' :: name
  | index key => '[' :: quoted key ++ [']']

def isSound : Link → Bool
  | member name => isPlainName name
  | index _ => true

/-- The tree of an expression with a link behind it. -/
def tree (t : Tree) : Link → Tree
  | member name => .node (.member false) name [t]
  | index key => inner (.index false) [t, leaf .string key]

/-- A link needs nothing beyond what it is put behind. -/
theorem needs_tree {t : Tree} (h : t.Needs []) (link : Link) : (link.tree t).Needs [] := by
  cases link with
  | member name => exact needs_node rfl (allNeed_one h)
  | index key => exact needs_node rfl (allNeed_cons h (allNeed_one (needs_leaf rfl)))

end Link

/-- Whether a word can begin an expression as a name or a constant. -/
def isHead (word : Text) : Bool :=
  isPlainName word && !Source.leadingWords.contains word &&
    (constants.contains word || !reservedWords.contains word)

/-- A name with members and indexes. -/
def chain (head : Text) (links : List Link) : Text := head ++ links.flatMap Link.print

/-- The kind of the expression that a word is. -/
def wordKind (word : Text) : Kind := if constants.contains word then .keyword else .identifier

/-- The tree of a name and the members that are taken of it, one of another. -/
def chainTree (head : Text) (links : List Link) : Tree :=
  links.foldl Link.tree (leaf (wordKind head) head)

theorem needs_foldl_tree {t : Tree} (h : t.Needs []) (links : List Link) :
    (links.foldl Link.tree t).Needs [] := by
  induction links generalizing t with
  | nil => exact h
  | cons link links ih => exact ih (link.needs_tree h)

/-- A chain of members and indices has no items. -/
theorem needs_chainTree (head : Text) (links : List Link) : (chainTree head links).Needs [] := by
  refine needs_foldl_tree (needs_leaf ?_) links
  unfold wordKind
  split <;> rfl

theorem isPlainName_of_isHead {w : Text} (hw : isHead w = true) : isPlainName w = true := by
  simp only [isHead, Bool.and_eq_true] at hw
  exact hw.1.1

theorem ne_of_isHead {w word : Text} (hw : isHead w = true)
    (hword : Source.leadingWords.contains word = true) : w ≠ word := by
  rintro rfl
  simp only [isHead, hword, Bool.not_true, Bool.and_false, Bool.false_and, Bool.false_eq_true] at hw

/-- A head that is no constant is the name of a variable. -/
theorem isVariableName_of_isHead {w : Text} (hw : isHead w = true)
    (hconstant : constants.contains w = false) (c : Context) : isVariableName c w = true := by
  have hyield : (w == text "yield") = false := beq_eq_false_iff_ne.2 (ne_of_isHead hw rfl)
  simp only [isHead, hconstant, Bool.false_or, Bool.and_eq_true] at hw
  rw [isVariableName, hw.2, hyield, Bool.and_false]
  rfl

/-- A head begins an operand. -/
theorem beginsOperand_of_isHead {w x : Text} (hs : s.rest = w ++ x) (hw : isHead w = true)
    (hx : endsName x = true) : s.beginsOperand = true := by
  have hname := isPlainName_of_isHead hw
  simp only [isHead, Bool.and_eq_true] at hw
  rw [Source.beginsOperand, Source.mark_of_isPlainName hs hname,
    Source.word_of_isPlainName hs hname hx, hw.1.2]
  decide

/-- A head is read as a leaf of its kind. -/
theorem reads_wordTree {w x : Text} (hs : s.rest = w ++ x) (hw : isHead w = true)
    (hx : endsName x = true) (h : Skips must x (Q (leaf (wordKind w) w))) :
    Reads must (wordTree g c) s Q := by
  have hname := isPlainName_of_isHead hw
  have hfunction : w ≠ text "function" := ne_of_isHead hw rfl
  have hclass : w ≠ text "class" := ne_of_isHead hw rfl
  have himport : w ≠ text "import" := ne_of_isHead hw rfl
  have hsuper : w ≠ text "super" := ne_of_isHead hw rfl
  have hasync : w ≠ text "async" := ne_of_isHead hw rfl
  simp only [wordTree, atAsyncFunction, variableName, Reads.bind_iff, Reads.nextWord_iff,
    Reads.atWord_iff, Reads.ite_iff, Source.word_of_isPlainName hs hname hx, beq_iff_eq, hfunction,
    hclass, himport, hsuper, hasync, Reads.pure_iff]
  constructor
  · intro hconstant
    simp only [wordKind, hconstant, if_true] at h
    exact reads_word hs hname hx h
  · intro hconstant
    have hconstant : constants.contains w = false := by simpa using hconstant
    simp only [wordKind, hconstant, Bool.false_eq_true, if_false] at h
    simp only [false_implies, not_false_eq_true, true_implies, true_and, Bool.false_eq_true]
    apply reads_name hs hname hx
    apply h.mono
    intro u _ hu
    exact Reads.require (isVariableName_of_isHead hw hconstant c) hu

/-- What the operands begin with that are neither numbers nor words. -/
def operandSigns : Text := ['"', '\'', '\x60', '(', '[', '\x7b', '/', '#']

/-- A primary that begins with no sign is a number or a word. -/
theorem reads_primary_of_head {d : Char} (hhead : s.rest.head? = some d) (hd : d ∉ operandSigns)
    (h : Reads must (if d.isDigit || d == '.' then do
        let spelling ← token readNumber
        pure (leaf .number spelling)
      else wordTree g c) s Q) :
    Reads must (primary g c) s Q := by
  have hne {e : Char} (he : e ∈ operandSigns) : some d ≠ some e := by
    rintro ⟨⟩
    exact hd he
  simp only [primary, Reads.bind_iff, Reads.nextChar_iff, hhead]
  split
  · next heq => cases heq
  iterate 8
    · next heq => exact absurd heq (hne (by decide))
  · next heq =>
      cases heq
      exact h

/-- A head is read as a primary. -/
theorem reads_primary_word {w x : Text} (hs : s.rest = w ++ x) (hw : isHead w = true)
    (hx : endsName x = true) (h : Skips must x (Q (leaf (wordKind w) w))) :
    Reads must (primary g c) s Q := by
  have htree := reads_wordTree (g := g) (c := c) hs hw hx h
  have hname := isPlainName_of_isHead hw
  cases w with
  | nil => exact absurd hw (by decide)
  | cons first w =>
      simp only [isPlainName, Bool.and_eq_true] at hname
      have hstart := hname.1
      have hsigns : operandSigns.all (fun d => !isNameStart d) = true := by decide
      have hpoint : first ≠ '.' := ne_of_isNameStart hstart (by decide)
      refine reads_primary_of_head (d := first) (by rw [hs]; rfl) ?_ ?_
      · intro hmem
        have hsign := List.all_eq_true.1 hsigns first hmem
        rw [hstart] at hsign
        cases hsign
      · simpa [isDigit_of_isNameStart hstart, hpoint] using htree

/-- A quoted text is read as a string. -/
theorem reads_primary_string {v x : Text} (hs : s.rest = quoted v ++ x)
    (h : Skips must x (Q (leaf .string v))) : Reads must (primary g c) s Q := by
  have hhead : s.rest.head? = some '\'' := by
    rw [hs]
    rfl
  have hread : readString s.rest = some (v, x) := by
    rw [hs]
    exact readString_quoted v x
  simp only [primary, Reads.bind_iff, Reads.nextChar_iff, hhead]
  exact Reads.token hread h

/-- An operand with the end of an expression behind it is an assignment. -/
theorem reads_assignment_operand (hg : 0 < g.rounds) (hbegins : s.beginsOperand = true)
    (h : Reads must (operand g c g.rounds) s fun t u => u.endsExpression = true ∧ Q t u) :
    Reads must (assignment g c) s Q := by
  apply reads_assignment (Source.word_of_beginsOperand hbegins rfl)
    (Source.word_of_beginsOperand hbegins rfl)
  apply reads_conditional
  apply h.mono
  rintro t u ⟨hends, hQ⟩
  simp only [Source.endsExpression, Bool.and_eq_true] at hends
  have hmark := hends.2
  simp only [Source.endsAssignment, Bool.and_eq_true, bne_iff_ne] at hmark
  exact reads_operations_end hg hends.1.2 ⟨hmark.1.1.1, hends.2, hQ⟩

/-- Where an expression ends, its last operand does. -/
theorem endsOperand_of_endsExpression (h : s.endsExpression = true) : s.endsOperand = true := by
  simp only [Source.endsExpression, Bool.and_eq_true] at h
  exact h.1.1

/-- Where an operand ends, its last access does. -/
theorem endsAccess_of_endsOperand (h : s.endsOperand = true) : s.endsAccess = true := by
  simp only [Source.endsOperand, Bool.and_eq_true] at h
  exact h.1

/-- A primary with its suffixes and nothing behind them is an operand. -/
theorem reads_operand_primary (hn : 0 < n) (hbegins : s.beginsOperand = true)
    (h : Reads must (primary g c) s fun t u =>
      Reads must (suffixes g c true false g.rounds t) u fun t u => u.endsOperand = true ∧ Q t u) :
    Reads must (operand g c n) s Q := by
  apply reads_operand hn hbegins
  exact reads_access (Source.word_of_beginsOperand hbegins rfl) h

theorem beginsOperand_quoted {v x : Text} (hs : s.rest = quoted v ++ x) :
    s.beginsOperand = true := by
  exact Source.beginsOperand_of_rest hs rfl

/-- A quoted text is an operand. -/
theorem reads_operand_string {v x : Text} (hn : 0 < n) (hg : 0 < g.rounds)
    (hs : s.rest = quoted v ++ x)
    (h : Skips must x fun u => u.endsOperand = true ∧ Q (leaf .string v) u) :
    Reads must (operand g c n) s Q := by
  apply reads_operand_primary hn (beginsOperand_quoted hs)
  apply reads_primary_string hs
  apply h.mono
  intro u _ hu
  exact reads_suffixes_end hg (endsAccess_of_endsOperand hu.1) hu

/-- A quoted text is an assignment. -/
theorem reads_assignment_string {v x : Text} (hg : 0 < g.rounds) (hs : s.rest = quoted v ++ x)
    (h : Skips must x fun u => u.endsExpression = true ∧ Q (leaf .string v) u) :
    Reads must (assignment g c) s Q := by
  apply reads_assignment_operand hg (beginsOperand_quoted hs)
  apply reads_operand_string hg hg hs
  apply h.mono
  intro u _ hu
  exact ⟨endsOperand_of_endsExpression hu.1, hu⟩

theorem endsName_links {links : List Link} {x : Text} (hx : endsName x = true) :
    endsName (links.flatMap Link.print ++ x) = true := by
  cases links with
  | nil => exact hx
  | cons link links => cases link <;> rfl

theorem isSolid_link (link : Link) (x : Text) : isSolid (link.print ++ x) = true := by
  cases link <;> rfl

/-- One link behind an expression. -/
theorem reads_suffixes_link {link : Link} {t : Tree} {x : Text} {calls inChain : Bool}
    (hlink : link.isSound = true) (hx : endsName x = true) (hs : s.rest = link.print ++ x)
    (hn : s.rest.length < n) (hfit : Suffices 1 rounds depth s.rest.length)
    (h : ∀ k, x.length < k → Skips must x fun u =>
      Reads must (suffixes (grammarWithin rounds depth) c calls inChain k (link.tree t)) u Q) :
    Reads must (suffixes (grammarWithin rounds depth) c calls inChain n t) s Q := by
  obtain ⟨k, rfl⟩ : ∃ k, n = k + 1 := ⟨n - 1, by omega⟩
  cases link with
  | member name =>
      have hs : s.rest = '.' :: (name ++ x) := hs
      simp only [suffixes, Reads.bind_iff, Reads.nextChar_iff, hs, List.head?_cons]
      have hread : readPunctuator s.rest = some (['.'], name ++ x) := by
        rw [hs]
        exact readPunctuator_point hlink
      apply Reads.mark hread
      apply skips_of_isSolid (isSolid_of_isPlainName hlink)
      apply reads_memberName rfl hlink hx
      apply h
      rw [hs, List.length_cons, List.length_append] at hn
      omega
  | index key =>
      have hs : s.rest = '[' :: (quoted key ++ ']' :: x) := by
        rw [hs]
        simp [Link.print]
      have hlength : s.rest.length = (quoted key ++ ']' :: x).length + 1 := by
        rw [hs, List.length_cons]
      have hrounds : 0 < (grammarWithin rounds depth).rounds := hfit.rounds_pos
      simp only [suffixes, Reads.bind_iff, Reads.nextChar_iff, hs, List.head?_cons]
      have hread : readPunctuator s.rest = some (['['], quoted key ++ ']' :: x) := by
        rw [hs]
        rfl
      apply Reads.mark hread
      apply skips_of_isSolid (x := quoted key ++ ']' :: x) rfl
      apply reads_expression hrounds
      apply reads_assignmentWithin
      · dsimp only
        omega
      intro d hd hfit
      apply reads_assignment_string
      · exact hfit.rounds_pos
      · rfl
      apply skips_of_isSolid (x := ']' :: x) rfl
      refine ⟨Source.endsExpression_of_mem (by decide), ?_, ?_⟩
      · intro hmark
        exact absurd (show [']'] = [','] from hmark) (by decide)
      apply Reads.mark (x := x) rfl
      apply h
      rw [hs, List.length_cons, List.length_append, List.length_cons] at hn
      omega

/-- The links of a chain are read as suffixes, one by one. -/
theorem reads_suffixes_links {links : List Link} {x : Text} {t : Tree}
    (hlinks : links.all Link.isSound = true) (hx : endsName x = true)
    (hn : (links.flatMap Link.print ++ x).length < n)
    (hfit : Suffices 1 rounds depth (links.flatMap Link.print ++ x).length)
    (h : Skips must x fun u => u.endsAccess = true ∧ Q (links.foldl Link.tree t) u) :
    Skips must (links.flatMap Link.print ++ x) fun s =>
      Reads must (suffixes (grammarWithin rounds depth) c true false n t) s Q := by
  induction links generalizing t n with
  | nil =>
      apply h.mono
      rintro u _ ⟨hends, hQ⟩
      exact reads_suffixes_end (by omega) hends hQ
  | cons link links ih =>
      simp only [List.all_cons, Bool.and_eq_true] at hlinks
      rw [List.flatMap_cons, List.append_assoc] at hn hfit ⊢
      apply skips_of_isSolid (isSolid_link link _)
      apply reads_suffixes_link hlinks.1 (endsName_links hx) rfl hn hfit
      intro k hk
      apply ih hlinks.2 hk _ h
      rw [List.length_append] at hfit
      omega

/-- A name with members and indexes is an operand. -/
theorem reads_operand_chain {head x : Text} {links : List Link} (hn : 0 < n)
    (hfit : Suffices 1 rounds depth s.rest.length) (hs : s.rest = chain head links ++ x)
    (hhead : isHead head = true) (hlinks : links.all Link.isSound = true) (hx : endsName x = true)
    (h : Skips must x fun u => u.endsOperand = true ∧ Q (chainTree head links) u) :
    Reads must (operand (grammarWithin rounds depth) c n) s Q := by
  have hs : s.rest = head ++ (links.flatMap Link.print ++ x) := by
    rw [hs, chain, List.append_assoc]
  have hlinksEnd : endsName (links.flatMap Link.print ++ x) = true := endsName_links hx
  rw [hs, List.length_append] at hfit
  apply reads_operand_primary hn (beginsOperand_of_isHead hs hhead hlinksEnd)
  apply reads_primary_word hs hhead hlinksEnd
  apply reads_suffixes_links hlinks hx
  · change _ < rounds
    omega
  · omega
  apply h.mono
  intro u _ hu
  exact ⟨endsAccess_of_endsOperand hu.1, hu⟩

/-- A chain begins an operand. -/
theorem beginsOperand_chain {head x : Text} {links : List Link}
    (hs : s.rest = chain head links ++ x) (hhead : isHead head = true) (hx : endsName x = true) :
    s.beginsOperand = true := by
  rw [chain, List.append_assoc] at hs
  exact beginsOperand_of_isHead hs hhead (endsName_links hx)

/-- A chain is an assignment. -/
theorem reads_assignment_chain {head x : Text} {links : List Link}
    (hfit : Suffices 1 rounds depth s.rest.length) (hs : s.rest = chain head links ++ x)
    (hhead : isHead head = true) (hlinks : links.all Link.isSound = true) (hx : endsName x = true)
    (h : Skips must x fun u => u.endsExpression = true ∧ Q (chainTree head links) u) :
    Reads must (assignment (grammarWithin rounds depth) c) s Q := by
  have hrounds : 0 < (grammarWithin rounds depth).rounds := hfit.rounds_pos
  apply reads_assignment_operand hrounds (beginsOperand_chain hs hhead hx)
  apply reads_operand_chain hrounds hfit hs hhead hlinks hx
  apply h.mono
  intro u _ hu
  exact ⟨endsOperand_of_endsExpression hu.1, hu⟩

/-! ## Lists -/

section Lists

variable {α : Type} {close : Text} {item : Parser α} {Q : List α × Bool → Source → Prop}

/-- A list is over at its closing sign. -/
theorem reads_commaList_close (hn : 0 < n) (hmark : s.mark = close)
    (h : Reads must (mark close) s fun _ u => Q ([], true) u) :
    Reads must (commaList close item n) s Q := by
  obtain ⟨k, rfl⟩ : ∃ k, n = k + 1 := ⟨n - 1, by omega⟩
  simp only [commaList, Reads.bind_iff, Reads.skipMark_iff, hmark]
  simpa using h

/-- An item stands in front of the closing mark, or of a comma and more items. -/
theorem reads_commaList_item (hn : 0 < n) (hmark : s.mark ≠ close)
    (h : Reads must item s fun a u =>
      (u.mark = close → Reads must (mark close) u fun _ v => Q ([a], false) v) ∧
      (u.mark ≠ close → Reads must (mark [',']) u fun _ v =>
        Reads must (commaList close item (n - 1)) v fun found w => Q (a :: found.1, found.2) w)) :
    Reads must (commaList close item n) s Q := by
  obtain ⟨k, rfl⟩ : ∃ k, n = k + 1 := ⟨n - 1, by omega⟩
  simp only [commaList, Reads.bind_iff, Reads.skipMark_iff, hmark]
  simp only [false_implies, true_and, ne_eq, not_false_eq_true, true_implies, Reads.ite_iff,
    Reads.bind_iff, Bool.false_eq_true]
  intro _
  apply h.mono
  rintro a u ⟨hlast, hmore⟩
  simpa using ⟨hlast, hmore⟩

/-- The last item of a list stands in front of its closing sign. -/
theorem reads_commaList_last (hn : 0 < n) (hmark : s.mark ≠ close)
    (h : Reads must item s fun a u =>
      u.mark = close ∧ Reads must (mark close) u fun _ v => Q ([a], false) v) :
    Reads must (commaList close item n) s Q := by
  apply reads_commaList_item hn hmark
  apply h.mono
  rintro a u ⟨hclose, hread⟩
  exact ⟨fun _ => hread, fun hne => absurd hclose hne⟩

/-- An item of a list stands in front of a comma and the rest of the list. -/
theorem reads_commaList_cons (hn : 0 < n) (hmark : s.mark ≠ close)
    (h : Reads must item s fun a u => u.mark ≠ close ∧ Reads must (mark [',']) u fun _ v =>
      Reads must (commaList close item (n - 1)) v fun found w => Q (a :: found.1, found.2) w) :
    Reads must (commaList close item n) s Q := by
  apply reads_commaList_item hn hmark
  apply h.mono
  rintro a u ⟨hclose, hread⟩
  exact ⟨fun heq => absurd heq hclose, fun _ => hread⟩

end Lists

/-! ## Calls -/

theorem reads_spreadOr (hmark : s.mark ≠ text "...")
    (h : Reads must (g.assignment c.allowIn) s Q) : Reads must (spreadOr g c) s Q := by
  simpa [spreadOr, hmark] using h

/-- Arguments behind a call are read, and the suffixes behind them. -/
theorem reads_suffixes_call {inChain : Bool} {t : Tree} {x : Text} (hn : 1 < n)
    (hs : s.rest = '(' :: x)
    (h : Reads must (arguments g c) s fun items u => ∀ k, 0 < k →
      Reads must (suffixes g c true inChain k (inner (.call false) (t :: items))) u Q) :
    Reads must (suffixes g c true inChain n t) s Q := by
  obtain ⟨k, rfl⟩ : ∃ k, n = k + 1 := ⟨n - 1, by omega⟩
  simp only [suffixes, Reads.bind_iff, Reads.nextChar_iff, hs, List.head?_cons, if_true]
  apply h.mono
  intro items u hu
  exact hu k (by omega)

/-- A call of a name. -/
theorem reads_assignment_call {callee x : Text} (hg : 1 < g.rounds)
    (hs : s.rest = callee ++ '(' :: x) (hcallee : isHead callee = true)
    (h : Reads must (arguments g c) ⟨'(' :: x, false, []⟩ fun items u =>
      u.endsExpression = true ∧
        Q (inner (.call false) (leaf (wordKind callee) callee :: items)) u) :
    Reads must (assignment g c) s Q := by
  have hbegins : s.beginsOperand = true := beginsOperand_of_isHead hs hcallee rfl
  apply reads_assignment_operand (by omega) hbegins
  apply reads_operand_primary (by omega) hbegins
  apply reads_primary_word hs hcallee rfl
  apply skips_of_isSolid (x := '(' :: x) rfl
  apply reads_suffixes_call hg rfl
  apply h.mono
  intro items u hu k hk
  have hoperand := endsOperand_of_endsExpression hu.1
  exact reads_suffixes_end hk (endsAccess_of_endsOperand hoperand) ⟨hoperand, hu⟩

/-- One argument in brackets is read. -/
theorem reads_arguments_one {x : Text} {Q : List Tree → Source → Prop} (hg : 0 < g.rounds)
    (hs : s.rest = '(' :: x) (hx : isSolid x = true)
    (hmark : Source.mark ⟨x, false, []⟩ ≠ [')'] ∧ Source.mark ⟨x, false, []⟩ ≠ text "...")
    (h : Reads must (g.assignment c.allowIn) ⟨x, false, []⟩ fun t u =>
      u.mark = [')'] ∧ Reads must (mark [')']) u fun _ v => Q [t] v) :
    Reads must (arguments g c) s Q := by
  simp only [arguments, Reads.bind_iff]
  have hread : readPunctuator s.rest = some (['('], [] ++ x) := by
    rw [hs]
    rfl
  apply reads_mark_gap hread rfl hx
  apply reads_commaList_last hg hmark.1
  exact reads_spreadOr hmark.2 h

/-- Two arguments in brackets are read. -/
theorem reads_arguments_two {x : Text} {Q : List Tree → Source → Prop} (hg : 1 < g.rounds)
    (hs : s.rest = '(' :: x) (hx : isSolid x = true)
    (hmark : Source.mark ⟨x, false, []⟩ ≠ [')'] ∧ Source.mark ⟨x, false, []⟩ ≠ text "...")
    (h : Reads must (g.assignment c.allowIn) ⟨x, false, []⟩ fun t u =>
      u.mark ≠ [')'] ∧ Reads must (mark [',']) u fun _ u => u.mark ≠ [')'] ∧ u.mark ≠ text "..." ∧
        Reads must (g.assignment c.allowIn) u fun t' u =>
          u.mark = [')'] ∧ Reads must (mark [')']) u fun _ v => Q [t, t'] v) :
    Reads must (arguments g c) s Q := by
  simp only [arguments, Reads.bind_iff]
  have hread : readPunctuator s.rest = some (['('], [] ++ x) := by
    rw [hs]
    rfl
  apply reads_mark_gap hread rfl hx
  apply reads_commaList_cons (by omega) hmark.1
  apply reads_spreadOr hmark.2
  apply h.mono
  rintro t u ⟨hclose, hcomma⟩
  refine ⟨hclose, hcomma.mono ?_⟩
  rintro _ v ⟨hclose, hspread, hlast⟩
  apply reads_commaList_last (by omega) hclose
  exact reads_spreadOr hspread hlast

/-- A call that requires a module by its name. -/
def requireCall (path : Text) : Text := text "require" ++ '(' :: (quoted path ++ [')'])

/-- The tree of a required module. -/
def requireTree (path : Text) : Tree :=
  inner (.call false) [leaf .identifier (text "require"), leaf .string path]

/-- The call that requires a path has that requirement for its item. -/
theorem needs_requireTree (path : Text) : (requireTree path).Needs [.required path] := by
  have hcallee : (leaf .identifier (text "require")).Needs [] := needs_leaf rfl
  have hpath : (leaf .string path).Needs [] := needs_leaf rfl
  exact needs_call rfl (allNeed_cons hcallee (allNeed_one hpath))

/-- The call that requires a path is an assignment. -/
theorem reads_assignment_require {path x : Text} (hfit : Suffices 1 rounds depth s.rest.length)
    (hs : s.rest = requireCall path ++ x)
    (h : Skips must x fun u => u.endsExpression = true ∧ Q (requireTree path) u) :
    Reads must (assignment (grammarWithin rounds depth) c) s Q := by
  have hs : s.rest = text "require" ++ '(' :: (quoted path ++ ')' :: x) := by
    rw [hs]
    simp [requireCall]
  rw [hs, List.length_append, List.length_cons] at hfit
  have hrounds : 1 < (grammarWithin rounds depth).rounds := by
    change 1 < rounds
    omega
  apply reads_assignment_call hrounds hs rfl
  apply reads_arguments_one (by omega) rfl rfl
  · constructor
    · intro hmark
      exact absurd (show [] = [')'] from hmark) (by decide)
    · intro hmark
      exact absurd (show [] = text "..." from hmark) (by decide)
  apply reads_assignmentWithin
  · dsimp only
    omega
  intro d hd hfit
  apply reads_assignment_string (x := ')' :: x)
  · exact hfit.rounds_pos
  · rfl
  apply skips_of_isSolid (x := ')' :: x) rfl
  refine ⟨Source.endsExpression_of_mem (by decide), rfl, ?_⟩
  exact Reads.mark (x := x) rfl h

end Viewloom.Script
