import Viewloom.Proofs.Script.Children
import Viewloom.Proofs.Script.Objects

/-!
# Expressions in braces

What a template writes in braces: names with members, strings and objects, and the three expressions
that an element stands in.
-/

namespace Viewloom.Script

open Viewloom.Script.Parser Viewloom.Script.Tree Template

variable {must : Bool} {g : Grammar} {c : Context} {rounds depth n : Nat} {u : Source}
  {o x : Text} {items : List Item} {Q : Tree → Source → Prop}

/-! ## Elements as expressions -/

theorem mark_of_element (ho : startsName o = true) (hu : u.rest = '<' :: o) : u.mark = ['<'] := by
  obtain ⟨d, t, rfl, hd⟩ := eq_cons_of_startsName ho
  have hshift : '<' ≠ d := (ne_of_isNameStart hd (by decide)).symm
  have hequals : '=' ≠ d := (ne_of_isNameStart hd (by decide)).symm
  have hread : readPunctuator ('<' :: d :: t) =
      longest [['<', '<', '='], ['<', '<'], ['<', '='], ['<']] ('<' :: d :: t) := rfl
  simp [Source.mark, hu, hread, longest, Text.stripStart, hshift, hequals]

/-- An expression that is an element. -/
theorem reads_assignment_element (hg : 0 < g.rounds) (ho : startsName o = true)
    (hu : u.rest = '<' :: o)
    (h : Reads must (g.element c) u fun t v => Skips must v.rest fun w =>
      w.endsOperation = true ∧ w.endsAssignment = true ∧ Q t w) :
    Reads must (assignment g c) u Q := by
  have hmark := mark_of_element ho hu
  have hword : u.word = [] := Source.word_of_rest hu rfl
  apply reads_assignment (by rw [hword]; decide) (by rw [hword]; decide)
  apply reads_conditional
  apply reads_operand_element hg hmark
  apply h.mono
  intro t v hv
  apply hv.mono
  rintro w - ⟨hoperation, hassignment, hQ⟩
  apply reads_operations_end hg hoperation
  refine ⟨?_, hassignment, hQ⟩
  simp only [Source.endsAssignment, Bool.and_eq_true, bne_iff_ne] at hassignment
  exact hassignment.1.1.1

/-! ## Parentheses -/

/-- An expression in parentheses, or the parameter of an arrow. -/
theorem reads_group {b y : Text} (hg : 0 < g.rounds) (hu : u.rest = '(' :: (b ++ y))
    (hb : b.all isBlank = true) (hy : isSolid y = true)
    (hmark : Source.mark ⟨y, b.any isLineEnd, []⟩ ≠ [')'] ∧
      Source.mark ⟨y, b.any isLineEnd, []⟩ ≠ text "...")
    (h : Reads must (g.assignment c.allowIn) ⟨y, b.any isLineEnd, []⟩ fun t v =>
      t.kind ≠ .rest ∧ v.mark = [')'] ∧
        Reads must (mark [')']) v fun _ w => Q (inner .group [t]) w) :
    Reads must (primary g c) u Q := by
  have hhead : u.rest.head? = some '(' := by
    rw [hu]
    rfl
  have hread : readPunctuator u.rest = some (['('], b ++ y) := by
    rw [hu]
    rfl
  have hdots : (Source.mark ⟨y, b.any isLineEnd, []⟩ == text "...") = false :=
    beq_eq_false_iff_ne.2 hmark.2
  simp only [primary, group, Reads.bind_iff, Reads.nextChar_iff, hhead]
  apply reads_mark_gap hread hb hy
  apply reads_commaList_last hg hmark.1
  simp only [Reads.bind_iff, Reads.atMark_iff, hdots, Bool.false_eq_true, if_false]
  apply h.mono
  rintro t v ⟨hkind, hclose, hv⟩
  refine ⟨hclose, ?_⟩
  apply hv.mono
  intro _ w hQ
  have hrest : (t.kind == .rest) = false := beq_eq_false_iff_ne.2 hkind
  simpa [hrest] using hQ

/-! ## Expressions on one line -/

theorem isInline_of_isNamePart {d : Char} (hd : isNamePart d = true) : isInline d = true := by
  rw [isInline, Bool.and_eq_true, bne_iff_ne, bne_iff_ne]
  constructor <;>
    · rintro rfl
      exact absurd hd (by decide)

theorem isInline_quotedChar (d : Char) : (quotedChar d).all isInline = true := by
  unfold quotedChar
  split
  · rfl
  split
  · rfl
  split
  · rfl
  split
  · rfl
  split
  · rfl
  split
  · rfl
  · next hline hreturn _ _ => simp [isInline, hline, hreturn]

/-- A quoted text stands on one line. -/
theorem isInline_quoted (v : Text) : (quoted v).all isInline = true := by
  have hall : (v.flatMap quotedChar).all isInline = true := by
    simp only [List.all_flatMap, isInline_quotedChar, List.all_eq_true, implies_true]
  rw [quoted, List.cons_append, List.all_cons, List.all_append, hall]
  rfl

theorem isInline_of_isPlainName {w : Text} (hw : isPlainName w = true) : w.all isInline = true := by
  cases w with
  | nil => rfl
  | cons d w =>
      simp only [isPlainName, Bool.and_eq_true] at hw
      have hd : isInline d = true := by
        rw [isInline, Bool.and_eq_true, bne_iff_ne, bne_iff_ne]
        exact ⟨ne_of_isNameStart hw.1 (by decide), ne_of_isNameStart hw.1 (by decide)⟩
      rw [List.all_cons, hd, Bool.true_and, List.all_eq_true]
      intro e he
      exact isInline_of_isNamePart (List.all_eq_true.1 hw.2 e he)

/-- A chain stands on one line. -/
theorem isInline_chain {head : Text} {links : List Link} (hhead : isHead head = true)
    (hlinks : links.all Link.isSound = true) : (chain head links).all isInline = true := by
  rw [chain, List.all_append, isInline_of_isPlainName (isPlainName_of_isHead hhead), Bool.true_and,
    List.all_flatMap, List.all_eq_true]
  intro link hlink
  have hsound := List.all_eq_true.1 hlinks link hlink
  cases link with
  | member name => exact isInline_of_isPlainName (w := name) hsound
  | index key =>
      rw [Link.print, List.cons_append, List.all_cons, List.all_append, isInline_quoted]
      rfl

theorem isSolid_chain {head : Text} {links : List Link} (hhead : isHead head = true) :
    isSolid (chain head links ++ x) = true := by
  rw [chain, List.append_assoc]
  exact isSolid_of_isPlainName (isPlainName_of_isHead hhead)

/-- An expression ends in front of a closing brace. -/
theorem skips_brace {P : Source → Prop}
    (h : P ⟨'\x7d' :: x, false, []⟩) :
    Skips must ('\x7d' :: x) fun w => w.endsExpression = true ∧ P w :=
  skips_of_isSolid rfl ⟨Source.endsExpression_of_mem (by decide), h⟩

/-- A chain can be put between braces. -/
theorem enclosed_chain {head : Text} {links : List Link} (hhead : isHead head = true)
    (hlinks : links.all Link.isSound = true) : Enclosed must (chain head links) where
  inline := isInline_chain hhead hlinks
  solid _ := isSolid_chain hhead
  reads rounds depth c x u hu hfit := by
    apply reads_assignment_chain hfit hu hhead hlinks rfl
    apply skips_brace
    exact ⟨needs_chainTree head links, rfl⟩

/-- The empty object can be put between braces. -/
theorem enclosed_emptyObject : Enclosed must (text "\x7b\x7d") where
  inline := rfl
  solid _ := rfl
  reads rounds depth c x u hu hfit := by
    refine reads_assignment_emptyObject (fun t ht _ => skips_brace ⟨ht, rfl⟩) ?_ hu
    change 0 < rounds
    omega

theorem all_intercalate {p : Char → Bool} {separator : Text} {pieces : List Text}
    (hseparator : separator.all p = true) (hpieces : ∀ piece ∈ pieces, piece.all p = true) :
    (List.intercalate separator pieces).all p = true := by
  match pieces with
  | [] => rfl
  | [piece] =>
      rw [List.intercalate_singleton]
      exact hpieces piece (by simp)
  | piece :: next :: pieces =>
      have hrest : (List.intercalate separator (next :: pieces)).all p = true :=
        all_intercalate hseparator fun piece h => hpieces piece (by simp [h])
      rw [List.intercalate_cons_cons, List.all_append, List.all_append, hpieces piece (by simp),
        hseparator, hrest]
      rfl

/-- An object with members. -/
def objectOf (entries : List (Text × Text)) : Text :=
  text "\x7b " ++ List.intercalate (text ", ") (entries.map fun e => entry e.1 e.2) ++ text " \x7d"

/-- An object whose entries stand on one line can be put between braces. -/
theorem enclosed_objectOf {entries : List (Text × Text)} (hne : entries ≠ [])
    (hentries : ∀ e ∈ entries, IsKey must e.1 ∧ IsValue must e.2)
    (hinline : ∀ e ∈ entries, e.1.all isInline = true ∧ e.2.all isInline = true) :
    Enclosed must (objectOf entries) where
  inline := by
    have hjoin :
        (List.intercalate (text ", ") (entries.map fun e => entry e.1 e.2)).all isInline = true := by
      apply all_intercalate (by decide)
      intro piece hpiece
      obtain ⟨e, he, rfl⟩ := List.mem_map.1 hpiece
      obtain ⟨hkey, hvalue⟩ := hinline e he
      rw [entry, List.all_append, List.all_cons, List.all_cons, hkey, hvalue]
      rfl
    rw [objectOf, List.all_append, List.all_append, hjoin]
    rfl
  solid _ := rfl
  reads rounds depth c x u hu hfit := by
    refine reads_assignment_entries (x := '\x7d' :: x) (fun t ht _ => skips_brace ⟨ht, rfl⟩) hentries
      hfit hne ?_
    rw [hu, objectOf]
    simp
    rfl

/-! ## Expressions around an element -/

/-- What the proxy of a socket brings. -/
def childrenRef (socket : Text) : Text := proxyRef socket ++ text ".children"

/-- The links to a proxy, and to what it brings. -/
def proxyLinks (socket : Text) : List Link := [.index socket]

/-- The way from the proxies to the children of one of them. -/
def childrenLinks (socket : Text) : List Link := [.index socket, .member (text "children")]

/-- The reference to a proxy is a chain from the proxies. -/
theorem proxyRef_eq (socket : Text) : proxyRef socket = chain (text "proxies") (proxyLinks socket) := by
  simp [proxyRef, proxyLinks, chain, Link.print]
  rfl

/-- The reference to the children of a proxy is a chain from the proxies. -/
theorem childrenRef_eq (socket : Text) :
    childrenRef socket = chain (text "proxies") (childrenLinks socket) := by
  simp [childrenRef, childrenLinks, proxyRef, chain, Link.print]
  rfl

/-- A conjunction is an operation unless a side of it falls back on another value. -/
theorem operation_and {left right : Tree} (hleft : isOperation [text "??"] left = false)
    (hright : isOperation [text "??"] right = false) :
    operation (text "&&") left right = some (.node .binary (text "&&") [left, right]) := by
  unfold operation
  rw [hleft, hright]
  rfl

/-- What a proxy guards. -/
theorem framing_guard (socket : Text) : Framing must (proxyRef socket ++ text " && ") [] where
  inline := by
    rw [List.append_nil, List.all_append, proxyRef_eq, isInline_chain rfl rfl]
    rfl
  solid x := by
    rw [proxyRef_eq, List.append_assoc]
    exact isSolid_chain rfl
  begins := by
    rw [proxyRef_eq]
    rfl
  reads items rounds depth c o x u ho hu hfit helement := by
    have hu : u.rest = chain (text "proxies") (proxyLinks socket) ++ (text " && " ++ '<' :: o) := by
      rw [hu, proxyRef_eq, List.append_assoc]
    have hbegins : u.beginsOperand = true := beginsOperand_chain hu rfl rfl
    have hlength : ('<' :: o).length < u.rest.length := by
      rw [hu]
      simp only [List.length_append, List.length_cons]
      have htext : (text " && ").length = 4 := rfl
      omega
    apply reads_assignmentWithin hfit
    intro d hd hfit
    have hrounds : 1 < (grammarWithin rounds d).rounds := by
      change 1 < rounds
      rw [List.length_cons] at hlength
      omega
    apply reads_assignment (Source.word_of_beginsOperand hbegins rfl)
      (Source.word_of_beginsOperand hbegins rfl)
    apply reads_conditional
    apply reads_operand_chain (by omega) hfit hu rfl rfl rfl
    apply skips_append (b := [' ']) (x := text "&& " ++ '<' :: o) rfl rfl
    refine ⟨rfl, ?_⟩
    have hand : Source.mark ⟨text "&& " ++ '<' :: o, [' '].any isLineEnd, []⟩ = text "&&" := rfl
    have hlevel : binaryOperators.lookup (text "&&") = some 3 := rfl
    refine reads_operations_one hrounds ⟨?_, ?_⟩ hand hlevel ?_
    · intro heq
      exact absurd (show [] = text "in" from heq) (by decide)
    · intro heq
      exact absurd (show [] = text "instanceof" from heq) (by decide)
    refine reads_mark_gap (m := text "&&") (b := [' ']) (y := '<' :: o) rfl rfl rfl ?_
    apply reads_operand_element (by omega) (mark_of_element ho rfl)
    have hread := helement d (Nat.le_of_lt hd) c ⟨'<' :: o, [' '].any isLineEnd, []⟩ rfl
      (by dsimp only; omega)
    apply hread.mono
    rintro t w ⟨ht, hw⟩
    rw [hw]
    apply skips_of_isSolid (x := '\x7d' :: x) rfl
    refine ⟨rfl, ?_, ?_, rfl, ?_, rfl⟩
    · apply operation_and rfl
      rcases ht.kind with hkind | hkind <;> simp [isOperation, hkind]
    · intro heq
      exact absurd (show ['\x7d'] = ['?'] from heq) (by decide)
    · exact needs_node rfl (allNeed_cons (needs_chainTree _ _) (allNeed_one ht.needs))

/-- What a proxy brings, or else an element. -/
theorem framing_choice (socket : Text) :
    Framing must (childrenRef socket ++ text " ? " ++ childrenRef socket ++ text " : ") [] where
  inline := by
    rw [List.append_nil, List.all_append, List.all_append, List.all_append, childrenRef_eq,
      isInline_chain rfl rfl]
    rfl
  solid x := by
    rw [childrenRef_eq, List.append_assoc, List.append_assoc, List.append_assoc]
    exact isSolid_chain rfl
  begins := by
    rw [childrenRef_eq]
    rfl
  reads items rounds depth c o x u ho hu hfit helement := by
    generalize hy : chain (text "proxies") (childrenLinks socket) ++ (text " : " ++ '<' :: o) = y
    have hu : u.rest = chain (text "proxies") (childrenLinks socket) ++ (text " ? " ++ y) := by
      rw [hu, ← hy, childrenRef_eq]
      simp
    have hbegins : u.beginsOperand = true := beginsOperand_chain hu rfl rfl
    have hsolid : isSolid y = true := by
      rw [← hy]
      exact isSolid_chain rfl
    have hlength : ('<' :: o).length ≤ y.length ∧ y.length + 3 ≤ u.rest.length := by
      rw [hu, ← hy]
      have htext : (text " ? ").length = 3 := rfl
      simp only [List.length_append, List.length_cons]
      omega
    rw [List.length_cons] at hlength
    apply reads_assignmentWithin hfit
    intro d hd hfit
    have hrounds : 0 < (grammarWithin rounds d).rounds := hfit.rounds_pos
    apply reads_assignment (Source.word_of_beginsOperand hbegins rfl)
      (Source.word_of_beginsOperand hbegins rfl)
    apply reads_conditional_choice
    apply reads_operand_chain hrounds hfit hu rfl rfl rfl
    apply skips_append (b := [' ']) (x := '?' :: ([' '] ++ y)) rfl rfl
    refine ⟨rfl, ?_⟩
    apply reads_operations_end hrounds rfl
    refine ⟨rfl, ?_⟩
    refine reads_mark_gap (m := ['?']) (b := [' ']) (y := y) rfl rfl hsolid ?_
    apply reads_assignmentWithin
    · dsimp only
      omega
    intro d' hd' hfit'
    apply reads_assignment_chain hfit' hy.symm rfl rfl rfl
    apply skips_append (b := [' ']) (x := ':' :: ([' '] ++ '<' :: o)) rfl rfl
    refine ⟨Source.endsExpression_of_mem (by decide), ?_⟩
    refine reads_mark_gap (m := [':']) (b := [' ']) (y := '<' :: o) rfl rfl rfl ?_
    apply reads_assignmentWithin
    · rw [List.length_cons]
      omega
    intro d' hd' hfit'
    apply reads_assignment_element hfit.rounds_pos ho rfl
    have hread := helement d' (by omega) c ⟨'<' :: o, [' '].any isLineEnd, []⟩ rfl hfit'
    apply hread.mono
    rintro t w ⟨ht, hw⟩
    rw [hw]
    apply skips_of_isSolid (x := '\x7d' :: x) rfl
    refine ⟨rfl, rfl, rfl, ?_, rfl⟩
    exact needs_node rfl (allNeed_cons (needs_chainTree _ _)
      (allNeed_cons (needs_chainTree _ _) (allNeed_one ht.needs)))

/-- A name in parentheses. -/
theorem reads_group_name {name y : Text} (hname : isHead name = true)
    (hconstant : constants.contains name = false) (hu : u.rest = '(' :: (name ++ ')' :: y))
    (hfit : Suffices 1 rounds depth u.rest.length)
    (h : Skips must y (Q (inner .group [leaf .identifier name]))) :
    Reads must (primary (grammarWithin rounds depth) c) u Q := by
  have hplain := isPlainName_of_isHead hname
  have hlength : (name ++ ')' :: y).length < u.rest.length := by
    rw [hu, List.length_cons]
    exact Nat.lt_succ_self _
  refine reads_group (b := []) (y := name ++ ')' :: y) hfit.rounds_pos hu rfl
    (isSolid_of_isPlainName hplain) ?_ ?_
  · have hmark : Source.mark ⟨name ++ ')' :: y, [].any isLineEnd, []⟩ = [] :=
      Source.mark_of_isPlainName rfl hplain
    rw [hmark]
    exact ⟨by decide, by decide⟩
  apply reads_assignmentWithin
  · dsimp only
    omega
  intro d hd hfit'
  have htree : chainTree name [] = leaf .identifier name := by
    rw [chainTree, wordKind, hconstant]
    rfl
  have hchain : name ++ ')' :: y = chain name [] ++ ')' :: y := by simp [chain]
  apply reads_assignment_chain hfit' hchain hname rfl rfl
  rw [htree]
  apply skips_of_isSolid (x := ')' :: y) rfl
  exact ⟨Source.endsExpression_of_mem (by decide), by rintro ⟨⟩, rfl, Reads.mark rfl h⟩

/-- An arrow with one parameter whose body is an element. -/
theorem reads_assignment_arrowTo {name y : Text} (hname : isHead name = true)
    (hconstant : constants.contains name = false) (ho : startsName o = true)
    (hu : u.rest = '(' :: (name ++ ')' :: (text " => " ++ '<' :: o)))
    (hfit : Suffices 1 rounds depth u.rest.length)
    (helement : ∀ d ≤ depth, ∀ c u, Source.rest u = '<' :: o → Suffices 1 rounds d u.rest.length →
      Reads must ((grammarWithin rounds d).element c) u fun t v => IsElement items t ∧ v.rest = y)
    (h : ∀ t, t.Needs items → Skips must y fun w =>
      w.endsOperation = true ∧ w.endsAssignment = true ∧ Q t w) :
    Reads must (assignment (grammarWithin rounds depth) c) u Q := by
  have hbegins : u.beginsOperand = true := Source.beginsOperand_of_rest hu rfl
  have hlength : ('<' :: o).length + 4 ≤ u.rest.length := by
    rw [hu]
    have htext : (text " => ").length = 4 := rfl
    simp only [List.length_append, List.length_cons]
    omega
  rw [List.length_cons] at hlength
  apply reads_assignment_arrow hbegins
  apply reads_conditional
  apply reads_operand_primary hfit.rounds_pos hbegins
  apply reads_group_name hname hconstant hu hfit
  apply skips_append (b := [' ']) (x := text "=> " ++ '<' :: o) rfl rfl
  apply reads_suffixes_end hfit.rounds_pos rfl
  refine ⟨rfl, ?_⟩
  apply reads_operations_end hfit.rounds_pos rfl
  refine ⟨?_, rfl, rfl, inner .params [leaf .identifier name], rfl, ?_⟩
  · intro heq
    exact absurd (show text "=>" = ['?'] from heq) (by decide)
  simp only [arrowBehind, Reads.bind_iff]
  refine reads_mark_gap (m := text "=>") (b := [' ']) (y := '<' :: o) rfl rfl rfl ?_
  have hbrace : (Source.mark ⟨'<' :: o, [' '].any isLineEnd, []⟩ == ['\x7b']) = false := by
    rw [mark_of_element ho rfl]
    rfl
  simp only [Reads.atMark_iff, hbrace, Bool.false_eq_true, if_false, Reads.bind_iff]
  apply reads_assignmentWithin
  · rw [List.length_cons]
    omega
  intro d' hd' hfit'
  apply reads_assignment_element hfit.rounds_pos ho rfl
  have hread := helement d' (by omega) { Context.ofFunction false false with withoutIn := c.withoutIn }
    ⟨'<' :: o, [' '].any isLineEnd, []⟩ rfl hfit'
  apply hread.mono
  rintro t w ⟨ht, hw⟩
  rw [hw]
  apply h
  exact needs_node rfl (allNeed_cons (needs_node rfl (allNeed_one (needs_leaf rfl)))
    (allNeed_one ht.needs))

/-- What an element makes of the proxies that a proxy brings. -/
theorem framing_scope (socket : Text) :
    Framing must (text "createScope(" ++ childrenRef socket ++ text ", (proxies) => ") [')'] where
  inline := by
    rw [List.all_append, List.all_append, List.all_append, childrenRef_eq, isInline_chain rfl rfl]
    rfl
  solid _ := rfl
  begins := rfl
  reads items rounds depth c o x u ho hu hfit helement := by
    generalize hy : text "proxies" ++ ')' :: (text " => " ++ '<' :: o) = y
    generalize hz : chain (text "proxies") (childrenLinks socket) ++ (',' :: ([' '] ++ '(' :: y)) = z
    have hu : u.rest = text "createScope" ++ '(' :: z := by
      rw [hu, ← hz, ← childrenRef_eq, ← hy]
      simp
      rfl
    have hsolid : isSolid z = true := by
      rw [← hz]
      exact isSolid_chain rfl
    have hlength : y.length + 3 ≤ z.length ∧ z.length + 12 ≤ u.rest.length := by
      rw [hu, ← hz]
      have htext : (text "createScope").length = 11 := rfl
      simp only [List.length_append, List.length_cons, List.length_nil]
      omega
    have hmark : Source.mark ⟨z, false, []⟩ = [] := by
      rw [← hz]
      exact Source.mark_of_isPlainName (w := text "proxies") rfl rfl
    apply reads_assignmentWithin hfit
    intro d hd hfit
    have hrounds : 1 < (grammarWithin rounds d).rounds := by
      change 1 < rounds
      omega
    apply reads_assignment_call hrounds hu rfl
    refine reads_arguments_two hrounds rfl hsolid ⟨by rw [hmark]; decide, by rw [hmark]; decide⟩ ?_
    apply reads_assignmentWithin
    · dsimp only
      omega
    intro d' hd' hfit'
    apply reads_assignment_chain hfit' hz.symm rfl rfl rfl
    apply skips_of_isSolid (x := ',' :: ([' '] ++ '(' :: y)) rfl
    refine ⟨Source.endsExpression_of_mem (by decide), ?_, ?_⟩
    · intro heq
      exact absurd (show [','] = [')'] from heq) (by decide)
    refine reads_mark_gap (m := [',']) (b := [' ']) (y := '(' :: y) rfl rfl rfl ⟨?_, ?_, ?_⟩
    · intro heq
      exact absurd (show ['('] = [')'] from heq) (by decide)
    · intro heq
      exact absurd (show ['('] = text "..." from heq) (by decide)
    apply reads_assignmentWithin
    · rw [List.length_cons]
      omega
    intro d' hd' hfit'
    refine reads_assignment_arrowTo (y := ')' :: '\x7d' :: x)
      (show isHead (text "proxies") = true from rfl) rfl ho (by rw [hy]) hfit'
      (fun k hk => helement k (by omega)) ?_
    intro t ht
    apply skips_of_isSolid (x := ')' :: '\x7d' :: x) rfl
    refine ⟨rfl, rfl, rfl, ?_⟩
    refine Reads.mark (x := '\x7d' :: x) rfl ?_
    apply skips_brace
    have hcallee : (leaf (wordKind (text "createScope")) (text "createScope")).Needs [] :=
      needs_leaf rfl
    have hparts := allNeed_cons hcallee
      (allNeed_cons (needs_chainTree (text "proxies") (childrenLinks socket)) (allNeed_one ht))
    exact ⟨needs_call rfl hparts, rfl⟩

end Viewloom.Script
