import Mathlib.Data.List.Forall2
import Viewloom.Proofs.Script.Statements

/-!
# Blocks and classes

Lines are read one by one, and blocks hold lines. Conditions, attempts and the methods of a class hold
blocks.
-/

namespace Viewloom.Script

open Viewloom.Script.Parser Viewloom.Script.Tree Template

variable {must : Bool} {g : Grammar} {c : Context} {rounds depth n : Nat} {s u : Source}
  {e w x y name : Text} {items others : List Item} {Q : Tree → Source → Prop}

/-! ## Conditions -/

/-- A statement under a condition. -/
theorem isStatement_if {inFunction : Bool} {inside : Text} (he : IsExpression must items e)
    (hsolid : ∀ x, isSolid (inside ++ x) = true)
    (hinside : IsStatement must inFunction true others inside) :
    IsStatement must inFunction true (items ++ others)
      (text "if (" ++ (e ++ (text ") " ++ inside))) where
  reads rounds depth c s x u hc hs hx hu hended hfit := by
    have hs : s.rest = text "if" ++ ([' '] ++ ('(' :: (e ++ (text ") " ++ (inside ++ x))))) := by
      rw [hs]
      simp
      rfl
    have hlength : (e ++ (text ") " ++ (inside ++ x))).length < s.rest.length ∧
        (inside ++ x).length < s.rest.length := by
      rw [hs]
      simp only [List.length_append, List.length_cons]
      omega
    apply reads_statement_word hs rfl rfl rfl
    simp only [ifTree, condition, body, Reads.bind_iff]
    apply reads_word_gap hs rfl rfl rfl rfl
    refine reads_mark_gap (b := []) (y := e ++ (text ") " ++ (inside ++ x))) rfl rfl
      (isSolid_of_beginsPhrase he.begins) ?_
    apply reads_expression hfit.rounds_pos
    refine he.readsWithin rfl rfl (Source.ofText_of_isSolid (x := text ") " ++ (inside ++ x)) rfl)
      (Source.endsExpression_of_mem (d := ')') (by decide)) ?_ ?_
    · dsimp only
      omega
    intro t ht
    refine ⟨show [')'] ≠ [','] by decide, ?_⟩
    refine reads_mark_gap (b := [' ']) (y := inside ++ x) rfl rfl (hsolid x) ?_
    apply reads_statementWithin
    · dsimp only
      omega
    intro d hd hfit
    have hread := hinside.reads rounds d c.nested ⟨inside ++ x, [' '].any isLineEnd, []⟩ x u hc rfl hx
      hu hended hfit
    apply hread.mono
    rintro t' v ⟨ht', rfl⟩
    apply Reads.require (ht'.isBody rfl)
    simp only [Reads.skipWord_iff]
    refine ⟨fun heq => absurd heq (hended.word_ne (by decide)), fun _ => ?_⟩
    have hneeds : (inner .branch [t, t']).Needs (items ++ others) :=
      needs_node rfl (allNeed_cons ht.needs (allNeed_one ht'.needs))
    exact ⟨requiring_of_kind hneeds (by rintro ⟨⟩) fun _ => rfl, rfl⟩

/-! ## Lists of statements -/

/-- A statement with the line end behind it. -/
structure Line where
  code : Text
  gap : Text
  items : List Item

namespace Line

def print (l : Line) : Text := l.code ++ l.gap

/-- Lines one behind another. -/
def printAll (lines : List Line) : Text := lines.flatMap print

/-- What is told of lines together. -/
def itemsAll (lines : List Line) : List Item := lines.flatMap Line.items

theorem printAll_cons (l : Line) (lines : List Line) :
    printAll (l :: lines) = l.code ++ (l.gap ++ printAll lines) := by
  simp [printAll, print]

/-- No gap stands in front of lines that begin with words. -/
theorem isSolid_printAll {lines : List Line}
    (hlines : ∀ l ∈ lines, ∃ w x, l.code = w ++ x ∧ isPlainName w = true) (hy : isSolid y = true) :
    isSolid (printAll lines ++ y) = true := by
  cases lines with
  | nil => exact hy
  | cons l lines =>
      obtain ⟨w, x, hw, hplain⟩ := hlines l (by simp)
      rw [printAll_cons, hw, List.append_assoc, List.append_assoc]
      exact isSolid_of_isPlainName hplain

end Line

/-- A line that is read as a statement. -/
structure IsLine (must inFunction : Bool) (l : Line) : Prop where
  begins : BeginsStatement l.code
  statement : ∃ isPart, IsStatement must inFunction isPart l.items l.code
  blank : l.gap.all isBlank = true
  ends : l.gap.any isLineEnd = true

/-- A line begins with a plain name. -/
theorem IsLine.exists_name {inFunction : Bool} {l : Line} (h : IsLine must inFunction l) :
    ∃ w x, l.code = w ++ x ∧ isPlainName w = true := by
  obtain ⟨w, x, hw, -, hplain, -⟩ := h.begins
  exact ⟨w, x, hw, hplain⟩

/-- Where a line stands, the statement read has the items of the line. -/
theorem reads_needs_of_isLine {inFunction : Bool} {l : Line} (h : IsLine must inFunction l)
    (hc : inFunction = true → c.inFunction = true) (hs : s.rest = l.code ++ x) (hx : EndsLine x)
    (hu : Source.ofText x = some u) (hended : Ended u) (hfit : Suffices 2 rounds depth s.rest.length) :
    Reads must (statement (grammarWithin rounds depth) c) s fun t _ => t.Needs l.items := by
  obtain ⟨isPart, hstatement⟩ := h.statement
  apply (hstatement.reads rounds depth c s x u hc hs hx hu hended hfit).mono
  rintro t v ⟨ht, -⟩
  exact ht.needs

theorem BeginsStatement.append (he : BeginsStatement e) (x : Text) : BeginsStatement (e ++ x) := by
  obtain ⟨w, y, rfl, hne, hw, hy, hjoin⟩ := he
  refine ⟨w, y ++ x, List.append_assoc .., ?_, hw, ?_, hjoin⟩
  · simp [hne]
  · cases y with
    | nil => exact absurd rfl hne
    | cons d y => exact hy

/-- A statement fits into a function as well as outside of it. -/
theorem IsStatement.weaken {inFunction isPart : Bool}
    (h : IsStatement must inFunction isPart items e) : IsStatement must true isPart items e where
  reads rounds depth c s x u hc hs hx hu hended hfit :=
    h.reads rounds depth c s x u (fun _ => hc rfl) hs hx hu hended hfit

/-- Where a list of statements stops. -/
def EndsList (stop : Text) : Prop := stop = [] ∨ ∃ z, stop = '\x7d' :: z

/-- What stands behind lines: the statements end there or go on. -/
def StopsLines (stop : Text) : Prop := EndsList stop ∨ BeginsStatement stop

theorem StopsLines.isSolid {stop : Text} (h : StopsLines stop) : isSolid stop = true := by
  rcases h with (rfl | ⟨z, rfl⟩) | ⟨w, x, rfl, -, hw, -⟩
  · rfl
  · rfl
  · exact isSolid_of_isPlainName hw

/-- Behind the gap of a line stands the next one, or the statements end or go on. -/
theorem StopsLines.endsLine {inFunction : Bool} {lines : List Line} {gap stop : Text}
    (hstop : StopsLines stop) (hlines : ∀ l ∈ lines, IsLine must inFunction l)
    (hblank : gap.all isBlank = true) (hbreak : gap.any isLineEnd = true) :
    EndsLine (gap ++ (Line.printAll lines ++ stop)) := by
  refine ⟨gap, _, rfl, hblank, hbreak, ?_⟩
  cases lines with
  | nil => exact or_assoc.1 hstop
  | cons l lines =>
      rw [Line.printAll_cons, List.append_assoc]
      exact .inr (.inr ((hlines l (by simp)).begins.append _))

/-- A list of statements is over at what ends it. -/
theorem reads_statementList_end {isFirst prologue : Bool} {Q : List Tree → Source → Prop} (hn : 0 < n)
    (hs : EndsList s.rest) (h : Q [] s) : Reads must (statementList g c isFirst prologue n) s Q := by
  obtain ⟨k, rfl⟩ : ∃ k, n = k + 1 := ⟨n - 1, by omega⟩
  have hend : (s.rest == [] || s.rest.head? == some '\x7d') = true := by
    rcases hs with hs | ⟨z, hs⟩ <;> simp [hs]
  simp only [statementList, Reads.bind_iff, Reads.source_iff, Reads.nextWord_iff, hend,
    Bool.true_or, if_true, Reads.pure_iff]
  exact h

/-- A list of statements is read by one statement and the list behind it. -/
theorem reads_statementList_cons {isFirst prologue isPart : Bool} {Q : List Tree → Source → Prop}
    (hn : 0 < n) (hs : BeginsStatement s.rest) (hcomments : s.comments = [])
    (h : Reads must (g.statement c) s fun t u => Requiring isPart items t ∧
      ∀ isFirst prologue, Reads must (statementList g c isFirst prologue (n - 1)) u fun ts v =>
        Q (t :: ts) v) :
    Reads must (statementList g c isFirst prologue n) s Q := by
  obtain ⟨k, rfl⟩ : ∃ k, n = k + 1 := ⟨n - 1, by omega⟩
  obtain ⟨w, x, hw, -, hplain, hx, hjoin⟩ := hs
  have hhead : s.rest ≠ [] ∧ s.rest.head? ≠ some '\x7d' := by
    constructor
    · intro hnil
      rw [hw, List.append_eq_nil_iff] at hnil
      simp [hnil.1, isPlainName] at hplain
    · rw [hw]
      exact head_ne_of_isPlainName hplain (by decide)
  have hcase : w ≠ text "case" ∧ w ≠ text "default" := by
    constructor <;>
      · rintro rfl
        exact absurd hjoin (by decide)
  have hend : (s.rest == [] || s.rest.head? == some '\x7d' || w == text "case" ||
      w == text "default") = false := by
    simp [hhead, hcase, -List.beq_nil_eq]
  have hleading (isFirst : Bool) : s.leadingComments isFirst = [] := by
    rw [Source.leadingComments, hcomments]
    rfl
  simp only [statementList, Reads.bind_iff, Reads.source_iff, Reads.nextWord_iff,
    Source.word_of_isPlainName hw hplain hx, hend, Bool.false_eq_true, if_false, hleading]
  apply h.mono
  rintro t u ⟨ht, hrest⟩
  have hstatement : (if prologue = true then asDirective s.rest t else t) = t := by
    rw [ht.isOwn, ite_self]
  rw [hstatement]
  exact hrest _ _

/-- Lines are read as statements in front of those behind them, and each of these statements satisfies
what is known of its line. -/
theorem reads_lines_before {α : Type} (line : α → Line) (P : α → Tree → Prop)
    {inFunction isFirst prologue : Bool} {entries : List α} {stop : Text}
    {Q : List Tree → Source → Prop}
    (hlines : ∀ a ∈ entries, IsLine must inFunction (line a))
    (hP : ∀ a ∈ entries, ∀ rounds depth s x u, Source.rest s = (line a).code ++ x → EndsLine x →
      Source.ofText x = some u → Ended u → Suffices 2 rounds depth s.rest.length →
        Reads must (statement (grammarWithin rounds depth) c) s fun t _ => P a t)
    (hc : inFunction = true → c.inFunction = true) (hstop : StopsLines stop)
    (hs : s.rest = Line.printAll (entries.map line) ++ stop) (hcomments : s.comments = [])
    (hfit : Suffices 3 rounds depth s.rest.length) (hn : s.rest.length < n)
    (h : ∀ isFirst prologue n u, Source.rest u = stop → 0 < n →
      Reads must (statementList (grammarWithin rounds depth) c isFirst prologue n) u Q) :
    Reads must (statementList (grammarWithin rounds depth) c isFirst prologue n) s fun ts v =>
      ∃ found more, ts = found ++ more ∧ List.Forall₂ P entries found ∧ Q more v := by
  -- A line is read up to its gap, which ends the statement, and the next line begins behind it.
  induction entries generalizing s n isFirst prologue with
  | nil =>
      apply (h isFirst prologue n s hs (by omega)).mono
      intro more v hQ
      exact ⟨[], more, rfl, .nil, hQ⟩
  | cons a entries ih =>
      obtain ⟨hbegins, ⟨isPart, hstatement⟩, hblank, hbreak⟩ := hlines a (by simp)
      generalize hy : Line.printAll (entries.map line) ++ stop = y
      have hs : s.rest = (line a).code ++ ((line a).gap ++ y) := by
        rw [hs, ← hy, List.map_cons, Line.printAll_cons, List.append_assoc, List.append_assoc]
      have hlines' : ∀ l ∈ entries.map line, IsLine must inFunction l :=
        List.forall_mem_map.2 fun a ha => hlines a (by simp [ha])
      have hends : EndsLine ((line a).gap ++ y) := hy ▸ hstop.endsLine hlines' hblank hbreak
      have hsolid : isSolid y = true :=
        hy ▸ Line.isSolid_printAll (fun l hl => (hlines' l hl).exists_name) hstop.isSolid
      have hlength : y.length < s.rest.length := by
        obtain ⟨w, x, hw, hne, -⟩ := hbegins
        have hpos := List.length_pos_iff.2 hne
        simp only [hs, hw, List.length_append]
        omega
      have hu : Source.ofText ((line a).gap ++ y) = some ⟨y, (line a).gap.any isLineEnd, []⟩ :=
        Source.ofText_append hblank hsolid
      obtain ⟨u, hu', hended⟩ := hends.ended
      rw [hu] at hu'
      cases hu'
      apply reads_statementList_cons (by omega) (hs ▸ hbegins.append _) hcomments
      apply reads_statementWithin hfit
      intro d hd hfit
      apply ((hstatement.reads rounds d c s _ _ hc hs hends hu hended hfit).and
        (hP a (by simp) rounds d s _ _ hs hends hu hended hfit)).mono
      rintro t v ⟨⟨ht, rfl⟩, hPt⟩
      refine ⟨ht, fun isFirst prologue => ?_⟩
      apply (ih (fun a ha => hlines a (by simp [ha])) (fun a ha => hP a (by simp [ha])) hy.symm rfl
        (by dsimp only; omega) (by dsimp only; omega)).mono
      rintro ts w ⟨found, more, rfl, hfound, hQ⟩
      exact ⟨t :: found, more, rfl, .cons hPt hfound, hQ⟩

/-- Lines up to the end of the statements are read as these statements. -/
theorem reads_lines_of {α : Type} (line : α → Line) (P : α → Tree → Prop)
    {inFunction isFirst prologue : Bool} {entries : List α} {stop : Text}
    (hlines : ∀ a ∈ entries, IsLine must inFunction (line a))
    (hP : ∀ a ∈ entries, ∀ rounds depth s x u, Source.rest s = (line a).code ++ x → EndsLine x →
      Source.ofText x = some u → Ended u → Suffices 2 rounds depth s.rest.length →
        Reads must (statement (grammarWithin rounds depth) c) s fun t _ => P a t)
    (hc : inFunction = true → c.inFunction = true) (hstop : EndsList stop)
    (hs : s.rest = Line.printAll (entries.map line) ++ stop) (hcomments : s.comments = [])
    (hfit : Suffices 3 rounds depth s.rest.length) (hn : s.rest.length < n) :
    Reads must (statementList (grammarWithin rounds depth) c isFirst prologue n) s fun ts v =>
      List.Forall₂ P entries ts ∧ v.rest = stop := by
  apply (reads_lines_before line P hlines hP hc (.inl hstop) hs hcomments hfit hn
    (Q := fun more v => more = [] ∧ v.rest = stop) ?_).mono
  · rintro ts v ⟨found, more, rfl, hfound, rfl, hv⟩
    rw [List.append_nil]
    exact ⟨hfound, hv⟩
  · intro isFirst prologue n u hu hn
    exact reads_statementList_end hn (hu ▸ hstop) ⟨rfl, hu⟩

/-- Trees that need what their lines hold need together what all the lines hold. -/
theorem allNeed_of_forall₂ {lines : List Line} {ts : List Tree}
    (h : List.Forall₂ (fun l t => t.Needs l.items) lines ts) : AllNeed (Line.itemsAll lines) ts := by
  induction h with
  | nil => exact allNeed_nil
  | cons ht _ ih => exact allNeed_cons ht ih

/-- Lines are read as a list of statements. -/
theorem reads_lines {inFunction isFirst prologue : Bool} {lines : List Line} {stop : Text}
    (hlines : ∀ l ∈ lines, IsLine must inFunction l) (hc : inFunction = true → c.inFunction = true)
    (hstop : EndsList stop) (hs : s.rest = Line.printAll lines ++ stop) (hcomments : s.comments = [])
    (hfit : Suffices 3 rounds depth s.rest.length) (hn : s.rest.length < n) :
    Reads must (statementList (grammarWithin rounds depth) c isFirst prologue n) s fun ts v =>
      AllNeed (Line.itemsAll lines) ts ∧ v.rest = stop := by
  apply (reads_lines_of id (fun l t => t.Needs l.items) hlines ?_ hc hstop
    (by rwa [List.map_id]) hcomments hfit hn).mono
  · rintro ts v ⟨hts, hv⟩
    exact ⟨allNeed_of_forall₂ hts, hv⟩
  · intro l hl rounds depth s x u hs hx hu hended hfit
    exact reads_needs_of_isLine (hlines l hl) hc hs hx hu hended hfit

/-! ## Blocks -/

/-- Lines in braces, behind a blank. -/
def braced (b : Text) (lines : List Line) : Text := '\x7b' :: (b ++ (Line.printAll lines ++ ['\x7d']))

section Block

variable {inFunction : Bool} {lines : List Line} {b : Text}
  (hlines : ∀ l ∈ lines, IsLine must inFunction l) (hb : b.all isBlank = true)
include hlines hb

/-- A braced list of lines is read as a block with the items of the lines. -/
theorem reads_block {prologue : Bool} (hc : inFunction = true → c.inFunction = true)
    (hs : s.rest = braced b lines ++ x) (hfit : Suffices 2 rounds depth s.rest.length)
    (h : ∀ t, t.Needs (Line.itemsAll lines) → t.kind = .block → Skips must x (Q t)) :
    Reads must (block (grammarWithin rounds depth) c prologue) s Q := by
  generalize hy : Line.printAll lines ++ '\x7d' :: x = y
  have hs : s.rest = '\x7b' :: (b ++ y) := by
    rw [hs, ← hy]
    simp [braced]
  have hlength := congrArg List.length hs
  rw [List.length_cons, List.length_append] at hlength
  have hsolid : isSolid y = true :=
    hy ▸ Line.isSolid_printAll (fun l hl => (hlines l hl).exists_name) rfl
  have hread : readPunctuator s.rest = some (['\x7b'], b ++ y) := by
    rw [hs]
    rfl
  simp only [block, Reads.bind_iff]
  apply reads_mark_gap hread hb hsolid
  have hfit' : Suffices 3 rounds depth y.length := by omega
  apply (reads_lines (c := c.nested) (s := ⟨y, b.any isLineEnd, []⟩) hlines hc (.inr ⟨x, rfl⟩) hy.symm
    rfl hfit' hfit'.1).mono
  rintro ts v ⟨hts, hv⟩
  have hclose : readPunctuator v.rest = some (['\x7d'], x) := by
    rw [hv]
    rfl
  exact Reads.mark hclose (h _ (needs_node rfl hts) rfl)

/-- Statements in braces. -/
theorem isStatement_block :
    IsStatement must inFunction true (Line.itemsAll lines) (braced b lines) where
  reads rounds depth c s x u hc hs _ hu _ hfit := by
    have hhead : s.rest.head? = some '\x7b' := by
      rw [hs]
      rfl
    simp only [statement, Reads.bind_iff, Reads.nextChar_iff, hhead]
    apply reads_block hlines hb hc hs hfit
    intro t ht hkind
    rw [Skips, hu]
    refine ⟨requiring_of_kind ht (by rw [hkind]; rintro ⟨⟩) fun _ => ?_, rfl⟩
    obtain ⟨kind, word, parts⟩ := t
    obtain rfl : kind = .block := hkind
    rfl

end Block

/-- A block whose failures are handled. -/
def attempt (b : Text) (lines : List Line) (gap : Text) (name b' : Text) (lines' : List Line) : Text :=
  text "try " ++ (braced b lines ++ (gap ++ (text "catch (" ++ (name ++ (text ") " ++
    braced b' lines')))))

/-- A try with its handler is a statement with the items of both blocks. -/
theorem isStatement_attempt {inFunction : Bool} {lines lines' : List Line} {b gap b' : Text}
    (hlines : ∀ l ∈ lines, IsLine must inFunction l) (hb : b.all isBlank = true)
    (hgap : gap.all isBlank = true) (hname : isVariable name = true)
    (hlines' : ∀ l ∈ lines', IsLine must inFunction l) (hb' : b'.all isBlank = true) :
    IsStatement must inFunction true (Line.itemsAll lines ++ Line.itemsAll lines')
      (attempt b lines gap name b' lines') where
  reads rounds depth c s x u hc hs hx hu hended hfit := by
    have hplain := isPlainName_of_isVariable hname
    generalize hz : braced b' lines' ++ x = z
    generalize hy : text "catch" ++ ([' '] ++ '(' :: (name ++ (text ") " ++ z))) = y
    have hs : s.rest = text "try" ++ ([' '] ++ (braced b lines ++ (gap ++ y))) := by
      rw [hs, ← hy, ← hz]
      simp [attempt]
      rfl
    have hlength : (braced b lines ++ (gap ++ y)).length ≤ s.rest.length ∧ z.length ≤ y.length ∧
        y.length ≤ s.rest.length := by
      simp only [hs, ← hy, List.length_append, List.length_cons]
      omega
    have hysolid : isSolid y = true := by
      rw [← hy]
      rfl
    have hcatch : Source.word ⟨y, gap.any isLineEnd, []⟩ = text "catch" :=
      Source.word_of_isPlainName hy.symm rfl rfl
    apply reads_statement_word hs rfl rfl rfl
    simp only [tryTree, Reads.bind_iff]
    apply reads_word_gap hs rfl rfl rfl rfl
    refine reads_block hlines hb hc rfl (by dsimp only; omega) ?_
    intro t ht _
    apply skips_append hgap hysolid
    simp only [Reads.skipWord_iff, hcatch]
    refine ⟨fun _ => ?_, fun hne => absurd rfl hne⟩
    apply reads_word_gap hy.symm rfl rfl rfl rfl
    have hparen : Source.mark ⟨'(' :: (name ++ (text ") " ++ z)), [' '].any isLineEnd, []⟩ = ['('] :=
      rfl
    simp only [if_true, handlerTree, Reads.bind_iff, Reads.skipMark_iff, hparen]
    refine ⟨fun _ => ?_, fun hne => absurd rfl hne⟩
    refine reads_mark_gap (b := []) (y := name ++ (text ") " ++ z)) rfl rfl
      (isSolid_of_isPlainName hplain) ?_
    apply reads_declared_bare hname rfl rfl
    apply skips_of_isSolid (x := text ") " ++ z) rfl
    refine ⟨show [')'] ≠ ['='] by decide, ?_⟩
    apply Reads.require rfl
    have hzsolid : isSolid z = true := by
      rw [← hz]
      rfl
    refine reads_mark_gap (b := [' ']) (y := z) rfl rfl hzsolid ?_
    refine reads_block hlines' hb' hc hz.symm (by dsimp only; omega) ?_
    intro t' ht' _
    rw [Skips, hu]
    simp only [Reads.pure_iff, Reads.skipWord_iff]
    refine ⟨fun heq => absurd heq (hended.word_ne (by decide)), fun _ => ?_⟩
    simp only [Bool.false_eq_true, if_false, Reads.bind_iff, Reads.pure_iff]
    apply Reads.require rfl
    have hhandler : (inner .handler [leaf .identifier name, t']).Needs (Line.itemsAll lines') :=
      needs_node rfl (allNeed_cons (needs_leaf rfl) (allNeed_one ht'))
    have hattempt : (inner .attempt [t, inner .handler [leaf .identifier name, t'], hole]).Needs
        (Line.itemsAll lines ++ Line.itemsAll lines') := by
      have hhole : hole.Needs [] := needs_leaf rfl
      have hparts := allNeed_cons ht (allNeed_cons hhandler (allNeed_one hhole))
      rw [List.append_nil] at hparts
      exact needs_node rfl hparts
    exact ⟨requiring_of_kind hattempt (by rintro ⟨⟩) fun _ => rfl, rfl⟩

/-! ## Members of classes -/

/-- A plain name does not end the key of a member. -/
theorem reads_endsKey_name (hs : s.rest = w ++ x) (hw : isPlainName w = true) :
    Reads must endsKey s fun ends _ => ends = false := by
  simp only [endsKey, Reads.bind_iff, Reads.nextChar_iff]
  cases w with
  | nil => simp [isPlainName] at hw
  | cons d w =>
      simp only [isPlainName, Bool.and_eq_true] at hw
      simp only [hs, List.cons_append, List.head?_cons, Reads.pure_iff]
      rw [← Bool.not_eq_true]
      intro hmem
      have hnone : (text ",:(\x7d=;").all (fun d => !isNameStart d) = true := by decide
      simpa [hw.1] using List.all_eq_true.1 hnone d (List.contains_iff_mem.1 hmem)

/-- A word in front of another one is no key. -/
theorem reads_behindWord_name (hs : s.rest = w ++ ([' '] ++ (name ++ x))) (hw : isPlainName w = true)
    (hname : isPlainName name = true) :
    Reads must (behindWord endsKey) s fun ends u => ends = false ∧ u = s := by
  rw [Reads.behindWord_iff]
  apply reads_name hs hw rfl
  apply skips_append (b := [' ']) rfl (isSolid_of_isPlainName hname)
  apply (reads_endsKey_name rfl hname).mono
  intro ends _ hends
  exact ⟨hends, rfl⟩

/-- The head of a getter is read with its name left over. -/
theorem reads_memberHead_get {Q : Head → Source → Prop}
    (hs : s.rest = text "get" ++ ([' '] ++ (name ++ x))) (hname : isPlainName name = true)
    (h : Q ⟨text "get ", false, false⟩ ⟨name ++ x, false, []⟩) : Reads must memberHead s Q := by
  have hget : s.word = text "get" := Source.word_of_isPlainName hs rfl rfl
  simp only [memberHead, Reads.bind_iff, Reads.nextWord_iff, hget, beq_self_eq_true, Bool.true_or,
    if_true]
  apply (reads_behindWord_name hs rfl hname).mono
  rintro ends u ⟨rfl, rfl⟩
  simp only [Bool.false_eq_true, if_false, Reads.bind_iff]
  exact reads_word_gap hs rfl rfl rfl (isSolid_of_isPlainName hname) h

/-- A member of a class, in front of anything. -/
structure IsClassMember (must : Bool) (items : List Item) (e : Text) : Prop where
  begins : ∃ w x, e = w ++ x ∧ isPlainName w = true
  reads : ∀ rounds depth c s x, Source.rest s = e ++ x → Suffices 2 rounds depth s.rest.length →
    ∀ Q : Tree → Source → Prop, (∀ t, t.Needs items → Skips must x (Q t)) →
      Reads must (classMember (grammarWithin rounds depth) c) s Q

/-- Empty parentheses and a block. -/
def methodBody (b : Text) (lines : List Line) : Text := text "() " ++ braced b lines

section Method

variable {lines : List Line} {b : Text} (hlines : ∀ l ∈ lines, IsLine must true l)
  (hb : b.all isBlank = true)
include hlines hb

/-- The parameters and the body of a method are read with the items of the body. -/
theorem reads_methodParts {head : Head} {Q : List Tree → Source → Prop}
    (hs : s.rest = methodBody b lines ++ x) (hasync : head.isAsync = false)
    (hgenerator : head.isGenerator = false) (hfits : fitsHead head (inner .params []) = true)
    (hfit : Suffices 2 rounds depth s.rest.length)
    (h : ∀ parts, AllNeed (Line.itemsAll lines) parts → Skips must x (Q parts)) :
    Reads must (methodParts (grammarWithin rounds depth) head) s Q := by
  have hs : s.rest = '(' :: (')' :: ([' '] ++ (braced b lines ++ x))) := by
    rw [hs]
    simp [methodBody]
    rfl
  have hlength := congrArg List.length hs
  simp only [List.length_cons, List.length_append, List.length_nil] at hlength
  have hread : readPunctuator s.rest = some (['('], [] ++ ')' :: ([' '] ++ (braced b lines ++ x))) := by
    rw [hs]
    rfl
  simp only [methodParts, functionParts, params, hasync, hgenerator, Reads.bind_iff]
  apply reads_mark_gap hread rfl rfl
  refine reads_commaList_close hfit.rounds_pos rfl ?_
  refine reads_mark_gap (b := [' ']) (y := braced b lines ++ x) rfl rfl rfl ?_
  apply Reads.require rfl
  apply reads_block hlines hb (fun _ => rfl) rfl
  · simp only [List.length_append]
    omega
  intro t ht _
  have hparts : AllNeed (Line.itemsAll lines) [inner .params [], t] :=
    allNeed_cons (needs_node rfl allNeed_nil) (allNeed_one ht)
  apply (h _ hparts).mono
  intro v _ hQ
  apply Reads.require _ hQ
  simp [hfits]

/-- A method without parameters. -/
theorem isClassMember_method (hname : isMemberName name = true) :
    IsClassMember must (Line.itemsAll lines) (name ++ methodBody b lines) where
  begins := by
    simp only [isMemberName, Bool.and_eq_true] at hname
    exact ⟨name, _, rfl, hname.1⟩
  reads rounds depth c s x hs hfit Q h := by
    have hmember := hname
    simp only [isMemberName, Bool.and_eq_true, Bool.not_eq_true', List.contains_eq_mem,
      decide_eq_false_iff_not, List.mem_cons, not_or] at hname
    obtain ⟨hplain, hstatic, -⟩ := hname
    have hs : s.rest = name ++ (methodBody b lines ++ x) := by rw [hs, List.append_assoc]
    have hlength : (methodBody b lines ++ x).length ≤ s.rest.length := by
      simp only [hs, List.length_append]
      omega
    have hnext : s.word = name := Source.word_of_isPlainName hs hplain rfl
    have hisStatic : (name == text "static") = false := beq_eq_false_iff_ne.2 hstatic
    simp only [classMember, atStatic, Reads.bind_iff, Reads.atWord_iff, hnext, hisStatic,
      Bool.false_eq_true, if_false, Reads.pure_iff, Reads.atMark_iff, Bool.false_and]
    apply reads_memberHead_name hs hmember rfl
    apply reads_key_name hs hplain rfl
    apply skips_of_isSolid (x := methodBody b lines ++ x) rfl
    apply Reads.require rfl
    have hparen : (Source.mark ⟨methodBody b lines ++ x, false, []⟩ == ['(']) = true := rfl
    simp only [hparen, if_true, Reads.bind_iff]
    apply Reads.require (by simp [allowsMethod])
    refine reads_methodParts hlines hb rfl rfl rfl rfl (by dsimp only; omega) ?_
    intro parts hparts
    exact h _ (needs_node rfl (allNeed_cons (needs_leaf rfl) hparts))

/-- A value of a class that is computed when it is asked for. -/
theorem isClassMember_staticGetter (hname : isPlainName name = true)
    (hprototype : name ≠ text "prototype") :
    IsClassMember must (Line.itemsAll lines)
      (text "static get " ++ (name ++ methodBody b lines)) where
  begins := ⟨text "static", ' ' :: (text "get " ++ (name ++ methodBody b lines)), rfl, rfl⟩
  reads rounds depth c s x hs hfit Q h := by
    generalize hz : methodBody b lines ++ x = z
    generalize hy : text "get" ++ ([' '] ++ (name ++ z)) = y
    have hs : s.rest = text "static" ++ ([' '] ++ (text "get" ++ ([' '] ++ (name ++ z)))) := by
      rw [hs, ← hz]
      simp
      rfl
    have hzname : endsName z = true := by
      rw [← hz]
      rfl
    have hlength : z.length ≤ s.rest.length := by
      simp only [hs, List.length_append]
      omega
    have hnext : s.word = text "static" := Source.word_of_isPlainName hs rfl rfl
    have hmark : Source.mark ⟨y, false, []⟩ = [] := Source.mark_of_isPlainName hy.symm rfl
    have hbrace : (true && Source.mark ⟨y, false, []⟩ == ['\x7b']) = false := by
      rw [hmark]
      rfl
    simp only [classMember, atStatic, Reads.bind_iff, Reads.atWord_iff, hnext, beq_self_eq_true,
      if_true]
    apply (reads_behindWord_name hs rfl rfl).mono
    rintro ends s' ⟨rfl, rfl⟩
    simp only [Reads.pure_iff, Bool.not_false, if_true, Reads.bind_iff]
    rw [hy] at hs
    have hysolid : isSolid y = true := by
      rw [← hy]
      rfl
    apply reads_word_gap hs rfl rfl rfl hysolid
    have hstatic : [' '].any isLineEnd = false := rfl
    simp only [Reads.atMark_iff, hstatic, hbrace, Bool.false_eq_true, if_false, Reads.bind_iff]
    apply reads_memberHead_get hy.symm hname
    apply reads_key_name rfl hname hzname
    have hzsolid : isSolid z = true := by
      rw [← hz]
      rfl
    apply skips_of_isSolid hzsolid
    apply Reads.require rfl
    have hparen : (Source.mark ⟨z, false, []⟩ == ['(']) = true := by
      rw [← hz]
      rfl
    have hallows : allowsMethod true ⟨text "get ", false, false⟩ (leaf .identifier name) = true := by
      have hword : ((leaf .identifier name).word == text "prototype") = false :=
        beq_eq_false_iff_ne.2 hprototype
      simp [allowsMethod, isNamed, hword]
    simp only [hparen, if_true, Reads.bind_iff]
    apply Reads.require hallows
    refine reads_methodParts hlines hb hz.symm rfl rfl rfl (by dsimp only; omega) ?_
    intro parts hparts
    exact h _ (needs_node rfl (allNeed_cons (needs_leaf rfl) hparts))

end Method

/-! ## Classes -/

/-- Members with the gaps behind them. -/
theorem reads_classMembers {members : List Line} {Q : List Tree → Source → Prop}
    (hmembers : ∀ m ∈ members, IsClassMember must m.items m.code ∧ m.gap.all isBlank = true)
    (hs : s.rest = Line.printAll members ++ '\x7d' :: x) (hn : s.rest.length < n)
    (hfit : Suffices 2 rounds depth s.rest.length)
    (h : ∀ ts, AllNeed (Line.itemsAll members) ts → Skips must x (Q ts)) :
    Reads must (classMembers (grammarWithin rounds depth) c n) s Q := by
  induction members generalizing s n Q with
  | nil =>
      obtain ⟨k, rfl⟩ : ∃ k, n = k + 1 := ⟨n - 1, by omega⟩
      have hmark : s.mark = ['\x7d'] := Source.mark_of_rest hs rfl
      have hread : readPunctuator s.rest = some (['\x7d'], x) := by
        rw [hs]
        rfl
      have hclose : Reads must (mark ['\x7d']) s fun _ u => Q [] u := Reads.mark hread (h [] allNeed_nil)
      simp only [classMembers, Reads.bind_iff, Reads.skipMark_iff, hmark]
      simpa using hclose
  | cons m members ih =>
      obtain ⟨k, rfl⟩ : ∃ k, n = k + 1 := ⟨n - 1, by omega⟩
      obtain ⟨⟨⟨w, y, hw, hplain⟩, hreads⟩, hblank⟩ := hmembers m (by simp)
      generalize hz : Line.printAll members ++ '\x7d' :: x = z
      have hs : s.rest = m.code ++ (m.gap ++ z) := by
        rw [hs, ← hz, Line.printAll_cons, List.append_assoc, List.append_assoc]
      have hsolid : isSolid z = true :=
        hz ▸ Line.isSolid_printAll (fun m hm => (hmembers m (by simp [hm])).1.begins) rfl
      have hlength : z.length < s.rest.length := by
        have hpos : 0 < w.length := by
          rw [List.length_pos_iff]
          rintro rfl
          simp [isPlainName] at hplain
        simp only [hs, hw, List.length_append]
        omega
      have hmark : s.mark = [] := by
        rw [hw, List.append_assoc] at hs
        exact Source.mark_of_isPlainName hs hplain
      have hmember : Reads must (classMember (grammarWithin rounds depth) c) s fun t u =>
          Reads must (classMembers (grammarWithin rounds depth) c k) u fun ts v => Q (t :: ts) v := by
        apply hreads rounds depth c s (m.gap ++ z) hs hfit
        intro t ht
        apply skips_append hblank hsolid
        refine ih (fun m hm => hmembers m (by simp [hm])) hz.symm ?_ ?_ ?_
        · dsimp only
          omega
        · dsimp only
          omega
        intro ts hts
        exact h _ (allNeed_cons ht hts)
      have hbrace : [] ≠ ['\x7d'] := (List.cons_ne_nil _ _).symm
      have hsemicolon : [] ≠ [';'] := (List.cons_ne_nil _ _).symm
      simpa [classMembers, hmark] using hmember

/-- A class that extends another one. -/
def classText (name parent : Text) (b : Text) (members : List Line) : Text :=
  text "class " ++ (name ++ (text " extends " ++ (parent ++ (text " \x7b" ++
    (b ++ (Line.printAll members ++ ['\x7d']))))))

/-- An atom binds as tightly as any operator. -/
theorem bindsTightly_of_isAtom {t : Tree} (ht : isAtom t.kind = true) : bindsTightly t = true := by
  obtain ⟨kind, word, parts⟩ := t
  cases kind <;> first | rfl | cases ht

section Class

variable {name head b : Text} {links : List Link} {members : List Line}
  (hname : isVariable name = true) (hhead : isHead head = true)
  (hlinks : links.all Link.isSound = true) (hb : b.all isBlank = true)
  (hmembers : ∀ m ∈ members, IsClassMember must m.items m.code ∧ m.gap.all isBlank = true)
include hname hhead hlinks hb hmembers

/-- A class is read with its heritage and the items of its members. -/
theorem reads_classTree {Q : Tree → Source → Prop}
    (hs : s.rest = classText name (chain head links) b members ++ x)
    (hfit : Suffices 2 rounds depth s.rest.length)
    (h : ∀ ts, AllNeed (Line.itemsAll members) ts →
      Skips must x (Q (.node .classBody name (chainTree head links :: ts)))) :
    Reads must (classTree (grammarWithin rounds depth) c) s Q := by
  have hplain := isPlainName_of_isVariable hname
  generalize hz : Line.printAll members ++ '\x7d' :: x = z
  generalize hy : chain head links ++ (text " \x7b" ++ (b ++ z)) = y
  have hs : s.rest = text "class" ++ ([' '] ++ (name ++ (text " extends " ++ y))) := by
    rw [hs, ← hy, ← hz]
    simp [classText]
    rfl
  have hlength : y.length ≤ s.rest.length ∧ z.length ≤ s.rest.length := by
    simp only [hs, ← hy, List.length_append]
    omega
  have hysolid : isSolid y = true := by
    rw [← hy]
    exact isSolid_chain hhead
  have hnameWord : Source.word ⟨name ++ (text " extends " ++ y), false, []⟩ = name :=
    Source.word_of_isPlainName rfl hplain rfl
  have hnameMark : Source.mark ⟨name ++ (text " extends " ++ y), false, []⟩ = [] :=
    Source.mark_of_isPlainName rfl hplain
  have hopen : (name == text "extends" || ([] : Text) == ['\x7b']) = false := by
    have hextends : name ≠ text "extends" := by
      rintro rfl
      exact absurd hname (by decide)
    rw [beq_eq_false_iff_ne.2 hextends]
    rfl
  simp only [classTree, Reads.bind_iff]
  apply reads_word_gap hs rfl rfl rfl (isSolid_of_isPlainName hplain)
  have hbreak : [' '].any isLineEnd = false := rfl
  simp only [hbreak, Reads.nextWord_iff, Reads.atMark_iff, hnameWord, hnameMark, hopen,
    Bool.false_eq_true, if_false, Reads.bind_iff]
  apply reads_variableName hname rfl rfl
  apply skips_append (b := [' ']) (x := text "extends " ++ y) rfl rfl
  have hextendsWord : Source.word ⟨text "extends " ++ y, false, []⟩ = text "extends" :=
    Source.word_of_isPlainName (w := text "extends") (x := ' ' :: y) rfl rfl rfl
  simp only [hbreak, Reads.skipWord_iff, hextendsWord]
  refine ⟨fun _ => ?_, fun hne => absurd rfl hne⟩
  refine reads_word_gap (w := text "extends") (b := [' ']) (y := y) rfl rfl rfl rfl hysolid ?_
  simp only [if_true, Reads.bind_iff]
  apply reads_assignmentWithin
  · dsimp only
    omega
  intro d hd hfit'
  apply reads_assignment_chain hfit' hy.symm hhead hlinks rfl
  apply skips_append (b := [' ']) (x := '\x7b' :: (b ++ z)) rfl rfl
  refine ⟨Source.endsExpression_of_mem (by decide), ?_⟩
  apply Reads.require (bindsTightly_of_isAtom (isAtom_chainTree head links))
  have hzsolid : isSolid z = true :=
    hz ▸ Line.isSolid_printAll (fun m hm => (hmembers m hm).1.begins) rfl
  refine reads_mark_gap (b := b) (y := z) rfl hb hzsolid ?_
  refine reads_classMembers hmembers hz.symm ?_ ?_ h
  · change z.length < rounds
    omega
  · dsimp only
    omega

/-- A class stands as a statement. -/
theorem reads_statement_class
    (hs : s.rest = classText name (chain head links) b members ++ x) (hu : Source.ofText x = some u)
    (hfit : Suffices 2 rounds depth s.rest.length)
    (h : ∀ ts, AllNeed (Line.itemsAll members) ts →
      Q (inner .declaration [.node .classBody name (chainTree head links :: ts)]) u) :
    Reads must (statement (grammarWithin rounds depth) c) s Q := by
  have hclass : s.rest = text "class" ++ ' ' :: (name ++ (text " extends " ++ (chain head links ++
      (text " \x7b" ++ (b ++ (Line.printAll members ++ '\x7d' :: x)))))) := by
    rw [hs]
    simp [classText]
    rfl
  have hword : s.word = text "class" := Source.word_of_isPlainName hclass rfl rfl
  have hasync : (text "class" == text "async") = false := by decide
  apply reads_statement_word hclass rfl rfl rfl
  simp only [declarationTree, atAsyncFunction, Reads.bind_iff, Reads.atWord_iff, hword, hasync,
    Bool.false_eq_true, if_false, Reads.pure_iff, beq_self_eq_true, if_true]
  apply reads_classTree hname hhead hlinks hb hmembers hs ⟨hfit.1, by omega⟩
  intro ts hts
  rw [Skips, hu]
  have hwordName : ((Tree.node .classBody name (chainTree head links :: ts)).word != []) = true := by
    cases name with
    | nil => cases hname
    | cons => rfl
  exact Reads.require hwordName (h ts hts)

/-- A class is a statement with the items of its members. -/
theorem isStatement_class : IsStatement must false false (Line.itemsAll members)
    (classText name (chain head links) b members) where
  reads rounds depth c s x u _ hs _ hu _ hfit := by
    apply reads_statement_class hname hhead hlinks hb hmembers hs hu hfit
    intro ts hts
    have hclass : (Tree.node .classBody name (chainTree head links :: ts)).Needs
        (Line.itemsAll members) :=
      needs_node rfl (allNeed_cons (needs_chainTree head links) hts)
    exact ⟨requiring_of_kind (needs_node rfl (allNeed_one hclass)) (by rintro ⟨⟩) (by rintro ⟨⟩), rfl⟩

end Class

end Viewloom.Script
