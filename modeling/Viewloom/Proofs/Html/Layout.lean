import Mathlib.Data.List.TakeWhile
import Viewloom.Proofs.Html.Fitting
import Viewloom.Proofs.Trimming

/-!
# Printed lines as nodes

A page that is printed with one line per node is a page on one line, if the line breaks and the blanks
around them are taken for texts of it.
-/

namespace Viewloom.Markup

variable {n : Node} {ns : List Node} {value : Text} {depth : Nat}

/-! ## Lines as nodes -/

/-- The text between two lines. -/
def lineBreak (depth : Nat) : Text := '\n' :: indentation depth

/-- Nodes with a line break in front of each. -/
def breakEach (depth : Nat) (ns : List Node) : List Node :=
  ns.flatMap fun n => [.text (lineBreak depth), n]

mutual

/-- A node as it stands on lines of its own, if it is shown at all. -/
def Node.laid? (depth : Nat) : Node → Option Node
  | .text value => if Text.isAllBlank value then none else some (.text (Text.trim value))
  | .comment value => some (.comment value)
  | .element tag attributes children =>
    if isVoid tag || keepsOneLine tag children then some (.element tag attributes children)
    else
      some (.element tag attributes
        (breakEach (depth + 1) (laidAll (depth + 1) children) ++ [.text (lineBreak depth)]))

def Node.laidAll (depth : Nat) : List Node → List Node
  | [] => []
  | n :: ns => (n.laid? depth).toList ++ laidAll depth ns

end

/-- Joins a text to one that follows it. -/
def joinText (value : Text) : List Node → List Node
  | .text next :: ns => .text (value ++ next) :: ns
  | ns => .text value :: ns

/-- Joins texts that stand next to each other. -/
def fuse : List Node → List Node
  | [] => []
  | .text value :: ns => joinText value (fuse ns)
  | n :: ns => n :: fuse ns

/-- The nodes that a printed page shows, with line breaks between them. -/
def laidOut (ns : List Node) : List Node := fuse (breakEach 0 (Node.laidAll 0 ns)).tail

/-! ## Their form on one line -/

theorem isPlain_lineBreak (depth : Nat) : ∀ c ∈ lineBreak depth, Html.isPlain c = true := by
  intro c hc
  rcases List.mem_cons.1 hc with rfl | hc
  · decide
  · rw [List.eq_of_mem_replicate hc]
    decide

/-- Line breaks are printed as they stand. -/
theorem escapeText_lineBreak (depth : Nat) : escapeText (lineBreak depth) = lineBreak depth :=
  Html.escapeText_of_isPlain (isPlain_lineBreak depth)

theorem compactAll_append (raw : Bool) (ns ms : List Node) :
    Node.compactAll raw (ns ++ ms) = Node.compactAll raw ns ++ Node.compactAll raw ms := by
  induction ns with
  | nil => rfl
  | cons n ns ih => rw [List.cons_append, Node.compactAll, ih, Node.compactAll, List.append_assoc]

theorem breakEach_cons (depth : Nat) (n : Node) (ns : List Node) :
    breakEach depth (n :: ns) = .text (lineBreak depth) :: n :: breakEach depth ns := rfl

theorem breakEach_append (depth : Nat) (ns ms : List Node) :
    breakEach depth (ns ++ ms) = breakEach depth ns ++ breakEach depth ms :=
  List.flatMap_append

theorem compactAll_breakEach_singleton (depth : Nat) (n : Node) :
    Node.compactAll false (breakEach depth [n]) = lineBreak depth ++ n.compact false := by
  have hbroken : breakEach depth [n] = [.text (lineBreak depth), n] := rfl
  rw [hbroken, Node.compactAll, Node.compactAll, Node.compactAll, Node.compact,
    if_neg Bool.false_ne_true, escapeText_lineBreak, List.append_nil]

/-- The texts of an element on several lines are escaped. -/
theorem isRawText_of_block {tag : Text} (h : keepsOneLine tag ns = false) :
    isRawText tag = false := by
  rw [keepsOneLine, Bool.or_eq_false_iff] at h
  exact h.2

mutual

/-- The lines of a node are what it prints on one line when line breaks are laid out in it. -/
theorem broken_prettyLines (depth : Nat) : ∀ n : Node,
    Text.broken (n.prettyLines depth) =
      Node.compactAll false (breakEach depth (n.laid? depth).toList)
  | .text value => by
      rw [Node.prettyLines, Node.laid?]
      split
      · rfl
      · rw [Option.toList_some, compactAll_breakEach_singleton, Node.compact,
          if_neg Bool.false_ne_true]
        simp [Text.broken, lineBreak]
  | .comment value => by
      rw [Node.prettyLines, Node.laid?, Option.toList_some, compactAll_breakEach_singleton,
        Node.compact]
      simp [Text.broken, lineBreak]
  | .element tag attributes children => by
      rw [Node.prettyLines, Node.laid?]
      by_cases hvoid : isVoid tag = true
      · rw [if_pos hvoid, if_pos (by simp [hvoid]), Option.toList_some,
          compactAll_breakEach_singleton, Node.compact, if_pos hvoid]
        simp [Text.broken, lineBreak]
      rw [if_neg hvoid]
      by_cases hline : keepsOneLine tag children = true
      · rw [if_pos hline, if_pos (by simp [hline]), Option.toList_some,
          compactAll_breakEach_singleton]
        simp [Text.broken, lineBreak]
      · have hraw := isRawText_of_block (Bool.eq_false_iff.2 hline)
        rw [if_neg hline, if_neg (by simp [hvoid, hline]), Option.toList_some,
          compactAll_breakEach_singleton, Node.compact, if_neg hvoid, hraw, compactAll_append,
          ← broken_prettyLinesAll (depth + 1) children]
        have hescape : escapeText ('\n' :: indentation depth) = '\n' :: indentation depth :=
          escapeText_lineBreak depth
        simp [Text.broken, lineBreak, Node.compactAll, Node.compact, hescape]

theorem broken_prettyLinesAll (depth : Nat) : ∀ ns : List Node,
    Text.broken (Node.prettyLinesAll depth ns) =
      Node.compactAll false (breakEach depth (Node.laidAll depth ns))
  | [] => rfl
  | n :: ns => by
      rw [Node.prettyLinesAll, Text.broken_append, broken_prettyLines depth n,
        broken_prettyLinesAll depth ns, Node.laidAll, breakEach_append, compactAll_append]

end

/-- Joined texts are printed as those that have been joined. -/
theorem compactAll_fuse (ns : List Node) :
    Node.compactAll false (fuse ns) = Node.compactAll false ns := by
  induction ns with
  | nil => rfl
  | cons n ns ih =>
      cases n with
      | comment | element =>
          rw [fuse, Node.compactAll, ih, Node.compactAll]
          simp
      | text value =>
          rw [fuse, Node.compactAll, ← ih]
          cases fuse ns with
          | nil => rfl
          | cons m ms =>
              cases m with
              | comment | element => rfl
              | text next =>
                  simp [joinText, Node.compactAll, Node.compact, Html.escapeText_append]

/-- The page is its laid out nodes on one line. -/
theorem toHtml_laidOut (ns : List Node) : toHtml (laidOut ns) = prettyPrint ns := by
  rw [toHtml, laidOut, compactAll_fuse, prettyPrint, Text.intercalate_eq_tail, broken_prettyLinesAll]
  cases hnodes : Node.laidAll 0 ns with
  | nil => rfl
  | cons n ms =>
      have hbroken : breakEach 0 (n :: ms) = .text ['\n'] :: n :: breakEach 0 ms := rfl
      rw [hbroken]
      rfl

/-! ## Lines of joined texts -/

theorem isAllBlank_trim (value : Text) : Text.isAllBlank (Text.trim value) = Text.isAllBlank value := by
  obtain ⟨a, b, hvalue, ha, hb⟩ := Text.exists_eq_append_trim value
  conv_rhs => rw [hvalue]
  rw [Text.isAllBlank, Text.isAllBlank, List.all_append, List.all_append]
  rw [Text.isAllBlank] at ha hb
  rw [ha, hb, Bool.true_and, Bool.and_true]

theorem prettyLinesAll_append (depth : Nat) (ns ms : List Node) :
    Node.prettyLinesAll depth (ns ++ ms) =
      Node.prettyLinesAll depth ns ++ Node.prettyLinesAll depth ms := by
  induction ns with
  | nil => rfl
  | cons n ns ih =>
      rw [List.cons_append, Node.prettyLinesAll, ih, Node.prettyLinesAll, List.append_assoc]

theorem isAllBlank_lineBreak (depth : Nat) : Text.isAllBlank (lineBreak depth) = true := by
  have hspaces : ∀ c ∈ indentation depth, Unicode.isBlank c = true := by
    intro c hc
    rw [List.eq_of_mem_replicate hc]
    decide
  rw [lineBreak, Text.isAllBlank, List.all_cons, List.all_eq_true.2 hspaces]
  decide

/-- A blank text has no line. -/
theorem prettyLines_blank (depth : Nat) (h : Text.isAllBlank value = true) :
    (Node.text value).prettyLines depth = [] := by
  rw [Node.prettyLines, if_pos h]

/-- Line breaks between nodes are not shown. -/
theorem prettyLinesAll_breakEach (depth level : Nat) (ns : List Node) :
    Node.prettyLinesAll depth (breakEach level ns) = Node.prettyLinesAll depth ns := by
  induction ns with
  | nil => rfl
  | cons n ns ih =>
      rw [breakEach_cons, Node.prettyLinesAll, Node.prettyLinesAll, Node.prettyLinesAll, ih,
        prettyLines_blank depth (isAllBlank_lineBreak level)]
      rfl

open Unicode (isBlank)

/-- A text that begins with no blank. -/
def IsSolidAhead (s : Text) : Prop := ∀ c, s.head? = some c → isBlank c = false

theorem trim_cons_break {s : Text} (h : IsSolidAhead s) : Text.trim ('\n' :: s) = Text.trimEnd s := by
  have hstart : Text.trimStart ('\n' :: s) = s := by
    have hbreak : isBlank '\n' = true := by decide
    rw [Text.trimStart, List.dropWhile_cons_of_pos hbreak]
    cases s with
    | nil => rfl
    | cons c s => rw [List.dropWhile_cons_of_neg (by simp [h c rfl])]
  rw [Text.trim, hstart]

theorem trimEnd_ne_nil {s : Text} (h : IsSolidAhead s) (hne : s ≠ []) : Text.trimEnd s ≠ [] := by
  obtain ⟨c, s, rfl⟩ := List.exists_cons_of_ne_nil hne
  have hc := h c rfl
  rw [Text.trimEnd_eq, Ne, List.reverse_eq_nil_iff, Text.trimStart, List.dropWhile_eq_nil_iff]
  simp [hc]

/-- The line of a text behind a line break. -/
theorem prettyLines_break {s : Text} (h : IsSolidAhead s) :
    (Node.text ('\n' :: s)).prettyLines 0 = if s = [] then [] else [escapeText (Text.trimEnd s)] := by
  rw [Node.prettyLines, trim_cons_break h]
  by_cases hne : s = []
  · subst hne
    rfl
  · obtain ⟨c, s, rfl⟩ := List.exists_cons_of_ne_nil hne
    have hc := h c rfl
    rw [if_neg hne, if_neg (by simp [Text.isAllBlank, hc])]
    rfl

/-- A text that stands on lines of its own. -/
structure IsTrimmed (s : Text) : Prop where
  nonempty : s ≠ []
  ahead : IsSolidAhead s
  trimEnd : Text.trimEnd s = s

/-- A text that has been trimmed, and is not blank, is trimmed. -/
theorem isTrimmed_trim (h : Text.isAllBlank value = false) : IsTrimmed (Text.trim value) where
  nonempty := by
    intro hnil
    have hblank := isAllBlank_trim value
    rw [hnil, h] at hblank
    cases hblank
  ahead := fun c hc => Text.head?_trim_of_some hc
  trimEnd := by
    rcases List.eq_nil_or_concat (Text.trim value) with hnil | ⟨s, c, hconcat⟩
    · rw [hnil]
      rfl
    · have hlast : isBlank c = false := Text.getLast?_trim_of_some (s := value) (by simp [hconcat])
      rw [hconcat, List.concat_eq_append]
      exact Text.dropWhileEnd_concat_of_neg hlast s

theorem IsSolidAhead.append {s : Text} (h : IsSolidAhead s) (hne : s ≠ []) (t : Text) :
    IsSolidAhead (s ++ t) := by
  obtain ⟨c, s, rfl⟩ := List.exists_cons_of_ne_nil hne
  exact h

/-- A trimmed text is printed as it stands. -/
theorem IsTrimmed.prettyLines {s : Text} (h : IsTrimmed s) :
    (Node.text s).prettyLines 0 = [escapeText s] := by
  obtain ⟨c, t, rfl⟩ := List.exists_cons_of_ne_nil h.nonempty
  have hc := h.ahead c rfl
  have hstart : Text.trimStart (c :: t) = c :: t := List.dropWhile_cons_of_neg (by simp [hc])
  rw [Node.prettyLines, if_neg (by simp [Text.isAllBlank, hc]), Text.trim, hstart, h.trimEnd]
  rfl

/-- A line in front of others is a line of its own. -/
theorem broken_prettyLines_behind {s t : Text} (hs : IsTrimmed s) (ht : IsSolidAhead t) :
    Text.broken ((Node.text ('\n' :: (s ++ '\n' :: t))).prettyLines 0) =
      Text.broken ((Node.text s).prettyLines 0) ++
        Text.broken ((Node.text ('\n' :: t)).prettyLines 0) := by
  rw [prettyLines_break (hs.ahead.append hs.nonempty _), hs.prettyLines, prettyLines_break ht,
    if_neg (by simp), Text.trimEnd_append]
  have hline : Text.trimEnd ('\n' :: t) = if Text.trimEnd t = [] then [] else '\n' :: Text.trimEnd t :=
    Text.trimEnd_append ['\n'] t
  by_cases hne : t = []
  · subst hne
    have hnone : Text.trimEnd ['\n'] = [] := by decide
    rw [if_pos hnone, hs.trimEnd, if_pos rfl]
    simp [Text.broken]
  · have hrest := trimEnd_ne_nil ht hne
    rw [hline, if_neg hrest, if_neg (by simp), if_neg hne]
    simp [Text.broken, escapeText, escapeTextChar]

/-- The nodes of lines: every text is trimmed. -/
def AreTrimmed (ns : List Node) : Prop := ∀ value, .text value ∈ ns → IsTrimmed value

theorem joinText_of_not_isText (hn : n.isText = false) (value : Text) (ns : List Node) :
    joinText value (fuse (n :: ns)) = .text value :: n :: fuse ns := by
  cases n with
  | text => cases hn
  | comment | element => rfl

/-- Joined texts are shown as the lines that they have been joined from. -/
theorem fuse_breakEach (h : AreTrimmed ns) (hne : ns ≠ []) :
    ∃ s ms, fuse (breakEach 0 ns) = .text ('\n' :: s) :: ms ∧ IsSolidAhead s ∧
      Text.broken (Node.prettyLinesAll 0 (fuse (breakEach 0 ns))) =
        Text.broken (Node.prettyLinesAll 0 ns) := by
  -- A text joins with the line break behind it, so the induction carries the text that is joined so far.
  induction ns with
  | nil => exact absurd rfl hne
  | cons n ns ih =>
      have hbroken : fuse (breakEach 0 (n :: ns)) = joinText ['\n'] (fuse (n :: breakEach 0 ns)) := rfl
      have hrest := ih fun value hmem => h value (List.mem_cons_of_mem _ hmem)
      cases hn : n.isText with
      | false =>
          have hbehind : Text.broken (Node.prettyLinesAll 0 (fuse (breakEach 0 ns))) =
              Text.broken (Node.prettyLinesAll 0 ns) := by
            by_cases hns : ns = []
            · subst hns
              rfl
            · obtain ⟨s, ms, -, -, hsame⟩ := hrest hns
              exact hsame
          rw [joinText_of_not_isText hn] at hbroken
          refine ⟨[], n :: fuse (breakEach 0 ns), hbroken, by simp [IsSolidAhead], ?_⟩
          have hblank : (Node.text ['\n']).prettyLines 0 = [] := prettyLines_blank 0 (by decide)
          rw [hbroken, Node.prettyLinesAll, hblank, List.nil_append, Node.prettyLinesAll,
            Text.broken_append, hbehind, Node.prettyLinesAll, Text.broken_append]
      | true =>
          cases n with
          | comment | element => cases hn
          | text value =>
              have hvalue := h value (List.mem_cons_self ..)
              by_cases hns : ns = []
              · subst hns
                refine ⟨value, [], hbroken, hvalue.ahead, ?_⟩
                have hline : (Node.text ('\n' :: value)).prettyLines 0 =
                    (Node.text value).prettyLines 0 := by
                  rw [prettyLines_break hvalue.ahead, if_neg hvalue.nonempty, hvalue.trimEnd,
                    hvalue.prettyLines]
                have hjoined : fuse (breakEach 0 [.text value]) = [.text ('\n' :: value)] := rfl
                rw [hjoined, Node.prettyLinesAll, hline, Node.prettyLinesAll, Node.prettyLinesAll,
                  Node.prettyLinesAll]
              · obtain ⟨s, ms, hfuse, hs, hsame⟩ := hrest hns
                have hjoined : fuse (breakEach 0 (.text value :: ns)) =
                    .text ('\n' :: (value ++ '\n' :: s)) :: ms := by
                  rw [hbroken, fuse, hfuse]
                  rfl
                refine ⟨value ++ '\n' :: s, ms, hjoined,
                  hvalue.ahead.append hvalue.nonempty _, ?_⟩
                rw [hfuse, Node.prettyLinesAll, Text.broken_append] at hsame
                rw [hjoined, Node.prettyLinesAll, Text.broken_append,
                  broken_prettyLines_behind hvalue hs, List.append_assoc, hsame,
                  Node.prettyLinesAll, Text.broken_append]

/-- A line break in front is not shown. -/
theorem prettyLinesAll_joinText_break (ns : List Node) :
    Node.prettyLinesAll 0 (joinText ['\n'] ns) = Node.prettyLinesAll 0 ns := by
  have hblank : (Node.text ['\n']).prettyLines 0 = [] := prettyLines_blank 0 (by decide)
  cases ns with
  | nil => rfl
  | cons n ns =>
      cases n with
      | comment | element =>
          rw [joinText, Node.prettyLinesAll, hblank, List.nil_append]
          simp
      | text value =>
          have hline : (Node.text ('\n' :: value)).prettyLines 0 = (Node.text value).prettyLines 0 := by
            have hbreak : isBlank '\n' = true := by decide
            have htrim : Text.trim ('\n' :: value) = Text.trim value := by
              rw [Text.trim, Text.trimStart, List.dropWhile_cons_of_pos hbreak]
              rfl
            rw [Node.prettyLines, Node.prettyLines, htrim, Text.isAllBlank, List.all_cons, hbreak]
            rfl
          have hjoined : joinText ['\n'] (.text value :: ns) = .text ('\n' :: value) :: ns := rfl
          rw [hjoined, Node.prettyLinesAll, hline, Node.prettyLinesAll]

/-- Nodes of lines are printed alike with the line breaks between them joined to their texts. -/
theorem prettyPrint_fuse (h : AreTrimmed ns) :
    prettyPrint (fuse (breakEach 0 ns).tail) = prettyPrint ns := by
  cases ns with
  | nil => rfl
  | cons n ns =>
      obtain ⟨-, -, -, -, hsame⟩ := fuse_breakEach h (by simp)
      have hbroken : fuse (breakEach 0 (n :: ns)) =
          joinText ['\n'] (fuse (breakEach 0 (n :: ns)).tail) := rfl
      rw [hbroken, prettyLinesAll_joinText_break] at hsame
      rw [prettyPrint, prettyPrint, Text.intercalate_eq_tail, Text.intercalate_eq_tail, hsame]

end Viewloom.Markup
