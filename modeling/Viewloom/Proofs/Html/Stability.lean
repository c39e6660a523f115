import Viewloom.Proofs.Html.Documents
import Viewloom.Proofs.Html.Layout

/-!
# Printing what has been read

A printed page is read as itself, but for the texts that the printer escapes and the parser reads as they
stand: each time such a page is read and printed, they become longer.
-/

namespace Viewloom

/-! ## Texts that become longer -/

/-- A text becomes longer under a condition, and otherwise stays the same. -/
structure Lengthens (s t : Text) (p : Prop) : Prop where
  same : ¬ p → t = s
  longer : p → s.length < t.length

namespace Lengthens

variable {s t u s' t' : Text} {p q : Prop}

theorem refl (h : ¬ p) (s : Text) : Lengthens s s p := ⟨fun _ => rfl, fun hp => absurd hp h⟩

theorem of_iff (h : Lengthens s t p) (hiff : q ↔ p) : Lengthens s t q :=
  ⟨fun hq => h.same fun hp => hq (hiff.2 hp), fun hq => h.longer (hiff.1 hq)⟩

theorem length_le (h : Lengthens s t p) : s.length ≤ t.length := by
  by_cases hp : p
  · exact (h.longer hp).le
  · rw [h.same hp]

/-- Texts become longer if one of their parts does. -/
theorem append (h : Lengthens s t p) (h' : Lengthens s' t' q) :
    Lengthens (s ++ s') (t ++ t') (p ∨ q) where
  same hnone := by
    rw [not_or] at hnone
    rw [h.same hnone.1, h'.same hnone.2]
  longer hsome := by
    have hle := h.length_le
    have hle' := h'.length_le
    rw [List.length_append, List.length_append]
    rcases hsome with hp | hq
    · have := h.longer hp
      omega
    · have := h'.longer hq
      omega

/-- Texts become longer if they do in one of two steps. -/
theorem trans (h : Lengthens s t p) (h' : Lengthens t u q) : Lengthens s u (p ∨ q) where
  same hnone := by
    rw [not_or] at hnone
    rw [h'.same hnone.2, h.same hnone.1]
  longer hsome := by
    have hle := h.length_le
    have hle' := h'.length_le
    rcases hsome with hp | hq
    · exact (h.longer hp).trans_le hle'
    · exact hle.trans_lt (h'.longer hq)

/-- Texts become longer between others. -/
theorem around (h : Lengthens s t p) (a b : Text) : Lengthens (a ++ s ++ b) (a ++ t ++ b) p where
  same hnone := by rw [h.same hnone]
  longer hp := by
    have := h.longer hp
    simp only [List.length_append]
    omega

end Lengthens

namespace Html

open Markup (Node escapeText escapeTextChar)

variable {n : Node} {ns : List Node} {tag value s : Text} {attributes : List Attribute} {depth : Nat}

theorem length_escapeTextChar (h : isPlain c = false) : 1 < (escapeTextChar c).length := by
  simp only [isPlain, Bool.not_eq_false', Bool.or_eq_true, beq_iff_eq] at h
  rcases h with (rfl | rfl) | rfl <;> decide

/-- A text becomes longer if one of its signs is escaped. -/
theorem lengthens_escapeText (s : Text) :
    Lengthens s (escapeText s) (∃ c ∈ s, isPlain c = false) := by
  induction s with
  | nil => exact .refl (by simp) []
  | cons c s ih =>
      have hcons : escapeText (c :: s) = escapeTextChar c ++ escapeText s := rfl
      have hchar : Lengthens [c] (escapeTextChar c) (isPlain c = false) := by
        refine ⟨fun hplain => ?_, fun hplain => length_escapeTextChar hplain⟩
        exact escapeTextChar_of_isPlain (by simpa using hplain)
      rw [hcons]
      exact (hchar.append ih).of_iff (by simp)

/-- A reference holds a sign that is escaped itself. -/
theorem exists_not_isPlain_escapeText :
    (∃ c ∈ escapeText s, isPlain c = false) ↔ ∃ c ∈ s, isPlain c = false := by
  constructor
  · intro ⟨c, hmem, hc⟩
    by_contra hnone
    have hself := (lengthens_escapeText s).same hnone
    rw [hself] at hmem
    exact hnone ⟨c, hmem, hc⟩
  · rintro ⟨c, hmem, hc⟩
    refine ⟨'&', List.mem_flatMap.2 ⟨c, hmem, ?_⟩, by decide⟩
    simp only [isPlain, Bool.not_eq_false', Bool.or_eq_true, beq_iff_eq] at hc
    rcases hc with (rfl | rfl) | rfl <;> decide

/-! ## What becomes longer -/

/-- Whether a node is a text that is printed with references. -/
def needsEscape : Node → Bool
  | .text value => value.any fun c => !isPlain c
  | _ => false

mutual

/-- Whether a text that is printed with references stands where the parser does not know any. -/
def holdsEscaped : Node → Bool
  | .element tag _ children =>
    !Markup.isVoid tag &&
      (Markup.escapedTags.contains tag && children.any needsEscape || holdsEscapedAny children)
  | _ => false

def holdsEscapedAny : List Node → Bool
  | [] => false
  | n :: ns => holdsEscaped n || holdsEscapedAny ns

end

mutual

/-- Whether no element of a node on one line begins with a line break that the parser drops. -/
def keepsLine : Node → Bool
  | .element tag _ children =>
    (!Markup.breakTags.contains tag || dropBreakAll children == children) && keepsLineAll children
  | _ => true

def keepsLineAll : List Node → Bool
  | [] => true
  | n :: ns => keepsLine n && keepsLineAll ns

end

mutual

/-- Whether the parser drops no line break of a printed node that is shown. -/
def keepsBreaks (depth : Nat) : Node → Bool
  | .element tag attributes children =>
    if Markup.isVoid tag || Markup.keepsOneLine tag children then
      keepsLine (.element tag attributes children)
    else
      (!Markup.breakTags.contains tag || depth != 0 ||
        !(Node.laidAll (depth + 1) children).isEmpty) && keepsBreaksAll (depth + 1) children
  | _ => true

def keepsBreaksAll (depth : Nat) : List Node → Bool
  | [] => true
  | n :: ns => keepsBreaks depth n && keepsBreaksAll depth ns

end

/-! ## Nodes on one line -/

theorem needsEscape_reread (n : Node) : needsEscape (reread n) = needsEscape n := by cases n <;> rfl

theorem any_needsEscape_rereadAll (ns : List Node) :
    (rereadAll ns).any needsEscape = ns.any needsEscape := by
  induction ns with
  | nil => rfl
  | cons n ns ih => rw [rereadAll, List.any_cons, List.any_cons, needsEscape_reread, ih]

/-- A text that is escaped once more becomes longer if it has a sign to be escaped. -/
theorem lengthens_escapeNode (n : Node) :
    Lengthens (n.compact false) ((escapeNode n).compact false) (needsEscape n = true) := by
  cases n with
  | comment | element => exact .refl (by simp [needsEscape]) _
  | text value =>
      refine (lengthens_escapeText (escapeText value)).of_iff ?_
      rw [exists_not_isPlain_escapeText]
      simp [needsEscape]

theorem lengthens_map_escapeNode (ns : List Node) :
    Lengthens (Node.compactAll false ns) (Node.compactAll false (ns.map escapeNode))
      (ns.any needsEscape = true) := by
  induction ns with
  | nil => exact .refl (by simp) _
  | cons n ns ih => exact ((lengthens_escapeNode n).append ih).of_iff (by simp)

theorem dropBreakAll_rereadAll (h : dropBreakAll ns = ns) :
    dropBreakAll (rereadAll ns) = rereadAll ns := by
  cases ns with
  | nil => rfl
  | cons n ns =>
      cases n with
      | comment | element => rfl
      | text value =>
          have hkept : Markup.textNodes (dropBreak value) ++ ns = [.text value] ++ ns := h
          have hself := List.append_cancel_right hkept
          have hread : rereadAll (.text value :: ns) = .text value :: rereadAll ns := rfl
          rw [hread, dropBreakAll, hself]
          rfl

/-- The texts that the parser reads as they stand are escaped by the printer. -/
theorem isRawText_of_escapedTags (h : Markup.escapedTags.contains tag = true) :
    Markup.isRawText tag = false := by
  have hall : ∀ tag ∈ Markup.escapedTags, Markup.isRawText tag = false := by decide
  exact hall tag (List.contains_iff_mem.1 h)

mutual

/-- A node that is read again is printed as before, or longer. -/
theorem lengthens_compact (raw : Bool) : ∀ {n : Node}, keepsLine n = true →
    Lengthens (n.compact raw) ((reread n).compact raw) (holdsEscaped n = true)
  | .text _, _ => .refl (by simp [holdsEscaped]) _
  | .comment _, _ => .refl (by simp [holdsEscaped]) _
  | .element tag attributes children, hkeeps => by
      rw [keepsLine, Bool.and_eq_true, Bool.or_eq_true, Bool.not_eq_true', beq_iff_eq] at hkeeps
      rw [reread, Node.compact, Node.compact]
      by_cases hvoid : Markup.isVoid tag = true
      · rw [if_pos hvoid, if_pos hvoid]
        exact .refl (by simp [holdsEscaped, hvoid]) _
      rw [if_neg hvoid, if_neg hvoid]
      have hchildren := lengthens_compactAll (Markup.isRawText tag) hkeeps.2
      have hcontent : Lengthens (Node.compactAll (Markup.isRawText tag) children)
          (Node.compactAll (Markup.isRawText tag) (readContent tag (rereadAll children)))
          ((Markup.escapedTags.contains tag && children.any needsEscape ||
            holdsEscapedAny children) = true) := by
        rw [readContent]
        by_cases hescaped : Markup.escapedTags.contains tag = true
        · rw [isRawText_of_escapedTags hescaped] at hchildren ⊢
          rw [if_pos hescaped]
          refine (hchildren.trans (lengthens_map_escapeNode _)).of_iff ?_
          rw [any_needsEscape_rereadAll, hescaped, Bool.true_and, Bool.or_eq_true, or_comm]
        · have hread : (if Markup.breakTags.contains tag then dropBreakAll (rereadAll children)
              else rereadAll children) = rereadAll children := by
            split
            · next hbreak =>
              refine dropBreakAll_rereadAll (hkeeps.1.resolve_left ?_)
              rw [hbreak]
              exact Bool.noConfusion
            · rfl
          rw [if_neg hescaped, hread]
          refine hchildren.of_iff ?_
          rw [Bool.eq_false_iff.2 hescaped, Bool.false_and, Bool.false_or]
      exact (hcontent.around _ _).of_iff (by simp [holdsEscaped, hvoid])

/-- Nodes on one line become longer if a text that is escaped stands where no references are known.
-/
theorem lengthens_compactAll (raw : Bool) : ∀ {ns : List Node}, keepsLineAll ns = true →
    Lengthens (Node.compactAll raw ns) (Node.compactAll raw (rereadAll ns))
      (holdsEscapedAny ns = true)
  | [], _ => .refl (by simp [holdsEscapedAny]) _
  | n :: ns, hkeeps => by
      rw [keepsLineAll, Bool.and_eq_true] at hkeeps
      exact ((lengthens_compact raw hkeeps.1).append (lengthens_compactAll raw hkeeps.2)).of_iff
        (by simp [holdsEscapedAny])

end

/-! ## Nodes on lines of their own -/

theorem rereadAll_append (ns ms : List Node) :
    rereadAll (ns ++ ms) = rereadAll ns ++ rereadAll ms := by
  induction ns with
  | nil => rfl
  | cons n ns ih => rw [List.cons_append, rereadAll, ih, rereadAll, List.cons_append]

/-- Line breaks between nodes are read as line breaks. -/
theorem rereadAll_breakEach (depth : Nat) (ns : List Node) :
    rereadAll (Markup.breakEach depth ns) = Markup.breakEach depth (rereadAll ns) := by
  induction ns with
  | nil => rfl
  | cons n ns ih =>
      rw [Markup.breakEach_cons, rereadAll, rereadAll, ih]
      rfl

/-- An escaped text is blank exactly if the text is. -/
theorem isAllBlank_escapeText (value : Text) :
    Text.isAllBlank (escapeText value) = Text.isAllBlank value := by
  induction value with
  | nil => rfl
  | cons c value ih =>
      have hcons : escapeText (c :: value) = escapeTextChar c ++ escapeText value := rfl
      have hchar : (escapeTextChar c).all Unicode.isBlank = Unicode.isBlank c := by
        cases hplain : isPlain c with
        | true => rw [escapeTextChar_of_isPlain hplain, List.all_cons, List.all_nil, Bool.and_true]
        | false =>
            simp only [isPlain, Bool.not_eq_false', Bool.or_eq_true, beq_iff_eq] at hplain
            rcases hplain with (rfl | rfl) | rfl <;> decide
      rw [hcons, Text.isAllBlank, List.all_append, hchar, Text.isAllBlank, List.all_cons]
      exact congrArg (Unicode.isBlank c && ·) ih

theorem isVisibleText_escapeNode (n : Node) : (escapeNode n).isVisibleText = n.isVisibleText := by
  cases n with
  | comment | element => rfl
  | text value => rw [escapeNode, Node.isVisibleText, Node.isVisibleText, isAllBlank_escapeText]

/-- What is read again is visible if it has been. -/
theorem isVisibleText_reread (n : Node) : (reread n).isVisibleText = n.isVisibleText := by
  cases n <;> rfl

theorem any_isVisibleText_rereadAll (ns : List Node) :
    (rereadAll ns).any Node.isVisibleText = ns.any Node.isVisibleText := by
  induction ns with
  | nil => rfl
  | cons n ns ih => rw [rereadAll, List.any_cons, List.any_cons, isVisibleText_reread, ih]

theorem isEmpty_rereadAll (ns : List Node) : (rereadAll ns).isEmpty = ns.isEmpty := by
  cases ns <;> rfl

/-- An element on one line stays on one line. -/
theorem keepsOneLine_readContent {children : List Node}
    (h : keepsLine (.element tag attributes children) = true) :
    Markup.keepsOneLine tag (readContent tag (rereadAll children)) =
      Markup.keepsOneLine tag children := by
  rw [keepsLine, Bool.and_eq_true, Bool.or_eq_true, Bool.not_eq_true', beq_iff_eq] at h
  have hsame : Markup.keepsOneLine tag (rereadAll children) = Markup.keepsOneLine tag children := by
    rw [Markup.keepsOneLine, Markup.keepsOneLine, any_isVisibleText_rereadAll, isEmpty_rereadAll]
  rw [readContent]
  split
  · rw [← hsame, Markup.keepsOneLine, Markup.keepsOneLine, List.isEmpty_map, List.any_map]
    have hvisible : Node.isVisibleText ∘ escapeNode = Node.isVisibleText :=
      funext isVisibleText_escapeNode
    rw [hvisible]
  · split
    · next hbreak =>
      rw [dropBreakAll_rereadAll (h.1.resolve_left (by rw [hbreak]; exact Bool.noConfusion)), hsame]
    · exact hsame

/-- Only visible texts are changed by escaping. -/
theorem escapeNode_eq_self (h : n.isVisibleText = false) : escapeNode n = n := by
  cases n with
  | comment | element => rfl
  | text value =>
      rw [Node.isVisibleText, Bool.not_eq_false'] at h
      rw [escapeNode, escapeText_of_isPlain]
      intro c hc
      have hblank := List.all_eq_true.1 h c hc
      rw [isPlain, Bool.not_eq_true', Bool.or_eq_false_iff, Bool.or_eq_false_iff]
      refine ⟨⟨?_, ?_⟩, ?_⟩ <;>
        · rw [beq_eq_false_iff_ne]
          rintro rfl
          exact absurd hblank (by decide)

theorem any_isVisibleText_breakEach (depth : Nat) (h : ns.any Node.isVisibleText = false) :
    (Markup.breakEach depth ns).any Node.isVisibleText = false := by
  rw [List.any_eq_false] at h ⊢
  intro n hn
  rw [Markup.breakEach, List.mem_flatMap] at hn
  obtain ⟨m, hm, hn⟩ := hn
  rcases List.mem_cons.1 hn with rfl | hn
  · simp [Node.isVisibleText, Markup.isAllBlank_lineBreak]
  · rw [List.mem_singleton.1 hn]
    exact h m hm

theorem isAllBlank_indentation (depth : Nat) :
    Text.isAllBlank (Markup.indentation depth) = true := by
  have hblank := Markup.isAllBlank_lineBreak depth
  rw [Markup.lineBreak, Text.isAllBlank, List.all_cons, Bool.and_eq_true] at hblank
  exact hblank.2

theorem dropBreakAll_lineBreak (hdepth : depth ≠ 0) (ns : List Node) :
    dropBreakAll (.text (Markup.lineBreak depth) :: ns) = .text (Markup.indentation depth) :: ns := by
  have hne : Markup.indentation depth ≠ [] := by
    rw [Markup.indentation, Ne, List.replicate_eq_nil_iff]
    omega
  rw [dropBreakAll, Markup.lineBreak, dropBreak, Markup.textNodes, if_neg hne]
  rfl

/-- Nodes that stand on several lines within an element. -/
structure AreLinesOf (depth : Nat) (ns whole : List Node) : Prop where
  isEmpty : whole.isEmpty = false
  visible : whole.any Node.isVisibleText = false
  lines : Node.prettyLinesAll depth whole = Node.prettyLinesAll depth ns

/-- Nodes without visible texts take lines of their own. -/
theorem areLinesOf_breakEach (hvisible : ns.any Node.isVisibleText = false) (depth level : Nat) :
    AreLinesOf depth ns
      (Markup.breakEach depth ns ++ [.text (Markup.lineBreak level)]) where
  isEmpty := by simp
  visible := by
    rw [List.any_append, any_isVisibleText_breakEach depth hvisible]
    simp [Node.isVisibleText, Markup.isAllBlank_lineBreak]
  lines := by
    rw [Markup.prettyLinesAll_append, Markup.prettyLinesAll_breakEach, Node.prettyLinesAll,
      Markup.prettyLines_blank depth (Markup.isAllBlank_lineBreak level)]
    exact List.append_nil _

/-- On several lines only a line break in front of a blank is dropped. -/
theorem areLinesOf_readContent (hvisible : ns.any Node.isVisibleText = false)
    (hbreak : Markup.breakTags.contains tag = true → depth ≠ 0 ∨ ns ≠ []) :
    AreLinesOf (depth + 1) ns (readContent tag
      (Markup.breakEach (depth + 1) ns ++ [.text (Markup.lineBreak depth)])) := by
  have hwhole := areLinesOf_breakEach hvisible (depth + 1) depth
  rw [readContent]
  split
  · have hself : ∀ n ∈ Markup.breakEach (depth + 1) ns ++ [.text (Markup.lineBreak depth)],
        escapeNode n = id n := fun n hn =>
      escapeNode_eq_self (by simpa using List.any_eq_false.1 hwhole.visible n hn)
    rw [List.map_congr_left hself, List.map_id]
    exact hwhole
  · split
    · next htag =>
      obtain ⟨level, rest, hfirst, hlevel⟩ : ∃ level rest,
          Markup.breakEach (depth + 1) ns ++ [.text (Markup.lineBreak depth)] =
            .text (Markup.lineBreak level) :: rest ∧ level ≠ 0 := by
        cases ns with
        | nil => exact ⟨depth, [], rfl, (hbreak htag).resolve_right fun h => h rfl⟩
        | cons n ns => exact ⟨depth + 1, _, rfl, Nat.succ_ne_zero depth⟩
      rw [hfirst] at hwhole ⊢
      rw [dropBreakAll_lineBreak hlevel]
      have hblank := isAllBlank_indentation level
      have hvisible' := hwhole.visible
      have hlines := hwhole.lines
      rw [List.any_cons, Bool.or_eq_false_iff] at hvisible'
      rw [Node.prettyLinesAll, Markup.prettyLines_blank _ (Markup.isAllBlank_lineBreak level)]
        at hlines
      exact {
        isEmpty := rfl
        visible := by
          rw [List.any_cons, hvisible'.2, Node.isVisibleText, hblank]
          rfl
        lines := by
          rw [Node.prettyLinesAll, Markup.prettyLines_blank _ hblank]
          exact hlines }
    · exact hwhole

/-- An element on several lines has its tags on lines of their own. -/
theorem prettyLines_block {children : List Node} (hvoid : Markup.isVoid tag = false)
    (hline : Markup.keepsOneLine tag children = false) (attributes : List Attribute) :
    (Node.element tag attributes children).prettyLines depth =
      (Markup.indentation depth ++ Markup.openTag tag attributes) ::
        (Node.prettyLinesAll (depth + 1) children ++
          [Markup.indentation depth ++ Markup.closeTag tag]) := by
  rw [Node.prettyLines, hvoid, hline]
  rfl

theorem broken_block (a b : Text) (lines : List Text) :
    Text.broken (a :: (lines ++ [b])) = ('\n' :: a) ++ Text.broken lines ++ ('\n' :: b) := by
  simp [Text.broken]

theorem any_isVisibleText_of_block {children : List Node}
    (h : Markup.keepsOneLine tag children = false) : children.any Node.isVisibleText = false := by
  rw [Markup.keepsOneLine, Bool.or_eq_false_iff, Bool.or_eq_false_iff] at h
  exact h.1.2

theorem any_isVisibleText_laidAll (h : ns.any Node.isVisibleText = false) (depth : Nat) :
    (Node.laidAll depth ns).any Node.isVisibleText = false := by
  induction ns with
  | nil => rfl
  | cons n ns ih =>
      rw [List.any_cons, Bool.or_eq_false_iff] at h
      rw [Node.laidAll, List.any_append, ih h.2, Bool.or_false]
      cases n with
      | comment value => rfl
      | text value =>
          rw [Node.isVisibleText, Bool.not_eq_false'] at h
          rw [Node.laid?, if_pos h.1]
          rfl
      | element tag attributes children =>
          rw [Node.laid?]
          split <;> rfl

/-- Where no text is visible, none is escaped. -/
theorem any_needsEscape_of_blank (h : ns.any Node.isVisibleText = false) :
    ns.any needsEscape = false := by
  rw [List.any_eq_false] at h ⊢
  intro n hn hneeds
  have hself := escapeNode_eq_self (by simpa using h n hn)
  exact ((lengthens_escapeNode n).longer hneeds).ne (by rw [hself])

theorem rereadAll_broken (depth level : Nat) (ns : List Node) :
    rereadAll (Markup.breakEach depth ns ++ [.text (Markup.lineBreak level)]) =
      Markup.breakEach depth (rereadAll ns) ++ [.text (Markup.lineBreak level)] := by
  rw [rereadAll_append, rereadAll_breakEach]
  rfl

/-- An element on several lines that is read again stands on the lines of its children between its tags. -/
theorem lengthens_block {children : List Node} {p : Prop} (hvoid : Markup.isVoid tag = false)
    (hblock : Markup.keepsOneLine tag children = false)
    (hkept : (!Markup.breakTags.contains tag || depth != 0 ||
      !(Node.laidAll (depth + 1) children).isEmpty) = true)
    (hinner : Lengthens (Text.broken (Node.prettyLinesAll (depth + 1) children))
      (Text.broken (Node.prettyLinesAll (depth + 1)
        (rereadAll (Node.laidAll (depth + 1) children)))) p)
    (attributes : List Attribute) :
    Lengthens (Text.broken ((Node.element tag attributes children).prettyLines depth))
      (Text.broken ((Node.element tag attributes (readContent tag
        (rereadAll (Markup.breakEach (depth + 1) (Node.laidAll (depth + 1) children) ++
          [.text (Markup.lineBreak depth)])))).prettyLines depth)) p := by
  have hvisible : (rereadAll (Node.laidAll (depth + 1) children)).any Node.isVisibleText = false := by
    rw [any_isVisibleText_rereadAll]
    exact any_isVisibleText_laidAll (any_isVisibleText_of_block hblock) (depth + 1)
  have hbreak : Markup.breakTags.contains tag = true →
      depth ≠ 0 ∨ rereadAll (Node.laidAll (depth + 1) children) ≠ [] := by
    intro htag
    rw [htag, Bool.not_true, Bool.false_or, Bool.or_eq_true, bne_iff_ne, ← isEmpty_rereadAll] at hkept
    exact hkept.imp_right fun hsome hnil => by simp [hnil] at hsome
  have hwhole := areLinesOf_readContent hvisible hbreak
  have hblock' : Markup.keepsOneLine tag (readContent tag
      (Markup.breakEach (depth + 1) (rereadAll (Node.laidAll (depth + 1) children)) ++
        [.text (Markup.lineBreak depth)])) = false := by
    rw [Markup.keepsOneLine, hwhole.isEmpty, hwhole.visible, Markup.isRawText_of_block hblock]
    rfl
  rw [rereadAll_broken, prettyLines_block hvoid hblock, prettyLines_block hvoid hblock', hwhole.lines,
    broken_block, broken_block]
  exact hinner.around _ _

mutual

/-- A node on lines of its own that is read again is printed as before, or longer. -/
theorem lengthens_prettyLines (depth : Nat) : ∀ {n : Node}, keepsBreaks depth n = true →
    Lengthens (Text.broken (n.prettyLines depth))
      (Text.broken (Node.prettyLinesAll depth (rereadAll (n.laid? depth).toList)))
      (holdsEscaped n = true)
  | .text value, _ => by
      rw [Node.prettyLines, Node.laid?]
      split
      · exact .refl (by simp [holdsEscaped]) _
      · next hblank =>
        have hshown : Text.isAllBlank (Text.trim value) = false := by
          rw [Markup.isAllBlank_trim]
          exact Bool.eq_false_iff.2 hblank
        have hread : rereadAll (some (Node.text (Text.trim value))).toList =
            [.text (Text.trim value)] := rfl
        rw [hread, Node.prettyLinesAll, Node.prettyLines, hshown, if_neg Bool.false_ne_true,
          Text.trim_trim]
        exact .refl (by simp [holdsEscaped]) _
  | .comment value, _ => .refl (by simp [holdsEscaped]) _
  | .element tag attributes children, hkeeps => by
      rw [keepsBreaks] at hkeeps
      have hread : ∀ content, rereadAll (some (Node.element tag attributes content)).toList =
          [.element tag attributes (readContent tag (rereadAll content))] := fun _ => rfl
      have hlines : ∀ n, Node.prettyLinesAll depth [n] = n.prettyLines depth := fun n =>
        List.append_nil _
      rw [Node.laid?]
      by_cases hvoid : Markup.isVoid tag = true
      · rw [if_pos (by simp [hvoid]), hread, hlines, Node.prettyLines, Node.prettyLines,
          if_pos hvoid, if_pos hvoid]
        exact .refl (by simp [holdsEscaped, hvoid]) _
      by_cases hline : Markup.keepsOneLine tag children = true
      · rw [if_pos (by simp [hline])] at hkeeps ⊢
        rw [hread, hlines, Node.prettyLines, Node.prettyLines, if_neg hvoid, if_neg hvoid,
          keepsOneLine_readContent hkeeps, if_pos hline, if_pos hline]
        have hcompact := (lengthens_compact false hkeeps).around
          ('\n' :: Markup.indentation depth) []
        simpa [Text.broken, reread] using hcompact
      · have hblock := Bool.eq_false_iff.2 hline
        rw [if_neg (by simp [hvoid, hline]), Bool.and_eq_true] at hkeeps
        rw [if_neg (by simp [hvoid, hline]), hread, hlines]
        refine (lengthens_block (Bool.eq_false_iff.2 hvoid) hblock hkeeps.1
          (lengthens_prettyLinesAll (depth + 1) hkeeps.2) attributes).of_iff ?_
        rw [holdsEscaped, any_needsEscape_of_blank (any_isVisibleText_of_block hblock), Bool.and_false,
          Bool.false_or, Bool.eq_false_iff.2 hvoid, Bool.not_false, Bool.true_and]

/-- A page becomes longer if a text that is escaped stands where no references are known. -/
theorem lengthens_prettyLinesAll (depth : Nat) : ∀ {ns : List Node}, keepsBreaksAll depth ns = true →
    Lengthens (Text.broken (Node.prettyLinesAll depth ns))
      (Text.broken (Node.prettyLinesAll depth (rereadAll (Node.laidAll depth ns))))
      (holdsEscapedAny ns = true)
  | [], _ => .refl (by simp [holdsEscapedAny]) _
  | n :: ns, hkeeps => by
      rw [keepsBreaksAll, Bool.and_eq_true] at hkeeps
      rw [Node.laidAll, rereadAll_append, Markup.prettyLinesAll_append, Text.broken_append,
        Node.prettyLinesAll, Text.broken_append]
      exact ((lengthens_prettyLines depth hkeeps.1).append
        (lengthens_prettyLinesAll depth hkeeps.2)).of_iff (by simp [holdsEscapedAny])

end

/-! ## Pages -/

theorem rereadAll_joinText (value : Text) (ns : List Node) :
    rereadAll (Markup.joinText value ns) = Markup.joinText value (rereadAll ns) := by
  cases ns with
  | nil => rfl
  | cons n ns => cases n <;> rfl

theorem rereadAll_fuse (ns : List Node) : rereadAll (Markup.fuse ns) = Markup.fuse (rereadAll ns) := by
  induction ns with
  | nil => rfl
  | cons n ns ih =>
      cases n with
      | text value =>
          rw [Markup.fuse, rereadAll_joinText, ih]
          rfl
      | comment value =>
          rw [Markup.fuse, rereadAll, ih]
          · rfl
          · simp
      | element tag attributes children =>
          rw [Markup.fuse, rereadAll, ih]
          · rfl
          · simp

/-- The texts of a page that has been laid out are trimmed. -/
theorem areTrimmed_laidAll (depth : Nat) (ns : List Node) :
    Markup.AreTrimmed (rereadAll (Node.laidAll depth ns)) := by
  induction ns with
  | nil => simp [Markup.AreTrimmed, Node.laidAll, rereadAll]
  | cons n ns ih =>
      intro value hmem
      rw [Node.laidAll, rereadAll_append, List.mem_append] at hmem
      refine hmem.elim (fun hmem => ?_) (ih value)
      cases n with
      | comment value => simp [Node.laid?, rereadAll, reread] at hmem
      | element tag attributes children =>
          rw [Node.laid?] at hmem
          split at hmem <;> simp [rereadAll, reread] at hmem
      | text value' =>
          rw [Node.laid?] at hmem
          split at hmem
          · simp [rereadAll] at hmem
          · next hblank =>
            simp only [Option.toList_some, rereadAll, reread, List.mem_singleton,
              Node.text.injEq] at hmem
            rw [hmem]
            exact Markup.isTrimmed_trim (Bool.eq_false_iff.2 hblank)

/-- What is read of a printed page is printed line by line. -/
theorem prettyPrint_rereadAll (ns : List Node) :
    Markup.prettyPrint (rereadAll (Markup.laidOut ns)) =
      Markup.prettyPrint (rereadAll (Node.laidAll 0 ns)) := by
  have htail : ∀ ms : List Node, rereadAll ms.tail = (rereadAll ms).tail := by
    intro ms
    cases ms <;> rfl
  rw [Markup.laidOut, rereadAll_fuse, htail, rereadAll_breakEach,
    Markup.prettyPrint_fuse (areTrimmed_laidAll 0 ns)]

theorem prettyLinesAll_ne_nil (h : holdsEscapedAny ns = true) (depth : Nat) :
    Node.prettyLinesAll depth ns ≠ [] := by
  induction ns with
  | nil => cases h
  | cons n ns ih =>
      rw [holdsEscapedAny, Bool.or_eq_true] at h
      rw [Node.prettyLinesAll, Ne, List.append_eq_nil_iff, not_and_or]
      refine h.imp (fun h => ?_) ih
      cases n with
      | text | comment => cases h
      | element tag attributes children =>
          rw [Node.prettyLines]
          repeat' split
          all_goals simp

/-- A page that is printed in a way that the parser understands: its lines fit into a body and open
it. This leaves out pages that do not come back even in this sense, as those that begin with a comment,
a `style` or a `script` (the parser puts these before the body), hold a carriage return from a reference
(it becomes a line break) or a `plaintext` (nothing closes it). -/
structure IsLegible (ns : List Node) : Prop where
  fits : FitsAll bodyNames (Markup.laidOut ns)
  starts : (Markup.laidOut ns).head?.all startsBody = true
  normal : IsNormal (Markup.prettyPrint ns)

/-- A legible page is read again as the nodes it is laid out as, each read by itself. -/
theorem IsLegible.parseBody_eq (h : IsLegible ns) :
    parseBody (Markup.prettyPrint ns) = rereadAll (Markup.laidOut ns) := by
  rw [← Markup.toHtml_laidOut]
  refine parseBody_toHtml h.fits h.starts ?_
  rw [Markup.toHtml_laidOut]
  exact h.normal

/-- A legible page that loses no line break: the parser drops the one with which a `pre` or a `textarea`
begins, so where it is shown the next printing differs. -/
structure IsRereadable (ns : List Node) : Prop extends IsLegible ns where
  breaks : keepsBreaksAll 0 ns = true

/-- A page that has been read, printed and read again is printed as before, exactly if no text stands in
it whose signs the printer writes as references and the parser reads as they stand. -/
theorem prettyPrint_parseBody_iff (source : Text) (h : IsRereadable (parseBody source)) :
    parseBody (Markup.prettyPrint (parseBody source)) = rereadAll (Markup.laidOut (parseBody source)) ∧
      (Markup.prettyPrint (parseBody (Markup.prettyPrint (parseBody source))) =
          Markup.prettyPrint (parseBody source) ↔
        holdsEscapedAny (parseBody source) = false) := by
  refine ⟨h.parseBody_eq, ?_⟩
  rw [h.parseBody_eq, prettyPrint_rereadAll, Markup.prettyPrint, Markup.prettyPrint,
    Text.intercalate_eq_tail, Text.intercalate_eq_tail]
  have hlines := lengthens_prettyLinesAll 0 h.breaks
  constructor
  · intro heq
    rw [Bool.eq_false_iff]
    intro hholds
    have hlonger := hlines.longer hholds
    obtain ⟨line, lines, hcons⟩ := List.exists_cons_of_ne_nil (prettyLinesAll_ne_nil hholds 0)
    have hlength := congrArg List.length heq
    rw [List.length_tail, List.length_tail] at hlength
    rw [hcons] at hlonger hlength
    simp only [Text.broken, List.flatMap_cons, List.cons_append, List.length_cons] at hlonger hlength
    omega
  · intro hnone
    rw [hlines.same (by simp [hnone])]

/-- A page with an image that is shown where no scripts run. -/
def imageSource : Text := text "<div><noscript><img src=\"a.png\"></noscript></div>"

def imagePage : List Node :=
  [.element (text "div") []
    [.element (text "noscript") [] [.text (text "<img src=\"a.png\">")]]]

theorem parseBody_imageSource : parseBody imageSource = imagePage := by decide +kernel

theorem isRereadable_imagePage : IsRereadable imagePage where
  fits := by
    have hlaid : Markup.laidOut imagePage =
        [.element (text "div") []
          [.text (text "\n  "),
            .element (text "noscript") [] [.text (text "<img src=\"a.png\">")],
            .text (text "\n")]] := by decide +kernel
    have hdiv : IsStart bodyNames (text "div") [] :=
      ⟨.of_all (show text "div" = 'd' :: text "iv" by decide) (by decide) (by decide) (by decide),
        ⟨by simp, by simp, by simp⟩, rfl⟩
    have hnoscript : IsStart (Name.html (text "div") :: bodyNames) (text "noscript") [] :=
      ⟨.of_all (show text "noscript" = 'n' :: text "oscript" by decide) (by decide) (by decide)
        (by decide), ⟨by simp, by simp, by simp⟩, rfl⟩
    have hheld : IsHeld (.raw (text "noscript")) (text "noscript") (text "<img src=\"a.png\">") :=
      ⟨by decide, fun _ hraw => absurd hraw (by decide), fun hscript => by cases hscript⟩
    rw [hlaid]
    refine ⟨⟨hdiv, ⟨by decide, by decide, rfl⟩, by decide,
      ⟨hnoscript, _, rfl, hheld⟩, by decide, ⟨by decide, by decide, rfl⟩, by decide, trivial⟩,
      by decide, trivial⟩
  starts := by decide +kernel
  normal := .of_all (by decide +kernel) (by decide +kernel)
  breaks := by decide +kernel

/-- The image is escaped once more each time. -/
theorem prettyPrint_parseBody_imageSource :
    parseBody (Markup.prettyPrint imagePage) =
        [.element (text "div") []
          [.text (text "\n  "),
            .element (text "noscript") [] [.text (text "&lt;img src=\"a.png\"&gt;")],
            .text (text "\n")]] ∧
      Markup.prettyPrint (parseBody (Markup.prettyPrint imagePage)) ≠
        Markup.prettyPrint imagePage := by
  have hpage := prettyPrint_parseBody_iff imageSource
    (by rw [parseBody_imageSource]; exact isRereadable_imagePage)
  rw [parseBody_imageSource] at hpage
  have hholds : holdsEscapedAny imagePage = true := by decide +kernel
  refine ⟨hpage.1.trans (by decide +kernel), fun heq => ?_⟩
  rw [hpage.2.1 heq] at hholds
  cases hholds

end Html

end Viewloom
