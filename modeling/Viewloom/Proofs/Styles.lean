import Viewloom.Proofs.Tags
import Viewloom.Proofs.Trimming
import Viewloom.Template.Style

/-!
# Inline styles that are written again

The declarations of a style are cut apart at its semicolons. Written again and joined they are cut apart
at the same places, however quotes and parentheses stand in them, since only the last one can leave one
open.
-/

namespace Viewloom.Template

open Text (trim trim_trim filter_trim trim_eq_self_of_filter)
open Unicode (isBlank)

/-! ## Cutting -/

/-- The open quote and the number of open parentheses. -/
structure Nesting where
  quote : Option Char
  depth : Nat

namespace Nesting

/-- Outside of all quotes and parentheses. -/
def outer : Nesting := ⟨none, 0⟩

/-- The nesting behind a character. -/
def step (n : Nesting) (c : Char) : Nesting := ⟨quoteAfter n.quote c, depthAfter n.quote n.depth c⟩

/-- Whether a declaration ends with a character. -/
def ends (n : Nesting) (c : Char) : Bool := n.quote.isNone && c == ';' && n.depth == 0

/-- The nesting behind a text in which no declaration ends. -/
def through (n : Nesting) : Text → Option Nesting
  | [] => some n
  | c :: s => if n.ends c then none else (n.step c).through s

end Nesting

/-- The characters that decide where declarations end. -/
def isSign (c : Char) : Bool := c == '"' || c == '\'' || c == '(' || c == ')' || c == ';'

/-- Whether a declaration leaves nothing open. -/
def IsClosed (piece : Text) : Prop := Nesting.outer.through piece = some .outer

/-- Pieces none of which holds an end of a declaration, all but the last of them closed. -/
structure AreCut (pieces : List Text) : Prop where
  whole : ∀ piece ∈ pieces, (Nesting.outer.through piece).isSome = true
  closed : pieces.Pairwise fun piece _ => IsClosed piece

variable {n : Nesting} {s t : Text} {c : Char} {pieces : List Text}

theorem splitDeclarations_cons (h : n.ends c = false) :
    splitDeclarations n.quote n.depth (c :: s) =
      consFirst c (splitDeclarations (n.step c).quote (n.step c).depth s) := by
  rw [splitDeclarations, if_neg]
  · rfl
  · exact Bool.not_eq_true _ ▸ h

/-- At a semicolon outside of everything a declaration ends. -/
theorem splitDeclarations_ends (h : n.ends c = true) :
    splitDeclarations n.quote n.depth (c :: s) = [] :: splitDeclarations none 0 s := by
  rw [splitDeclarations, if_pos]
  exact h

/-- A text that no semicolon ends is one declaration. -/
theorem splitDeclarations_of_through (h : (n.through s).isSome = true) :
    splitDeclarations n.quote n.depth s = [s] := by
  induction s generalizing n with
  | nil => rfl
  | cons c s ih =>
      rw [Nesting.through] at h
      split at h
      · cases h
      · next hends => rw [splitDeclarations_cons (by simpa using hends), ih h, consFirst]

/-- A declaration ends at the first semicolon behind a text that closes what it opens. -/
theorem splitDeclarations_append (h : n.through s = some .outer) :
    splitDeclarations n.quote n.depth (s ++ ';' :: t) = s :: splitDeclarations none 0 t := by
  induction s generalizing n with
  | nil =>
      obtain rfl := Option.some.inj h
      rfl
  | cons c s ih =>
      rw [Nesting.through] at h
      split at h
      · cases h
      · next hends =>
        rw [List.cons_append, splitDeclarations_cons (by simpa using hends), ih h, consFirst]

/-- The first piece is read from where the scanner stands, the others from the outside. -/
theorem areCut_splitDeclarations (n : Nesting) (s : Text) :
    ∃ piece pieces, splitDeclarations n.quote n.depth s = piece :: pieces ∧ AreCut pieces ∧
      (n.through piece).isSome = true ∧ (pieces ≠ [] → n.through piece = some .outer) := by
  induction s generalizing n with
  | nil => exact ⟨[], [], rfl, ⟨by simp, .nil⟩, rfl, by simp⟩
  | cons c s ih =>
      cases hends : n.ends c with
      | true =>
          obtain ⟨piece, pieces, hsplit, hcut, hwhole, hclosed⟩ := ih .outer
          have houter : n = .outer := by
            obtain ⟨quote, depth⟩ := n
            simp only [Nesting.ends, Bool.and_eq_true, Option.isNone_iff_eq_none, beq_iff_eq] at hends
            simp [Nesting.outer, hends.1.1, hends.2]
          refine ⟨[], piece :: pieces, ?_, ⟨?_, ?_⟩, rfl, fun _ => by rw [houter]; rfl⟩
          · rw [splitDeclarations_ends hends]
            exact congrArg _ hsplit
          · exact List.forall_mem_cons.2 ⟨hwhole, hcut.whole⟩
          · exact List.pairwise_cons.2
              ⟨fun _ hmem => hclosed (List.ne_nil_of_mem hmem), hcut.closed⟩
      | false =>
          obtain ⟨piece, pieces, hsplit, hcut, hwhole, hclosed⟩ := ih (n.step c)
          have hthrough : n.through (c :: piece) = (n.step c).through piece := by
            simp [Nesting.through, hends]
          refine ⟨c :: piece, pieces, ?_, hcut, ?_, ?_⟩
          · rw [splitDeclarations_cons hends, hsplit, consFirst]
          · rwa [hthrough]
          · rwa [hthrough]

/-- The pieces of a style are cut at the semicolons outside of everything. -/
theorem areCut_pieces (s : Text) : AreCut (splitDeclarations none 0 s) := by
  obtain ⟨piece, pieces, hsplit, hcut, hwhole, hclosed⟩ := areCut_splitDeclarations .outer s
  have hpieces : splitDeclarations none 0 s = piece :: pieces := hsplit
  rw [hpieces]
  exact ⟨List.forall_mem_cons.2 ⟨hwhole, hcut.whole⟩,
    List.pairwise_cons.2 ⟨fun _ hmem => hclosed (List.ne_nil_of_mem hmem), hcut.closed⟩⟩

/-- Cut pieces that are joined are cut again at the same places. -/
theorem splitDeclarations_intercalate (h : AreCut pieces) (hne : pieces ≠ []) :
    splitDeclarations none 0 (List.intercalate [';'] pieces) = pieces := by
  induction pieces with
  | nil => exact absurd rfl hne
  | cons piece pieces ih =>
      obtain ⟨hwhole, hclosed⟩ := h
      rw [List.forall_mem_cons] at hwhole
      rw [List.pairwise_cons] at hclosed
      cases pieces with
      | nil =>
          rw [List.intercalate_singleton]
          exact splitDeclarations_of_through (n := .outer) hwhole.1
      | cons next pieces =>
          have hthis : IsClosed piece := hclosed.1 next (by simp)
          have hrest := ih ⟨hwhole.2, hclosed.2⟩ (by simp)
          rw [List.intercalate_cons_cons, List.append_assoc, List.singleton_append]
          exact (splitDeclarations_append (n := .outer) hthis).trans (congrArg _ hrest)

/-! ## Signs -/

/-- Only signs open quotes. -/
def Nesting.IsProper (n : Nesting) : Prop := ∀ q, n.quote = some q → isSign q = true

/-- A quote that is open behind a character is a sign. -/
theorem Nesting.IsProper.step (h : n.IsProper) (c : Char) : (n.step c).IsProper := by
  intro q hq
  obtain ⟨quote, depth⟩ := n
  simp only [Nesting.step, quoteAfter] at hq
  split at hq
  · next q' =>
    split at hq
    · cases hq
    · exact h q hq
  · split at hq
    · next hquote =>
      obtain rfl := Option.some.inj hq
      rcases hquote with rfl | rfl <;> rfl
    · cases hq

/-- Only signs change the nesting. -/
theorem step_of_not_isSign (hn : n.IsProper) (h : isSign c = false) : n.step c = n := by
  obtain ⟨quote, depth⟩ := n
  have hsign := h
  simp only [isSign, Bool.or_eq_false_iff, beq_eq_false_iff_ne] at hsign
  obtain ⟨⟨⟨⟨hdouble, hsingle⟩, hopen⟩, hclose⟩, -⟩ := hsign
  cases quote with
  | none => simp [Nesting.step, quoteAfter, depthAfter, hdouble, hsingle, hopen, hclose]
  | some q =>
      have hne : c ≠ q := by
        rintro rfl
        rw [hn c rfl] at h
        cases h
      simp [Nesting.step, quoteAfter, depthAfter, hne]

/-- Only the signs of a text decide where its declarations end. -/
theorem through_filter (hn : n.IsProper) (s : Text) : n.through (s.filter isSign) = n.through s := by
  induction s generalizing n with
  | nil => rfl
  | cons c s ih =>
      cases hsign : isSign c with
      | true =>
          rw [List.filter_cons_of_pos hsign, Nesting.through, Nesting.through, ih (hn.step c)]
      | false =>
          have hends : n.ends c = false := by
            simp only [isSign, Bool.or_eq_false_iff] at hsign
            simp [Nesting.ends, hsign.2]
          rw [List.filter_cons_of_neg (by simp [hsign]), ih hn, Nesting.through, hends,
            step_of_not_isSign hn hsign]
          rfl

/-- Texts with the same signs are nested alike. -/
theorem through_congr (h : s.filter isSign = t.filter isSign) :
    Nesting.outer.through s = Nesting.outer.through t := by
  have hproper : Nesting.outer.IsProper := by
    intro q hq
    cases hq
  rw [← through_filter hproper s, h, through_filter hproper]

/-! ## Declarations -/

/-- A declaration as it is written. -/
def Declaration.write (d : Declaration) : Text := d.property ++ ':' :: d.value

/-- A property that a declaration has been read with. -/
structure Declaration.IsRead (d : Declaration) : Prop where
  property_ne : d.property ≠ []
  value_ne : d.value ≠ []
  trim_property : trim d.property = d.property
  trim_value : trim d.value = d.value
  colon : ':' ∉ d.property

theorem isSign_of_isBlank (h : isBlank c = true) : isSign c = false := by
  simp only [isSign, Bool.or_eq_false_iff, beq_eq_false_iff_ne]
  refine ⟨⟨⟨⟨?_, ?_⟩, ?_⟩, ?_⟩, ?_⟩ <;>
    · rintro rfl
      exact absurd h (by decide)

theorem singleton_infix (h : c ∈ s) : [c] <:+: s := by
  obtain ⟨a, b, rfl⟩ := List.append_of_mem h
  exact ⟨a, b, by simp⟩

/-- A declaration that is read is one that can be, and its text has the signs of the source. -/
theorem readDeclaration_eq_some {d : Declaration} (h : readDeclaration s = some d) :
    d.IsRead ∧ d.write.filter isSign = s.filter isSign := by
  unfold readDeclaration at h
  split at h
  · cases h
  · next property value hsplit =>
    dsimp only at h
    split at h
    · cases h
    · next hne =>
      rw [not_or] at hne
      obtain rfl := Option.some.inj h
      obtain ⟨hs, hcolon⟩ := (Text.splitOnce_eq_some_iff (by simp)).1 hsplit
      refine ⟨⟨hne.1, hne.2, trim_trim _, trim_trim _, fun hmem => ?_⟩, ?_⟩
      · obtain ⟨a, b, hprop, -, -⟩ := Text.exists_eq_append_trim property
        have hin : ':' ∈ property := by
          rw [hprop]
          simp [hmem]
        exact hcolon (by simpa using singleton_infix hin)
      · have hfilter := fun s => filter_trim (q := isSign) (fun _ => isSign_of_isBlank) s
        rw [hs]
        simp [Declaration.write, List.filter_append, hfilter, isSign]

/-- A declaration that is written is read again with its ends trimmed, if both of its parts are
there. -/
theorem readDeclaration_write {d : Declaration} (hcolon : ':' ∉ d.property) :
    readDeclaration d.write =
      if trim d.property = [] ∨ trim d.value = [] then none
      else some ⟨trim d.property, trim d.value⟩ := by
  have hsplit : Text.splitOnce [':'] d.write = some (d.property, d.value) := by
    refine (Text.splitOnce_eq_some_iff (by simp)).2 ⟨by simp [Declaration.write], fun hin => ?_⟩
    have hin' : [':'] <:+: d.property := by simpa using hin
    exact hcolon (hin'.subset (List.mem_singleton_self _))
  rw [readDeclaration, hsplit]

/-- Every declaration of a style is one that can be read. -/
theorem mem_parseStyle {d : Declaration} (h : d ∈ parseStyle s) : d.IsRead := by
  obtain ⟨piece, -, hpiece⟩ := List.mem_filterMap.1 h
  exact (readDeclaration_eq_some hpiece).1

/-- Rewritten declarations that keep their signs are read one by one. -/
theorem parseStyle_join {f : Declaration → Declaration}
    (hf : ∀ d, (f d).write.filter isSign = d.write.filter isSign) (s : Text) :
    parseStyle (List.intercalate [';'] ((parseStyle s).map fun d => (f d).write)) =
      (parseStyle s).filterMap fun d => readDeclaration (f d).write := by
  have hmap : (parseStyle s).map (fun d => (f d).write) =
      (splitDeclarations none 0 s).filterMap fun piece =>
        (readDeclaration piece).map fun d => (f d).write := by
    rw [parseStyle, List.map_filterMap]
  have hsame : ∀ {piece written}, (readDeclaration piece).map (fun d => (f d).write) = some written →
      Nesting.outer.through written = Nesting.outer.through piece := by
    intro piece written h
    obtain ⟨d, hd, rfl⟩ := Option.map_eq_some_iff.1 h
    exact through_congr ((hf d).trans (readDeclaration_eq_some hd).2)
  obtain ⟨hwhole, hclosed⟩ := areCut_pieces s
  have hcut : AreCut ((parseStyle s).map fun d => (f d).write) := by
    rw [hmap]
    refine ⟨fun written hmem => ?_, hclosed.filterMap _ fun piece _ h written hw _ _ => ?_⟩
    · obtain ⟨piece, hpiece, hw⟩ := List.mem_filterMap.1 hmem
      rw [hsame hw]
      exact hwhole piece hpiece
    · exact (hsame hw).trans h
  cases hD : parseStyle s with
  | nil => rfl
  | cons d ds =>
      rw [← hD, parseStyle, splitDeclarations_intercalate hcut (by simp [hD]), List.filterMap_map]
      rfl

end Viewloom.Template
