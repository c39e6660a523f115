import Viewloom.Proofs.Script.Imports
import Viewloom.Site

/-!
# Required files

What a file requires is read from its text: each of the lines at its beginning requires one module, up
to the first line that requires none. The module of a view begins with the library, the modules of the
children and the shared module, whether it is printed anew or not.
-/

namespace Viewloom

namespace Text

theorem dropReturn_of_not_mem {line : Text} (h : '\r' ∉ line) : dropReturn line = line := by
  induction line with
  | nil => rfl
  | cons c line ih =>
      rw [List.mem_cons, not_or] at h
      rw [dropReturn, ih h.2]
      rintro rfl rfl
      exact h.1 rfl

/-- A line in front of a text is the first one of its lines. -/
theorem lines_append_cons {line : Text} (hbreak : '\n' ∉ line) (hreturn : '\r' ∉ line) (rest : Text) :
    lines (line ++ '\n' :: rest) = line :: lines rest := by
  have hline : ∀ c ∈ line, (c == '\n') = false := by
    intro c hc
    rw [beq_eq_false_iff_ne]
    rintro rfl
    exact hbreak hc
  obtain ⟨next, more, hrest⟩ := List.exists_cons_of_ne_nil (List.splitOnP_ne_nil (· == '\n') rest)
  rw [lines, lines, List.splitOnP_append_cons_of_forall_mem hline '\n' rfl, hrest, closeLines,
    dropReturn_of_not_mem hreturn]
  rintro ⟨⟩

end Text

namespace Module

open Script (isVerbatim isWordy printedImport)

variable {name path line rest : Text} {lines paths classes : List Text} {v : View}

/-! ## Reading requirements -/

/-- The module that a line requires, read from the string literal behind the first call. -/
def requiredOf? (line : Text) : Option Text :=
  (Text.splitOnce (text "require(") line).bind fun cut =>
    (Script.readString cut.2).map Prod.fst

/-- The modules that a file requires, line by line up to the first line that requires none. -/
def requiredInFront (file : Text) : List Text :=
  ((Text.lines file).takeWhile fun line => (requiredOf? line).isSome).filterMap requiredOf?

/-- A line that requires a module. -/
structure Requires (line path : Text) : Prop where
  newline : '\n' ∉ line
  carriageReturn : '\r' ∉ line
  required : requiredOf? line = some path

/-- A line that requires a module comes first among what is required in front. -/
theorem Requires.requiredInFront (h : Requires line path) (rest : Text) :
    requiredInFront (line ++ '\n' :: rest) = path :: requiredInFront rest := by
  rw [Module.requiredInFront, Text.lines_append_cons h.newline h.carriageReturn,
    List.takeWhile_cons_of_pos (by rw [h.required]; rfl), List.filterMap_cons_some h.required]
  rfl

/-- Lines that require modules are read in front of what stands behind them. -/
theorem requiredInFront_unlines (h : List.Forall₂ Requires lines paths) (rest : Text) :
    requiredInFront (unlines lines ++ rest) = paths ++ requiredInFront rest := by
  induction h with
  | nil => rfl
  | cons hline _ ih =>
      rw [unlines, List.flatMap_cons, ← unlines, List.append_assoc, List.append_assoc,
        List.singleton_append, hline.requiredInFront, ih, List.cons_append]

/-- A line that requires nothing ends the requirements. -/
theorem requiredInFront_of_none (hnewline : '\n' ∉ line) (hreturn : '\r' ∉ line)
    (h : requiredOf? line = none) (rest : Text) : requiredInFront (line ++ '\n' :: rest) = [] := by
  rw [requiredInFront, Text.lines_append_cons hnewline hreturn,
    List.takeWhile_cons_of_neg (by rw [h]; exact Bool.false_ne_true)]
  rfl

/-! ## Lines that require modules -/

/-- What stands in front of a call and does not end its line. -/
def IsBeforeCall (before : Text) : Prop := '(' ∉ before ∧ '\n' ∉ before ∧ '\r' ∉ before

instance (before : Text) : Decidable (IsBeforeCall before) := inferInstanceAs (Decidable (_ ∧ _))

/-- What may stand in front of a call may be written in two parts. -/
theorem IsBeforeCall.append {before before' : Text} (h : IsBeforeCall before)
    (h' : IsBeforeCall before') : IsBeforeCall (before ++ before') := by
  simp only [IsBeforeCall, List.mem_append, not_or] at h h' ⊢
  exact ⟨⟨h.1, h'.1⟩, ⟨h.2.1, h'.2.1⟩, h.2.2, h'.2.2⟩

theorem isBeforeCall_of_isWordy (h : name.all isWordy = true) : IsBeforeCall name := by
  have hnot {c : Char} (hc : isWordy c = false) : c ∉ name := fun hmem =>
    Script.ne_of_isWordy (List.all_eq_true.1 h c hmem) hc rfl
  exact ⟨hnot (by decide), hnot (by decide), hnot (by decide)⟩

/-- A call with a quoted path behind other text. -/
theorem requires_call {before after : Text} {q : Char} (hq : q = '"' ∨ q = '\'')
    (hbefore : IsBeforeCall before) (hpath : path.all isVerbatim = true)
    (hnewline : '\n' ∉ after) (hreturn : '\r' ∉ after) :
    Requires (before ++ text "require(" ++ (q :: path ++ q :: after)) path := by
  have hclean {c : Char} (hc : c ∉ before) (hcall : c ∉ text "require(") (hquote : c ≠ q)
      (hverbatim : isVerbatim c = false) (hafter : c ∉ after) :
      c ∉ before ++ text "require(" ++ (q :: path ++ q :: after) := by
    have hinside : c ∉ path := fun hmem =>
      Script.ne_of_isVerbatim (List.all_eq_true.1 hpath c hmem) hverbatim rfl
    simp only [List.mem_append, List.mem_cons, not_or]
    exact ⟨⟨hc, hcall⟩, ⟨hquote, hinside⟩, hquote, hafter⟩
  have hsplit : Text.splitOnce (text "require(") (before ++ text "require(" ++
      (q :: path ++ q :: after)) = some (before, q :: path ++ q :: after) := by
    refine (Text.splitOnce_eq_some_iff (by decide)).2 ⟨rfl, fun hinfix => ?_⟩
    have hmem := hinfix.subset (by decide : '(' ∈ text "require(")
    rcases List.mem_append.1 hmem with hmem | hmem
    · exact hbefore.1 hmem
    · exact absurd hmem (by decide)
  constructor
  case newline =>
    exact hclean hbefore.2.1 (by decide) (by rcases hq with rfl | rfl <;> decide) (by decide) hnewline
  case carriageReturn =>
    exact hclean hbefore.2.2 (by decide) (by rcases hq with rfl | rfl <;> decide) (by decide) hreturn
  case required =>
    rw [requiredOf?, hsplit, Option.bind_some, Script.readString_of_isVerbatim hpath hq _]
    rfl

/-- A line that gives a required module to a name. -/
theorem requires_requireLine (hname : IsBeforeCall name) (hpath : path.all isVerbatim = true) :
    Requires (requireLine name path) path := by
  have hline : requireLine name path = (text "const " ++ name ++ text " = ") ++ text "require(" ++
      ('\'' :: path ++ '\'' :: [')']) := by
    rw [requireLine, Script.quoted_of_isVerbatim hpath,
      show text " = require(" = text " = " ++ text "require(" from by decide]
    simp only [List.append_assoc, List.cons_append]
    rfl
  rw [hline]
  exact requires_call (.inr rfl) (((by decide : IsBeforeCall _).append hname).append (by decide)) hpath
    (by decide) (by decide)

/-- The same line printed anew. -/
theorem requires_printedImport (hname : IsBeforeCall name) (hpath : path.all isVerbatim = true) :
    Requires (printedImport name path) path := by
  have hline : printedImport name path = (text "const " ++ name ++ text " = ") ++ text "require(" ++
      ('"' :: path ++ '"' :: text ");") := by
    rw [printedImport, Script.writeString_of_isVerbatim hpath,
      show text " = require(" = text " = " ++ text "require(" from by decide]
    simp only [List.append_assoc, List.cons_append]
    rfl
  rw [hline]
  exact requires_call (.inl rfl) (((by decide : IsBeforeCall _).append hname).append (by decide)) hpath
    (by decide) (by decide)

/-! ## Modules of views -/

/-- What the module of a view requires by its first lines: the library, the modules of the children
and the shared module. -/
def importedBy (v : View) : List Text :=
  text "react" :: (v.children.map fun child => text "./" ++ child.className) ++ [text "./utils"]

/-- A module requires those of its children and the helpers as siblings, and no other ones. -/
theorem mem_importedBy_iff : text "./" ++ name ∈ importedBy v ↔
    (∃ child ∈ v.children, child.className = name) ∨ name = text "utils" := by
  have hlibrary : text "./" ++ name ≠ text "react" := by rintro ⟨⟩
  have hutils : text "./utils" = text "./" ++ text "utils" := rfl
  rw [importedBy, List.mem_append, List.mem_cons, List.mem_map, List.mem_singleton, hutils]
  simp only [hlibrary, false_or, List.append_right_inj]

theorem isVerbatim_sibling (h : name.all isWordy = true) : (text "./" ++ name).all isVerbatim = true := by
  rw [List.all_append, Bool.and_eq_true]
  exact ⟨by decide, List.all_eq_true.2 fun c hc =>
    Bool.or_eq_true_iff.2 (.inl (Bool.or_eq_true_iff.2 (.inl (List.all_eq_true.1 h c hc))))⟩

/-- One line for each of these modules, however such a line is written. -/
theorem forall₂_requires_importedBy {write : Text → Text → Text}
    (hwrite : ∀ {name path}, IsBeforeCall name → path.all isVerbatim = true →
      Requires (write name path) path)
    (hchildren : ∀ child ∈ v.children, child.className.all isWordy = true) :
    List.Forall₂ Requires (write (text "React") (text "react") ::
      (v.children.map fun child => write child.className (text "./" ++ child.className)) ++
        [write Script.utilsNames (text "./utils")]) (importedBy v) := by
  refine .cons (hwrite (by decide) (by decide)) (List.rel_append ?_ ?_)
  · rw [List.forall₂_map_left_iff, List.forall₂_map_right_iff, List.forall₂_same]
    exact fun child hchild =>
      hwrite (isBeforeCall_of_isWordy (hchildren child hchild)) (isVerbatim_sibling (hchildren child hchild))
  · exact .cons (hwrite (by decide) (by decide)) .nil

/-- Lines with breaks between them and one behind are written line by line. -/
theorem intercalate_append_newline (line : Text) (lines : List Text) :
    List.intercalate ['\n'] (line :: lines) ++ ['\n'] = unlines (line :: lines) := by
  rw [Text.intercalate_cons, List.append_assoc, Script.broken_concat]
  simp [unlines]

section Named

variable (hv : Script.IsNamed v)
include hv

/-- The classes of the children of a compiled view consist of letters, numerals and low lines. -/
theorem isWordy_children : ∀ child ∈ v.children, child.className.all isWordy = true := by
  intro child hchild
  obtain ⟨label, hlabel⟩ := hv.children child hchild
  exact (Script.exists_className hlabel).1

/-- The first lines of a composed module require what the view needs. -/
theorem requiredInFront_compose (directory : Text) :
    requiredInFront (compose v directory) = importedBy v := by
  obtain ⟨more, hmore⟩ : ∃ more, compose v directory =
      List.intercalate ['\n'] (importLines v) ++ ['\n'] ++ ([] ++ '\n' :: more) := by
    have hgap (before : Text) (lines : List Text) : before ++ unlines ([] :: [] :: lines) =
        before ++ ['\n'] ++ ([] ++ '\n' :: unlines lines) := by simp [unlines]
    exact ⟨_, hgap _ _⟩
  have hlines : List.Forall₂ Requires (importLines v) (importedBy v) :=
    forall₂_requires_importedBy requires_requireLine (isWordy_children hv)
  have hclosed : List.intercalate ['\n'] (importLines v) ++ ['\n'] = unlines (importLines v) :=
    intercalate_append_newline _ _
  rw [hmore, hclosed, requiredInFront_unlines hlines,
    requiredInFront_of_none List.not_mem_nil List.not_mem_nil rfl, List.append_nil]

/-- The first lines of a module that is printed anew require what the view needs. -/
theorem requiredInFront_format {view directory code : Text}
    (h : format view (compose v directory) = .ok code) : requiredInFront code = importedBy v := by
  have hclass : ∀ child ∈ v.children, Script.IsClassName false child.className := by
    intro child hchild
    obtain ⟨label, hlabel⟩ := hv.children child hchild
    exact Script.isClassName_of_label hlabel (by rintro ⟨⟩)
  unfold format treeOf at h
  cases hparse : Script.parse (compose v directory) with
  | none => simp [hparse] at h
  | some t =>
      simp only [hparse, Except.ok.injEq] at h
      obtain ⟨rest, hrest⟩ := Script.print_compose hclass hparse
      have hlines := forall₂_requires_importedBy requires_printedImport (isWordy_children hv)
      have hhead (heads : List Text) : unlines (heads ++ [text "let Controller;"]) ++ rest =
          unlines heads ++ (text "let Controller;" ++ '\n' :: rest) := by simp [unlines]
      have hsplit : Script.printedHead v = (printedImport (text "React") (text "react") ::
          (v.children.map fun child => printedImport child.className (text "./" ++ child.className)) ++
            [printedImport Script.utilsNames (text "./utils")]) ++ [text "let Controller;"] := by
        rw [Script.printedHead, List.append_assoc]
        rfl
      rw [← h, hrest, hsplit, hhead, requiredInFront_unlines hlines,
        requiredInFront_of_none (by decide) (by decide) (by decide), List.append_nil]

/-- In whichever form the module of a view is written, it requires the modules of the children. -/
theorem requiredInFront_renderModule {options : Options} {code : Text}
    (h : Site.renderModule options v = .ok code) : requiredInFront code = importedBy v := by
  unfold Site.renderModule at h
  simp only at h
  split at h
  · exact requiredInFront_format hv h
  · split at h
    · obtain rfl := Except.ok.inj h
      exact requiredInFront_compose hv _
    · cases h

end Named

/-! ## The index -/

/-- The index as it is written: one line for each class, which exports the module of this class. -/
theorem composeIndex_eq {vs : List View} (h : ∀ v ∈ vs, v.className.all isWordy = true) :
    composeIndex vs = (vs.map View.className).flatMap fun c =>
      text "exports." ++ c ++ text " = require('./" ++ c ++ text "')\n" := by
  rw [composeIndex, unlines, List.flatMap_map, List.flatMap_map]
  refine List.flatMap_congr fun v hv => ?_
  rw [indexLine, sibling, Script.quoted_of_isVerbatim (isVerbatim_sibling (h v hv)),
    show text " = require('./" = text " = require(" ++ text "'./" from by decide]
  simp only [List.append_assoc, List.cons_append]
  rfl

/-- The index requires the modules of its classes. -/
theorem requiredInFront_index (h : ∀ c ∈ classes, c.all isWordy = true) :
    requiredInFront (classes.flatMap fun c =>
      text "exports." ++ c ++ text " = require('./" ++ c ++ text "')\n") =
        classes.map fun c => text "./" ++ c := by
  have hlines : List.Forall₂ Requires
      (classes.map fun c => (text "exports." ++ c ++ text " = ") ++ text "require(" ++
        ('\'' :: (text "./" ++ c) ++ '\'' :: [')'])) (classes.map fun c => text "./" ++ c) := by
    rw [List.forall₂_map_left_iff, List.forall₂_map_right_iff, List.forall₂_same]
    intro c hc
    exact requires_call (.inr rfl)
      (((by decide : IsBeforeCall _).append (isBeforeCall_of_isWordy (h c hc))).append (by decide))
      (isVerbatim_sibling (h c hc)) (by decide) (by decide)
  have hindex : (classes.flatMap fun c =>
      text "exports." ++ c ++ text " = require('./" ++ c ++ text "')\n") =
        unlines (classes.map fun c => (text "exports." ++ c ++ text " = ") ++ text "require(" ++
          ('\'' :: (text "./" ++ c) ++ '\'' :: [')'])) ++ [] := by
    rw [unlines, List.flatMap_map, List.append_nil]
    refine List.flatMap_congr fun c _ => ?_
    rw [show text " = require('./" = text " = " ++ (text "require(" ++ '\'' :: text "./") from by decide]
    simp only [List.append_assoc, List.cons_append]
    rfl
  rw [hindex, requiredInFront_unlines hlines]
  exact List.append_nil _

/-- The helpers require the library only. -/
theorem requiredInFront_utils : requiredInFront utils = [text "react"] := by decide

end Module

end Viewloom
