import Viewloom.Proofs.Script.Modules

/-!
# Imports of a module

Each line that requires another module is read as one tree, and this tree is printed as such a line
again. So the printed form of a module begins with what the module requires.
-/

namespace Viewloom.Script

open Viewloom.Script.Parser Viewloom.Script.Tree

variable {name path code s x : Text}

/-! ## Trees of lines -/

/-- A text that is read as a statement at the top of a script gives a tree with a property. -/
def ReadsAs (P : Tree → Prop) (code : Text) : Prop :=
  ∀ rounds depth s x u, Source.rest s = code ++ x → EndsLine x → Source.ofText x = some u → Ended u →
    Suffices 2 rounds depth s.rest.length →
      Reads false (statement (grammarWithin rounds depth) Context.top) s fun t _ => P t

/-- What is read as one kind of tree is read as every wider kind. -/
theorem ReadsAs.imp {P P' : Tree → Prop} (h : ReadsAs P code) (hP : ∀ t, P t → P' t) :
    ReadsAs P' code :=
  fun rounds depth s x u hs hx hu hended hfit =>
    (h rounds depth s x u hs hx hu hended hfit).mono fun t _ ht => hP t ht

/-- The constant that a required module is given to. -/
def requiringTree (target : Tree) (path : Text) : Tree :=
  .node .variable (text "const") [inner .declarator [target, requireTree path]]

/-- The functions that every view requires, as a pattern. -/
def utilsPattern : Tree :=
  inner .objectPattern [leaf .shorthand (text "createScope"), leaf .shorthand (text "transformProxies")]

/-- The variable that has no controller yet. -/
def controllerTree : Tree :=
  .node .variable (text "let") [inner .declarator [leaf .identifier controllerName, hole]]

/-- The import of a class is read as a constant with the call that requires its module. -/
theorem readsAs_import (hname : IsClassName false name) (path : Text) :
    ReadsAs (· = requiringTree (leaf .identifier name) path) (Module.requireLine name path) := by
  intro rounds depth s x u hs hx hu hended hfit
  rw [requireLine_eq] at hs
  rcases hname with hname | ⟨-, hname⟩
  · exact reads_statement_const hname (expresses_require path) hs hx hu hended hfit
      fun _ ht => ht ▸ rfl
  · exact hname.reads_statement_const hfit.rounds_pos hs

/-- The import of the helpers is read as a constant with the call that requires their module. -/
theorem readsAs_utils (path : Text) :
    ReadsAs (· = requiringTree utilsPattern path) (Module.requireLine utilsNames path) := by
  intro rounds depth s x u hs hx hu hended hfit
  rw [requireLine_eq] at hs
  exact reads_statement_constNames (a := text "createScope") (b := text "transformProxies") (by decide)
    (by decide) (expresses_require path) hs hx hu hended hfit fun _ ht => ht ▸ rfl

/-- The line in front of the class is read as the declaration of the controller. -/
theorem readsAs_let : ReadsAs (· = controllerTree) letLine.code := by
  intro rounds depth s x u hs hx hu hended hfit
  exact reads_statement_let isVariable_controllerName hs hx hu hended hfit rfl

/-! ## Printed lines -/

/-- A statement as it stands in a printed program. -/
def printStatement (t : Tree) : Text := (t.fold layStatement).write .statement 0 ++ ['\n']

/-- A program is printed statement by statement. -/
theorem print_program (ts : List Tree) : (Tree.node .program [] ts).print = ts.flatMap printStatement := by
  have hall (ts : List Tree) : foldAll layStatement ts = ts.map (fold layStatement) := by
    induction ts with
    | nil => rfl
    | cons t ts ih => rw [foldAll, ih, List.map_cons]
  simp [print, fold, layStatement, Laid.solid, Laid.plain, hall, List.flatMap_map]
  rfl

/-- What binds tightly enough is laid out without brackets. -/
theorem Laid.above_of_le {least : Nat} {t : Laid} (h : least ≤ t.level) (depth : Nat) :
    t.above least depth = t.plain depth :=
  if_neg (Nat.not_lt.2 h)

/-- The call that requires a path is laid out with the path as a string. -/
theorem above_requireTree (path : Text) (depth : Nat) :
    ((requireTree path).fold layStatement).above Laid.itemLevel depth =
      text "require(" ++ writeString path ++ [')'] := by
  have hpath : Laid.listed [layStatement .string path []] depth = writeString path :=
    List.intercalate_singleton
  have hcall : ((requireTree path).fold layStatement).plain depth =
      text "require" ++ ([] ++ Laid.parenthesized (Laid.listed [layStatement .string path []] depth)) := rfl
  rw [Laid.above_of_le (show Laid.itemLevel ≤ Laid.callLevel by decide), hcall, hpath]
  rfl

/-- An import is printed on a line of its own. -/
theorem printStatement_requiringTree (target : Tree) (path : Text) :
    printStatement (requiringTree target path) =
      text "const " ++ (target.fold layStatement).plain 0 ++ text " = require(" ++ writeString path ++
        text ");\n" := by
  have hdeclared : Laid.listed [(inner .declarator [target, requireTree path]).fold layStatement] 0 =
      (target.fold layStatement).plain 0 ++
        (text " = " ++ ((requireTree path).fold layStatement).above Laid.itemLevel 0) :=
    List.intercalate_singleton
  have hprint : printStatement (requiringTree target path) = text "const" ++ ' ' ::
      Laid.listed [(inner .declarator [target, requireTree path]).fold layStatement] 0 ++ [';'] ++
        ['\n'] := rfl
  rw [hprint, hdeclared, above_requireTree]
  simp
  rfl

/-! ## Texts without escapes -/

/-- Whether a character stands for itself in strings. -/
def isVerbatim (d : Char) : Bool := isWordy d || d == '.' || d == '/'

section Verbatim

variable {d : Char} (hd : isVerbatim d = true)
include hd

theorem ne_of_isVerbatim {e : Char} (he : isVerbatim e = false) : d ≠ e := by
  rintro rfl
  rw [hd] at he
  cases he

theorem toNat_ne_of_isVerbatim {n : Nat} (hn : isVerbatim (Char.ofNat n) = false) : d.toNat ≠ n := by
  rintro rfl
  exact ne_of_isVerbatim hd hn (Char.ofNat_toNat d).symm

/-- A character that needs no escape is quoted as it is. -/
theorem quotedChar_of_isVerbatim : Template.quotedChar d = [d] := by
  rw [Template.quotedChar, if_neg (ne_of_isVerbatim hd (by decide)),
    if_neg (ne_of_isVerbatim hd (by decide)), if_neg (ne_of_isVerbatim hd (by decide)),
    if_neg (ne_of_isVerbatim hd (by decide)), if_neg (toNat_ne_of_isVerbatim hd (by decide +kernel)),
    if_neg (toNat_ne_of_isVerbatim hd (by decide +kernel))]

theorem escapeString_cons_of_isVerbatim (s : Text) : escapeString (d :: s) = d :: escapeString s := by
  have hnone : stringEscapes.lookup d.toNat = none := by
    rw [List.lookup_eq_none_iff]
    intro escape hmem
    have hall : stringEscapes.all (fun escape => !isVerbatim (Char.ofNat escape.1)) = true := by
      decide +kernel
    have hescape : isVerbatim (Char.ofNat escape.1) = false := by
      simpa using List.all_eq_true.1 hall escape hmem
    exact bne_iff_ne.2 (toNat_ne_of_isVerbatim hd hescape)
  rw [escapeString, if_neg (toNat_ne_of_isVerbatim hd (by decide +kernel)),
    if_neg fun h => ne_of_isVerbatim hd (by decide) h.1, hnone]
  rfl

end Verbatim

section VerbatimText

variable (hs : s.all isVerbatim = true)
include hs

/-- A text that needs no escape is quoted as it is. -/
theorem flatMap_quotedChar_of_isVerbatim : s.flatMap Template.quotedChar = s := by
  induction s with
  | nil => rfl
  | cons d s ih =>
      rw [List.all_cons, Bool.and_eq_true] at hs
      rw [List.flatMap_cons, quotedChar_of_isVerbatim hs.1, ih hs.2]
      rfl

/-- A text of such characters is quoted as it stands. -/
theorem quoted_of_isVerbatim : Template.quoted s = '\'' :: s ++ ['\''] := by
  rw [Template.quoted, flatMap_quotedChar_of_isVerbatim hs]

/-- A string that needs no escape is written between plain quotes. -/
theorem writeString_of_isVerbatim : writeString s = '"' :: s ++ ['"'] := by
  have hescaped : escapeString s = s := by
    induction s with
    | nil => rfl
    | cons d s ih =>
        rw [List.all_cons, Bool.and_eq_true] at hs
        rw [escapeString_cons_of_isVerbatim hs.1, ih hs.2]
  rw [writeString, hescaped]

/-- In quotes of either kind it is read as it stands. -/
theorem readString_of_isVerbatim {q : Char} (hq : q = '"' ∨ q = '\'') (x : Text) :
    readString (q :: s ++ q :: x) = some (s, x) := by
  have hquote : isVerbatim q = false ∧ q ≠ '\\' := by rcases hq with rfl | rfl <;> decide
  have hsource : readQuoted q (s ++ q :: x) = some (s, x) := by
    induction s with
    | nil => rcases hq with rfl | rfl <;> rfl
    | cons d s ih =>
        rw [List.all_cons, Bool.and_eq_true] at hs
        rw [List.cons_append, readQuoted_plain (ne_of_isVerbatim hs.1 (by decide))
          (ne_of_isVerbatim hs.1 hquote.1)
          ⟨ne_of_isVerbatim hs.1 (by decide), ne_of_isVerbatim hs.1 (by decide)⟩, ih hs.2]
        rfl
  have hvalue : unescape s = some s := by
    have hflat := unescapeWithin_flatMap (Nat.lt_succ_self s.length)
    rwa [flatMap_quotedChar_of_isVerbatim hs] at hflat
  rw [List.cons_append, readString, if_pos hq, hsource]
  simp [hvalue]

end VerbatimText

/-! ## The beginning of a printed module -/

/-- The lines of a module that are read alone, and their trees. -/
def headEntries (v : View) : List (Line × Tree) :=
  (importLine (text "React") (text "react") ['\n'],
      requiringTree (leaf .identifier (text "React")) (text "react")) ::
    (v.children.map fun child =>
      (importLine child.className (Module.sibling child.className) ['\n'],
        requiringTree (leaf .identifier child.className) (Module.sibling child.className))) ++
    [(importLine utilsNames (text "./utils") (text "\n\n"),
        requiringTree utilsPattern (text "./utils")), (letLine, controllerTree)]

/-- A line that requires a module, in its printed form. -/
def printedImport (name path : Text) : Text :=
  text "const " ++ name ++ text " = require(" ++ writeString path ++ text ");"

/-- The printed forms of these lines. -/
def printedHead (v : View) : List Text :=
  printedImport (text "React") (text "react") ::
    (v.children.map fun child => printedImport child.className (Module.sibling child.className)) ++
    [printedImport utilsNames (text "./utils"), text "let Controller;"]

/-- Every line of the head is a line of a module. -/
theorem isLine_headEntries {v : View}
    (hchildren : ∀ child ∈ v.children, IsClassName false child.className) :
    ∀ e ∈ headEntries v, IsLine false false e.1 := by
  simp only [headEntries, List.cons_append, List.forall_mem_cons, List.forall_mem_append,
    List.forall_mem_map, List.not_mem_nil, false_imp_iff, implies_true, and_true]
  exact ⟨isLine_import (.inl (by decide)) rfl rfl,
    fun child hchild => isLine_import (hchildren child hchild) rfl rfl, isLine_utils rfl rfl,
    isLine_letLine⟩

/-- Every line of the head is read as the tree beside it. -/
theorem readsAs_headEntries {v : View}
    (hchildren : ∀ child ∈ v.children, IsClassName false child.className) :
    ∀ e ∈ headEntries v, ReadsAs (· = e.2) e.1.code := by
  simp only [headEntries, List.cons_append, List.forall_mem_cons, List.forall_mem_append,
    List.forall_mem_map, List.not_mem_nil, false_imp_iff, implies_true, and_true]
  exact ⟨readsAs_import (.inl (by decide)) _,
    fun child hchild => readsAs_import (hchildren child hchild) _, readsAs_utils _, readsAs_let⟩

/-- The trees of these lines are printed as lines of their own. -/
theorem flatMap_printStatement_headEntries (v : View) :
    ((headEntries v).map Prod.snd).flatMap printStatement = Module.unlines (printedHead v) := by
  have himport (target : Tree) (path : Text) : printStatement (requiringTree target path) =
      printedImport ((target.fold layStatement).plain 0) path ++ ['\n'] := by
    have hend : text ");\n" = text ");" ++ ['\n'] := rfl
    rw [printStatement_requiringTree, printedImport, hend]
    simp only [List.append_assoc]
  simp only [headEntries, printedHead, Module.unlines, List.map_append, List.map_cons, List.map_map,
    List.flatMap_append, List.flatMap_cons, List.flatMap_map, Function.comp_apply, himport, List.map_nil]
  rfl

/-- A module is the lines of its head and what begins a statement. -/
theorem compose_eq_headEntries (v : View) (directory : Text) :
    ∃ rest, BeginsStatement rest ∧
      Module.compose v directory = Line.printAll ((headEntries v).map Prod.fst) ++ rest := by
  have hlines : (headEntries v).map Prod.fst = headLines v ++ [letLine] := by
    simp [headEntries, headLines]
  have hclass (x : Text) : BeginsStatement (text "class " ++ x) :=
    beginsStatement_of (w := text "class") (x := ' ' :: x) (List.cons_ne_nil _ _) rfl rfl rfl
  refine ⟨Line.printAll (bodyLines v.className (Module.controllerPath directory v) v.sockets
    (renderedBlock v) (renderedQuotes v.nodes)).tail, ?_, ?_⟩
  · rw [bodyLines, List.tail_cons, Line.printAll_cons, classText, List.append_assoc]
    exact hclass _
  · have happend (ls ls' : List Line) :
        Line.printAll (ls ++ ls') = Line.printAll ls ++ Line.printAll ls' := List.flatMap_append
    rw [hlines, compose_eq, bodyLines, List.tail_cons, ← List.singleton_append, happend, happend,
      List.append_assoc]

/-- The printed form of a module begins with the lines that require other modules. -/
theorem print_compose {v : View} {directory : Text} {t : Tree}
    (hchildren : ∀ child ∈ v.children, IsClassName false child.className)
    (hparse : parse (Module.compose v directory) = some t) :
    ∃ rest, t.print = Module.unlines (printedHead v) ++ rest := by
  obtain ⟨stop, hstop, hcompose⟩ := compose_eq_headEntries v directory
  have hbegins : BeginsStatement (Module.compose v directory) := by
    rw [hcompose, headEntries, List.cons_append, List.map_cons, Line.printAll_cons, List.append_assoc]
    exact (beginsStatement_requireLine _ _).append _
  obtain ⟨hhead, hsolid⟩ := beginning_of_statement hbegins
  obtain ⟨ts, rfl, found, more, rfl, hfound⟩ := exists_program_of_parse hhead hsolid
    (reads_moduleTree_before Prod.fst (fun e t => t = e.2) (isLine_headEntries hchildren)
      (fun e he => readsAs_headEntries hchildren e he) hstop hcompose) hparse
  obtain rfl : (headEntries v).map Prod.snd = found := by
    have hequal : List.Forall₂ (· = ·) ((headEntries v).map Prod.snd) found :=
      List.forall₂_map_left_iff.2 (hfound.imp fun _ _ => Eq.symm)
    rwa [List.forall₂_eq_eq_eq] at hequal
  refine ⟨more.flatMap printStatement, ?_⟩
  rw [print_program, List.flatMap_append, flatMap_printStatement_headEntries]

end Viewloom.Script
