import Viewloom.Module.Check
import Viewloom.Proofs.Script.Emitted

/-!
# Emitted modules

An emitted text is read line by line as a module, which requires what its lines require and quotes what
they quote.
-/

namespace Viewloom.Script

open Viewloom.Script.Parser Viewloom.Script.Tree
open Text (broken)

variable {must : Bool} {lines : List Line} {s : Text} {required : List Text} {items : List Item}

/-! ## Lines as a module -/

/-- A text that is a module which requires some others, or need not be one. -/
def IsScript (must : Bool) (s : Text) (required : List Text) : Prop :=
  match parse s with
  | some t => t.requires = required
  | none => must = false

/-- A script that must be read is read, with what it requires. -/
theorem IsScript.exists_parse (h : IsScript true s required) :
    ∃ t, parse s = some t ∧ t.requires = required := by
  unfold IsScript at h
  cases hs : parse s with
  | none => simp [hs] at h
  | some t => exact ⟨t, rfl, by simpa [hs] using h⟩

/-- A script that must be read passes the check of its module. -/
theorem IsScript.check_eq {view : Text} (h : IsScript true s required) :
    Module.check view s = .ok () := by
  obtain ⟨t, ht, -⟩ := h.exists_parse
  simp [Module.check, Module.treeOf, ht]

/-- A text that is a module of which some items are told, or need not be one. -/
def Tells (must : Bool) (s : Text) (items : List Item) : Prop :=
  match parse s with
  | some t => t.Needs items
  | none => must = false

/-- A text that tells its items is a script with the requirements among them. -/
theorem Tells.isScript (h : Tells must s items) : IsScript must s (items.flatMap Item.paths) := by
  unfold Tells at h
  unfold IsScript
  cases hs : parse s with
  | none => simpa [hs] using h
  | some t =>
      simp only [hs] at h
      exact h.requires

theorem interpreterLine_eq_nil (hs : s.head? ≠ some '#') : interpreterLine s = [] := by
  unfold interpreterLine
  split
  · exact absurd rfl hs
  · rfl

/-- A text that is read as plain parts with some items tells these items. -/
theorem tells_of_reads (hs : s.head? ≠ some '#') (hsolid : isSolid s = true)
    (h : Reads must (moduleTree (grammar s.length)) ⟨s, false, []⟩ fun t _ =>
      ∃ kind word parts, t = .node kind word parts ∧ isPlain kind = true ∧ AllNeed items parts) :
    Tells must s items := by
  unfold Tells
  simp only [parse, interpreterLine_eq_nil hs, List.length_nil, List.drop_zero,
    Source.ofText_of_isSolid hsolid]
  unfold Reads at h
  cases hread : moduleTree (grammar s.length) ⟨s, false, []⟩ with
  | none => simpa only [hread] using h
  | some found =>
      obtain ⟨t, v⟩ := found
      simp only [hread] at h
      obtain ⟨kind, word, parts, rfl, hkind, hparts⟩ := h
      have hneeds : (Tree.node kind [] parts).Needs items := needs_node hkind hparts
      simpa only [hneeds.complete, if_true] using hneeds

/-- A statement begins with no interpreter line and no gap. -/
theorem beginning_of_statement (h : BeginsStatement s) : s.head? ≠ some '#' ∧ isSolid s = true := by
  obtain ⟨w, x, rfl, -, hplain, -⟩ := h
  exact ⟨head_ne_of_isPlainName hplain (by decide), isSolid_of_isPlainName hplain⟩

/-- Lines begin with no interpreter line and no gap. -/
theorem beginning_of_lines (hlines : ∀ l ∈ lines, IsLine must false l) :
    (Line.printAll lines).head? ≠ some '#' ∧ isSolid (Line.printAll lines) = true := by
  cases lines with
  | nil => exact ⟨by rintro ⟨⟩, rfl⟩
  | cons l lines =>
      rw [Line.printAll_cons]
      exact beginning_of_statement ((hlines l (by simp)).begins.append _)

/-- Lines are read as a module with one statement for each of them. -/
theorem reads_moduleTree {α : Type} (line : α → Line) (P : α → Tree → Prop) {entries : List α}
    (hlines : ∀ a ∈ entries, IsLine must false (line a))
    (hP : ∀ a ∈ entries, ∀ rounds depth s x u, Source.rest s = (line a).code ++ x → EndsLine x →
      Source.ofText x = some u → Ended u → Suffices 2 rounds depth s.rest.length →
        Reads must (statement (grammarWithin rounds depth) Context.top) s fun t _ => P a t)
    (hs : s = Line.printAll (entries.map line)) :
    Reads must (moduleTree (grammar s.length)) ⟨s, false, []⟩ fun t _ =>
      ∃ ts, t = inner .program ts ∧ List.Forall₂ P entries ts := by
  have hfit : Suffices 3 (s.length + 2) (4 * s.length + 8) s.length := by
    constructor <;> omega
  have hrest : s = Line.printAll (entries.map line) ++ [] := by rw [hs, List.append_nil]
  simp only [moduleTree, Reads.bind_iff]
  apply (reads_lines_of line P hlines hP (by rintro ⟨⟩) (.inl rfl) hrest rfl hfit hfit.1).mono
  rintro ts v ⟨hts, hv⟩
  simp only [Reads.source_iff]
  apply Reads.require (by simp [hv])
  exact ⟨ts, rfl, hts⟩

/-- Lines in front of another statement are the first statements of any module they begin. -/
theorem reads_moduleTree_before {α : Type} (line : α → Line) (P : α → Tree → Prop)
    {entries : List α} {stop : Text} (hlines : ∀ a ∈ entries, IsLine false false (line a))
    (hP : ∀ a ∈ entries, ∀ rounds depth s x u, Source.rest s = (line a).code ++ x → EndsLine x →
      Source.ofText x = some u → Ended u → Suffices 2 rounds depth s.rest.length →
        Reads false (statement (grammarWithin rounds depth) Context.top) s fun t _ => P a t)
    (hstop : BeginsStatement stop) (hs : s = Line.printAll (entries.map line) ++ stop) :
    Reads false (moduleTree (grammar s.length)) ⟨s, false, []⟩ fun t _ =>
      ∃ ts, t = inner .program ts ∧ ∃ found more, ts = found ++ more ∧ List.Forall₂ P entries found := by
  have hfit : Suffices 3 (s.length + 2) (4 * s.length + 8) s.length := by
    constructor <;> omega
  simp only [moduleTree, Reads.bind_iff]
  apply (reads_lines_before line P hlines hP (by rintro ⟨⟩) (.inr hstop) hs rfl hfit hfit.1
    (Q := fun _ _ => True) fun _ _ _ _ _ _ => .of_forall fun _ _ => trivial).mono
  rintro ts v ⟨found, more, rfl, hfound, -⟩
  simp only [Reads.source_iff, Reads.require_iff]
  exact ⟨fun _ => ⟨_, rfl, found, more, rfl, hfound⟩, fun _ => trivial⟩

/-- What is known of the statements of a module is known of its tree. -/
theorem exists_program_of_parse {R : List Tree → Prop} {t : Tree} (hhead : s.head? ≠ some '#')
    (hsolid : isSolid s = true)
    (h : Reads must (moduleTree (grammar s.length)) ⟨s, false, []⟩ fun t _ =>
      ∃ ts, t = inner .program ts ∧ R ts)
    (hparse : parse s = some t) : ∃ ts, t = .node .program [] ts ∧ R ts := by
  simp only [parse, interpreterLine_eq_nil hhead, List.length_nil, List.drop_zero,
    Source.ofText_of_isSolid hsolid] at hparse
  unfold Reads at h
  cases hread : moduleTree (grammar s.length) ⟨s, false, []⟩ with
  | none => simp [hread] at hparse
  | some found =>
      obtain ⟨t', v⟩ := found
      simp only [hread] at h hparse
      obtain ⟨ts, rfl, hts⟩ := h
      simp only [Tree.inner] at hparse
      split at hparse
      · exact ⟨ts, (Option.some.inj hparse).symm, hts⟩
      · cases hparse

/-- Lines of a module tell the items of the lines. -/
theorem tells_lines (hlines : ∀ l ∈ lines, IsLine must false l) :
    Tells must (Line.printAll lines) (Line.itemsAll lines) := by
  obtain ⟨hhead, hsolid⟩ := beginning_of_lines hlines
  apply tells_of_reads hhead hsolid
  apply (reads_moduleTree id (fun l t => t.Needs l.items) hlines ?_
    (by rw [List.map_id])).mono
  · rintro t v ⟨ts, rfl, hts⟩
    exact ⟨_, _, _, rfl, rfl, allNeed_of_forall₂ hts⟩
  · intro l hl rounds depth s x u hs hx hu hended hfit
    exact reads_needs_of_isLine (hlines l hl) (by rintro ⟨⟩) hs hx hu hended hfit

/-! ## The module of a view -/

/-- The lines that require the modules of other views. -/
def headLines (v : View) : List Line :=
  importLine (text "React") (text "react") ['\n'] ::
    ((v.children.map fun child =>
      importLine child.className (Module.sibling child.className) ['\n']) ++
      [importLine utilsNames (text "./utils") (text "\n\n")])

/-- What a view renders, laid out in its module. -/
def renderedBlock (v : View) : Text := Module.indentBlock 6 (Module.expression v)

/-- What the module of a view requires: the modules of its children in order, between the library and
what all views share, and its controller. -/
def requirements (v : View) (directory : Text) : List Text :=
  text "react" :: ((v.children.map fun child => Module.sibling child.className) ++
    [text "./utils", Module.controllerPath directory v])

/-- What is told of the module of a view: what it requires, and then what it quotes. -/
def mentions (v : View) (directory : Text) : List Item :=
  (requirements v directory).map .required ++ renderedQuotes v.nodes

/-- The head of a module requires the library, the children and the helpers, in this order. -/
theorem itemsAll_headLines (v : View) : Line.itemsAll (headLines v) =
    (text "react" :: ((v.children.map fun child => Module.sibling child.className) ++
      [text "./utils"])).map .required := by
  have hchildren : Line.itemsAll (v.children.map fun child =>
      importLine child.className (Module.sibling child.className) ['\n']) =
        (v.children.map fun child => Module.sibling child.className).map .required := by
    rw [Line.itemsAll, List.flatMap_map, List.map_map]
    exact List.map_eq_flatMap.symm
  rw [Line.itemsAll] at hchildren
  rw [headLines, Line.itemsAll, List.flatMap_cons, List.flatMap_append, hchildren, List.map_cons,
    List.map_append]
  rfl

/-- Of what a module mentions, the paths are the requirements of its view. -/
theorem paths_mentions (v : View) (directory : Text) :
    (mentions v directory).flatMap Item.paths = requirements v directory := by
  rw [mentions, List.flatMap_append, renderedQuotes_eq, List.flatMap_map, List.flatMap_map]
  simp [Item.paths, List.flatMap_singleton']

/-- Of what a module mentions, the texts are the static values of its view. -/
theorem sources_mentions (v : View) (directory : Text) :
    (mentions v directory).flatMap Item.sources = (Template.Node.staticValues v.nodes).map fun value =>
      inQuotes (Markup.escapeAttribute (hang 6 value)) := by
  rw [mentions, List.flatMap_append, renderedQuotes_eq, List.flatMap_map, List.flatMap_map]
  simp [Item.sources, List.map_eq_flatMap]

theorem broken_concat (lines : List Text) :
    broken lines ++ ['\n'] = '\n' :: Module.unlines lines := by
  induction lines with
  | nil => rfl
  | cons line lines ih =>
      simp only [broken, Module.unlines, List.flatMap_cons, List.append_assoc] at ih ⊢
      rw [ih]
      simp

/-- The lines of the head are written one below the other, with an empty line behind them. -/
theorem printAll_headLines (v : View) :
    Line.printAll (headLines v) = List.intercalate ['\n'] (Module.importLines v) ++ text "\n\n" := by
  have hgap : text "\n\n" = ['\n'] ++ ['\n'] := rfl
  rw [Module.importLines, List.cons_append, Text.intercalate_cons, hgap, List.append_assoc,
    ← List.append_assoc (broken _), broken_concat]
  simp only [headLines, Line.printAll, Module.unlines, List.flatMap_append, List.flatMap_cons,
    List.flatMap_map, Line.print, importLine]
  simp
  rfl

set_option maxRecDepth 20000 in
/-- The class and its exports are written line by line. -/
theorem printAll_bodyLines (className path : Text) (sockets : List Text) (block : Text)
    (quotes : List Item) :
    Line.printAll (bodyLines className path sockets block quotes) = Module.unlines
      [text "let Controller", [],
        text "class " ++ className ++ text " extends React.Component \x7b",
        text "  static get Controller() \x7b",
        text "    if (Controller) return Controller", [],
        text "    try \x7b",
        text "      Controller = require(" ++ Template.quoted path ++ text ")",
        text "      Controller = Controller.default || Controller", [],
        text "      return Controller",
        text "    \x7d",
        text "    catch (e) \x7b",
        text "      if (e.code == 'MODULE_NOT_FOUND') \x7b",
        text "        Controller = " ++ className, [],
        text "        return Controller",
        text "      \x7d", [],
        text "      throw e",
        text "    \x7d",
        text "  \x7d", [],
        text "  render() \x7b",
        text "    const proxies = " ++ className ++ text ".Controller !== " ++ className ++
          text " ? transformProxies(this.props.children) : " ++ Module.defaultProxies sockets, [],
        text "    return (",
        block,
        text "    )",
        text "  \x7d",
        text "\x7d", [],
        text "module.exports = " ++ className] := by
  simp only [Line.printAll, bodyLines, classText, classLines, methodBody, braced, getterLines,
    renderLines, returnFound, returnController, attempt, requireLines, handlerLines, ownLines,
    setController, requireCall, binary, proxiesLine, Module.unlines, Line.print, List.flatMap_cons,
    List.flatMap_nil, List.append_nil, List.append_assoc, List.cons_append]
  rfl

/-- A module is the lines of its head and the lines of its class. -/
theorem compose_eq (v : View) (directory : Text) :
    Module.compose v directory = Line.printAll (headLines v) ++
      Line.printAll (bodyLines v.className (Module.controllerPath directory v) v.sockets
        (renderedBlock v) (renderedQuotes v.nodes)) := by
  have hgap (before : Text) (lines : List Text) : before ++ Module.unlines ([] :: [] :: lines) =
      (before ++ text "\n\n") ++ Module.unlines lines := by
    simp [Module.unlines]
    rfl
  rw [printAll_headLines, printAll_bodyLines]
  exact hgap _ _

/-- What the module of a view holds of the view as it stands may stand there: the tags and attributes
of its template and the keys of its styles, and if the text must be a module, also the class names. -/
structure WritesSoundly (must : Bool) (v : View) : Prop where
  openings : AllSound must (Template.Node.openingsAll v.nodes)
  className : must = true → isPlainName v.className = true
  children : must = true → ∀ child ∈ v.children, isPlainName child.className = true

instance (must : Bool) (v : View) : Decidable (WritesSoundly must v) :=
  decidable_of_iff (AllSound must (Template.Node.openingsAll v.nodes) ∧
      (must = true → isPlainName v.className = true) ∧
        (must = true → ∀ child ∈ v.children, isPlainName child.className = true))
    ⟨fun ⟨hopenings, hclass, hchildren⟩ => ⟨hopenings, hclass, hchildren⟩,
      fun h => ⟨h.openings, h.className, h.children⟩⟩

/-- What may stand in a module that must be accepted may stand in any. -/
theorem WritesSoundly.of_true {v : View} (h : WritesSoundly true v) : WritesSoundly must v where
  openings o ho := by
    obtain ⟨⟨hstarts, hinert, htag⟩, hproperties⟩ := h.openings o ho
    refine ⟨⟨hstarts, hinert, fun _ => htag rfl⟩, fun p hp => ?_⟩
    obtain ⟨⟨hparts, hname⟩, hdeclarations⟩ := hproperties p hp
    refine ⟨⟨hparts, fun _ => hname rfl⟩, fun d hd => ?_⟩
    obtain ⟨hkey, hvalue⟩ := hdeclarations d hd
    exact ⟨hkey.imp_right fun ⟨hall, hplain⟩ => ⟨hall, fun _ => hplain rfl⟩, fun _ => hvalue rfl⟩
  className _ := h.className rfl
  children _ := h.children rfl

/-- A view whose names come from labels, and whose expression is its template. -/
structure IsNamed (v : View) : Prop where
  names : ∃ label, Names.ofLabel label = .ok v.names
  children : ∀ child ∈ v.children, ∃ label, Names.ofLabel label = .ok child.names
  expression : Module.expression v = Template.print v.nodes

/-- The module of a view with sound names tells what it mentions. -/
theorem tells_compose {v : View} (hv : IsNamed v) (h : WritesSoundly must v) (directory : Text) :
    Tells must (Module.compose v directory) (mentions v directory) := by
  obtain ⟨label, hlabel⟩ := hv.names
  obtain ⟨b, e, hblock, hb, he⟩ := isExpression_indentBlock h.openings
  have hblock : renderedBlock v = b ++ e := by rw [renderedBlock, hv.expression, hblock]
  obtain ⟨lines, hprint, hitems, hlines⟩ := exists_bodyLines
    (Module.controllerPath directory v) v.sockets (isClassName_of_label hlabel h.className) hblock hb he
  have hhead : ∀ l ∈ headLines v, IsLine must false l := by
    simp only [headLines, List.forall_mem_cons, List.forall_mem_append, List.forall_mem_map,
      List.not_mem_nil, false_imp_iff, implies_true, and_true]
    refine ⟨isLine_import (.inl (by decide)) rfl rfl, ?_, isLine_utils rfl rfl⟩
    intro child hchild
    obtain ⟨label, hlabel⟩ := hv.children child hchild
    exact isLine_import (isClassName_of_label hlabel fun hmust => h.children hmust child hchild) rfl rfl
  have htells := tells_lines (List.forall_mem_append.2 ⟨hhead, hlines⟩)
  have hmentions : Line.itemsAll (headLines v ++ lines) = mentions v directory := by
    have happend : Line.itemsAll (headLines v ++ lines) =
        Line.itemsAll (headLines v) ++ Line.itemsAll lines := List.flatMap_append
    rw [happend, itemsAll_headLines, hitems, mentions, requirements]
    simp
  have htext : Line.printAll (headLines v ++ lines) = Module.compose v directory := by
    have happend : Line.printAll (headLines v ++ lines) =
        Line.printAll (headLines v) ++ Line.printAll lines := List.flatMap_append
    rw [happend, hprint, compose_eq]
    rfl
  rwa [hmentions, htext] at htells

/-- The module of a view requires what the view itself requires, and it is one if all that is written
as it stands may stand there. -/
theorem isScript_compose {v : View} (hv : IsNamed v) (h : WritesSoundly must v) (directory : Text) :
    IsScript must (Module.compose v directory) (requirements v directory) := by
  have hscript := (tells_compose hv h directory).isScript
  rwa [paths_mentions] at hscript

end Viewloom.Script
