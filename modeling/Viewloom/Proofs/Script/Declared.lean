import Viewloom.Proofs.Script.Imports

/-!
# Declared names

The names that the statements of a script declare where they stand. The module of a view declares a
name for each module it requires and for what all views share, the variable of its controller and its
own class, in this order and nothing else.
-/

namespace Viewloom.Script

open Viewloom.Script.Parser Viewloom.Script.Tree

namespace Tree

mutual

/-- The names that a pattern binds. -/
def bound : Tree → List Text
  | node .identifier name _ => [name]
  | node .shorthand name _ => [name]
  | node .property _ [_, target] => bound target
  | node .withDefault _ [target, _] => bound target
  | node .rest _ [target] => bound target
  | node .arrayPattern _ targets => boundAll targets
  | node .objectPattern _ targets => boundAll targets
  | _ => []

/-- The names that trees declare. -/
def boundAll : List Tree → List Text
  | [] => []
  | t :: ts => bound t ++ boundAll ts

end

/-- The names that a clause of an import brings; one that is renamed has the second name. -/
def imported : Tree → List Text
  | node .identifier name _ => [name]
  | node .namespaceName name _ => [name]
  | node .specifiers _ found => found.flatMap fun t => (t.parts.getLast?.map Tree.word).toList
  | _ => []

mutual

/-- The names that a statement declares where it stands, not in its blocks. -/
def declared : Tree → List Text
  | node .variable _ declarators => declarators.flatMap fun d => boundAll (d.parts.take 1)
  | node .declaration _ [node .classBody name _] => [name]
  | node .declaration _ [node .function _ (name :: _)] => bound name
  | node .importing _ clauses => clauses.flatMap imported
  | node .exportDeclaration _ parts => declaredAll parts
  | node .exportDefault _ parts => declaredAll parts
  | node .noted _ parts => declaredAll parts
  | node .program _ parts => declaredAll parts
  | _ => []

/-- The names that statements declare. -/
def declaredAll : List Tree → List Text
  | [] => []
  | t :: ts => declared t ++ declaredAll ts

end

end Tree

variable {name path e x : Text} {items : List Item}

/-! ## Lines that declare names -/

/-- A text that is read as a statement at the top of a script declares some names. -/
def Declares (code : Text) (names : List Text) : Prop := ReadsAs (fun t => t.declared = names) code

/-- An import declares the class that it names. -/
theorem declares_import (hname : IsClassName false name) :
    Declares (Module.requireLine name path) [name] :=
  (readsAs_import hname path).imp fun _ ht => ht ▸ rfl

/-- The import of the helpers declares both of them. -/
theorem declares_utils :
    Declares (Module.requireLine utilsNames path) [text "createScope", text "transformProxies"] :=
  (readsAs_utils path).imp fun _ ht => ht ▸ rfl

/-- The line in front of the class declares the controller. -/
theorem declares_let : Declares letLine.code [controllerName] :=
  readsAs_let.imp fun _ ht => ht ▸ rfl

/-- The exports declare nothing. -/
theorem declares_exports (hname : isVariable name = true) :
    Declares (text "module.exports" ++ (text " = " ++ name)) [] := by
  intro rounds depth s x u hs hx hu hended hfit
  exact reads_statement_set (by decide) (by decide) toPattern_exports (fun _ _ => rfl) (by decide)
    (isExpression_name (isHead_of_isVariable hname)) hs hx hu hended hfit fun _ _ => rfl

/-- A class declares its name and nothing of its members. -/
theorem declares_class {b : Text} {members : List Line} (hname : isVariable name = true)
    (hb : b.all isBlank = true)
    (hmembers : ∀ m ∈ members, IsClassMember false m.items m.code ∧ m.gap.all isBlank = true) :
    Declares (classText name (text "React.Component") b members) [name] := by
  intro rounds depth s x u hs _ hu _ hfit
  exact reads_statement_class hname isSound_component.1 isSound_component.2 hb hmembers hs hu hfit
    fun _ _ => rfl

theorem declares_strangeClass (hname : IsStrange name) (names : List Text) :
    Declares (text "class " ++ (name ++ e)) names := by
  intro rounds depth s x u hs _ _ _ _
  exact hname.reads_statement_class hs

/-! ## Modules -/

/-- A line and the names that it declares. -/
structure DeclaringLine where
  line : Line
  names : List Text

/-- A line whose code declares the names that go with it. -/
structure IsDeclaringLine (l : DeclaringLine) : Prop where
  isLine : IsLine false false l.line
  declares : Declares l.line.code l.names

/-- The names that trees declare are those of their lines. -/
theorem declaredAll_of_forall₂ {lines : List DeclaringLine} {ts : List Tree}
    (h : List.Forall₂ (fun l t => t.declared = l.names) lines ts) :
    declaredAll ts = lines.flatMap DeclaringLine.names := by
  induction h with
  | nil => rfl
  | cons hnames _ ih => rw [declaredAll, hnames, ih, List.flatMap_cons]

/-- Lines that are a module declare their names one behind another. -/
theorem declared_of_parse {lines : List DeclaringLine} {t : Tree}
    (hlines : ∀ l ∈ lines, IsDeclaringLine l)
    (h : parse (Line.printAll (lines.map DeclaringLine.line)) = some t) :
    t.declared = lines.flatMap DeclaringLine.names := by
  have hisLine : ∀ l ∈ lines.map DeclaringLine.line, IsLine false false l :=
    List.forall_mem_map.2 fun l hl => (hlines l hl).isLine
  generalize hs : Line.printAll (lines.map DeclaringLine.line) = s at h
  obtain ⟨hhead, hsolid⟩ := beginning_of_lines hisLine
  rw [hs] at hhead hsolid
  have hreads : Reads false (moduleTree (grammar s.length)) ⟨s, false, []⟩ fun t _ =>
      ∃ ts, t = inner .program ts ∧ List.Forall₂ (fun l t => t.declared = l.names) lines ts :=
    reads_moduleTree _ _ (fun l hl => (hlines l hl).isLine)
      (fun l hl rounds depth s x u => (hlines l hl).declares rounds depth s x u) hs.symm
  obtain ⟨ts, rfl, hts⟩ := exists_program_of_parse hhead hsolid hreads h
  exact declaredAll_of_forall₂ hts

/-! ## The module of a view -/

/-- The lines that require the modules of other views, and the names that they declare. -/
def declaringHead (v : View) : List DeclaringLine :=
  ⟨importLine (text "React") (text "react") ['\n'], [text "React"]⟩ ::
    ((v.children.map fun child =>
      ⟨importLine child.className (Module.sibling child.className) ['\n'], [child.className]⟩) ++
      [⟨importLine utilsNames (text "./utils") (text "\n\n"),
        [text "createScope", text "transformProxies"]⟩])

/-- Without the names they declare the lines are those in front of the class. -/
theorem map_line_declaringHead (v : View) :
    (declaringHead v).map DeclaringLine.line = headLines v := by
  simp [declaringHead, headLines]

/-- In front of the class stand the library, the classes of the children and the helpers. -/
theorem names_declaringHead (v : View) : (declaringHead v).flatMap DeclaringLine.names =
    text "React" :: v.children.map View.className ++
      [text "createScope", text "transformProxies"] := by
  have hchildren : (v.children.map fun child : View => DeclaringLine.mk
      (importLine child.className (Module.sibling child.className) ['\n'])
      [child.className]).flatMap DeclaringLine.names = v.children.map View.className := by
    rw [List.flatMap_map]
    exact List.map_eq_flatMap.symm
  rw [declaringHead, List.flatMap_cons, List.flatMap_append, hchildren]
  rfl

/-- Every line in front of the class declares the names that stand beside it. -/
theorem isDeclaringLine_head {v : View}
    (hchildren : ∀ child ∈ v.children, IsClassName false child.className) :
    ∀ l ∈ declaringHead v, IsDeclaringLine l := by
  simp only [declaringHead, List.forall_mem_cons, List.forall_mem_append, List.forall_mem_map,
    List.not_mem_nil, false_imp_iff, implies_true, and_true]
  have hlibrary : IsClassName false (text "React") := .inl (by decide)
  refine ⟨⟨isLine_import hlibrary rfl rfl, declares_import hlibrary⟩, fun child hchild => ?_,
    isLine_utils rfl rfl, declares_utils⟩
  exact ⟨isLine_import (hchildren child hchild) rfl rfl, declares_import (hchildren child hchild)⟩

/-- The lines behind those, under any class name. -/
theorem exists_declaringBody {className block b e : Text} (path : Text) (sockets : List Text)
    (hclass : IsClassName false className) (hblock : block = b ++ e) (hb : b.all isBlank = true)
    (he : IsExpression false items e) :
    ∃ lines : List DeclaringLine, Line.printAll (lines.map DeclaringLine.line) =
        Line.printAll (bodyLines className path sockets block items) ∧
      lines.flatMap DeclaringLine.names = [controllerName, className] ∧
      ∀ l ∈ lines, IsDeclaringLine l := by
  have hlet : IsDeclaringLine ⟨letLine, [controllerName]⟩ := ⟨isLine_letLine, declares_let⟩
  rcases hclass with hclass | ⟨-, hclass⟩
  · have hlines := isLine_bodyLines path sockets hclass hblock hb he
    simp only [bodyLines, List.forall_mem_cons] at hlines
    obtain ⟨-, hstatement, hexports, -⟩ := hlines
    have hmembers := isClassMember_classLines path sockets hclass hblock hb he
    refine ⟨[⟨letLine, [controllerName]⟩, ⟨_, [className]⟩, ⟨_, []⟩], rfl, rfl, ?_⟩
    simp only [List.forall_mem_cons, List.not_mem_nil, false_imp_iff, implies_true, and_true]
    exact ⟨hlet, ⟨hstatement, declares_class hclass rfl hmembers⟩, hexports, declares_exports hclass⟩
  · obtain ⟨behind, hbehind⟩ : ∃ behind, classText className (text "React.Component") (text "\n  ")
        (classLines className path sockets block items) = text "class " ++ (className ++ behind) := ⟨_, rfl⟩
    refine ⟨[⟨letLine, [controllerName]⟩, ⟨⟨text "class " ++ (className ++ (behind ++ (text "\n\n" ++
      (text "module.exports" ++ (text " = " ++ className))))), ['\n'], items⟩, [className]⟩], ?_, rfl, ?_⟩
    · simp [Line.printAll, Line.print, bodyLines, hbehind]
    · simp only [List.forall_mem_cons, List.not_mem_nil, false_imp_iff, implies_true, and_true]
      exact ⟨hlet, isLine_strangeClass hclass rfl rfl, declares_strangeClass hclass _⟩

/-- The names that the module of a view declares, in order. -/
def moduleNames (v : View) : List Text :=
  text "React" :: v.children.map View.className ++
    [text "createScope", text "transformProxies", controllerName, v.className]

/-- Where a module is read, the names it declares are those counted for its view. -/
theorem declared_compose {v : View} (hv : IsNamed v) (h : WritesSoundly false v) (directory : Text)
    {t : Tree} (hparse : parse (Module.compose v directory) = some t) : t.declared = moduleNames v := by
  obtain ⟨label, hlabel⟩ := hv.names
  obtain ⟨b, e, hblock, hb, he⟩ := isExpression_indentBlock h.openings
  have hblock : renderedBlock v = b ++ e := by rw [renderedBlock, hv.expression, hblock]
  obtain ⟨lines, hprint, hnames, hlines⟩ := exists_declaringBody
    (Module.controllerPath directory v) v.sockets (isClassName_of_label hlabel h.className) hblock hb he
  have hhead : ∀ l ∈ declaringHead v, IsDeclaringLine l := by
    apply isDeclaringLine_head
    intro child hchild
    obtain ⟨label, hlabel⟩ := hv.children child hchild
    exact isClassName_of_label hlabel fun hmust => h.children hmust child hchild
  have htext : Line.printAll ((declaringHead v ++ lines).map DeclaringLine.line) =
      Module.compose v directory := by
    have happend (ls ls' : List Line) :
        Line.printAll (ls ++ ls') = Line.printAll ls ++ Line.printAll ls' := List.flatMap_append
    rw [List.map_append, happend, map_line_declaringHead, hprint, compose_eq]
    rfl
  rw [← htext] at hparse
  rw [declared_of_parse (List.forall_mem_append.2 ⟨hhead, hlines⟩) hparse, List.flatMap_append,
    names_declaringHead, hnames, moduleNames, List.append_assoc]
  rfl

end Viewloom.Script
