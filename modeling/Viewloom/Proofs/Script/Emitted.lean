import Viewloom.Proofs.Script.ClassNames
import Viewloom.Proofs.Script.Nodes
import Viewloom.Proofs.Script.Reflow

/-!
# Lines of an emitted module

The module of a view as lines: the modules it requires, the class with the look-up of its controller
and the rendered expression, and what it exports.
-/

namespace Viewloom.Script

open Viewloom.Script.Parser Viewloom.Script.Tree Template

variable {must : Bool} {name path gap : Text} {items : List Item}

/-! ## Rendered expressions -/

theorem isExpression_name (hname : isHead name = true) : IsExpression must [] name := by
  have hchain : IsExpression must [] (chain name []) := isExpression_chain hname rfl
  rwa [chain, List.flatMap_nil, List.append_nil] at hchain

theorem isOperand_name (hname : isHead name = true) : IsOperand must name := by
  have hchain : IsOperand must (chain name []) := isOperand_chain hname rfl
  rwa [chain, List.flatMap_nil, List.append_nil] at hchain

theorem getLast?_concat_ne {p : Text} {d : Char} (hd : d ≠ '\n') : (p ++ [d]).getLast? ≠ some '\n' := by
  rw [List.getLast?_concat, ne_eq, Option.some.injEq]
  exact hd

/-- An element is still one when its lines are indented, and so are the lines in the values it quotes. -/
theorem isExpression_hang {p : Text} (width : Nat) (hp : IsWhole must items p) :
    IsExpression must (items.map (Item.hang width)) (hang width p) := by
  obtain ⟨o, rfl, ho⟩ := hp
  have hwhole : Element must (items.map (Item.hang width)) [] (hang width (o ++ ['>'])) :=
    Element.hang (ho [])
  rw [hang_cons rfl]
  exact isExpression_element fun x => Element.append x hwhole

/-- What a view quotes that renders some nodes. -/
def renderedQuotes (nodes : List Node) : List Item :=
  (quotedIn (Node.openingsAll nodes)).map (Item.hang 6)

/-- The values of static attributes are written escaped and between quotes, in their order. -/
theorem renderedQuotes_eq (nodes : List Node) :
    renderedQuotes nodes = (Node.staticValues nodes).map fun value =>
      .quoted (inQuotes (Markup.escapeAttribute (hang 6 value))) := by
  rw [renderedQuotes, quotedIn_openingsAll, List.map_map]
  apply List.map_congr_left
  intro value _
  simp only [Function.comp_apply, Item.hang, hang_inQuotes, hang_escapeAttribute]

/-- The lines of a printed template are an expression behind some blanks. -/
theorem isExpression_indentBlock {nodes : List Node} (h : AllSound must (Node.openingsAll nodes)) :
    ∃ b e, Module.indentBlock 6 (Template.print nodes) = b ++ e ∧ b.all isBlank = true ∧
      IsExpression must (renderedQuotes nodes) e := by
  have hshape : Template.print nodes ≠ [] ∧ (Template.print nodes).getLast? ≠ some '\n' := by
    rcases print_eq_null_or h with ⟨-, hnull⟩ | ⟨t, ht, -⟩
    · rw [hnull]
      decide
    · rw [ht, ← List.cons_append]
      exact ⟨by simp, getLast?_concat_ne (by decide)⟩
  refine ⟨_, _, indentBlock_eq_hang hshape.1 hshape.2, ?_, ?_⟩
  · unfold hangingBlanks
    split
    · rfl
    · rw [List.all_replicate]
      rfl
  · rcases print_eq_null_or h with ⟨rfl, hnull⟩ | hwhole
    · have hstays : hang 6 (text "null") = text "null" := by decide
      rw [hnull, hstays]
      exact isExpression_name rfl
    · exact isExpression_hang 6 hwhole

/-! ## Proxies that stand in for missing ones -/

/-- The object of the default proxies. -/
def proxyEntries (sockets : List Text) : List (Text × Text) :=
  sockets.map fun socket => (quoted socket, text "\x7b\x7d")

/-- The lines of the default proxies. -/
def proxyLines (sockets : List Text) : Text :=
  sockets.flatMap fun socket => text "      " ++ quoted socket ++ text ": \x7b\x7d,\n"

/-- The entries of proxies, one a line, are the lines that are written. -/
theorem flatMap_proxyEntries (sockets : List Text) :
    (proxyEntries sockets).flatMap (fun e => text "\n      " ++ entry e.1 e.2 ++ [',']) ++ ['\n'] =
      '\n' :: proxyLines sockets := by
  induction sockets with
  | nil => rfl
  | cons socket sockets ih =>
      have hbreak : text "\n      " = '\n' :: text "      " := rfl
      have hend : text ": \x7b\x7d,\n" = text ": \x7b\x7d," ++ ['\n'] := rfl
      have hentry : entry (quoted socket) (text "\x7b\x7d") ++ [','] =
          quoted socket ++ text ": \x7b\x7d," := by
        rw [entry, List.append_assoc]
        rfl
      simp only [proxyEntries, proxyLines, List.map_cons, List.flatMap_cons, List.append_assoc] at ih ⊢
      rw [ih, ← List.append_assoc (entry _ _), hentry, hbreak, hend]
      simp

/-- The default proxies are an expression with no items. -/
theorem isExpression_defaultProxies (sockets : List Text) :
    IsExpression must [] (Module.defaultProxies sockets) := by
  have hentries : ∀ e ∈ proxyEntries sockets, IsKey must e.1 ∧ IsValue must e.2 := by
    intro e he
    obtain ⟨socket, -, rfl⟩ := List.mem_map.1 he
    exact ⟨.inl ⟨socket, rfl⟩, isValue_emptyObject⟩
  have hobject : IsExpression must [] ('\x7b' :: ((proxyEntries sockets).flatMap
      (fun e => text "\n      " ++ entry e.1 e.2 ++ [',']) ++ (text "\n    " ++ ['\x7d']))) :=
    isExpression_closedEntries hentries rfl rfl
  unfold Module.defaultProxies
  split
  · exact isExpression_emptyObject
  · have hclose : text "\n    " ++ ['\x7d'] = ['\n'] ++ text "    \x7d" := rfl
    rwa [hclose, ← List.append_assoc, flatMap_proxyEntries] at hobject

/-! ## Required modules -/

/-- A plain name that does not join the line before begins a statement. -/
theorem beginsStatement_of {w x : Text} (hx : x ≠ []) (hw : isPlainName w = true)
    (hends : endsName x = true) (hjoin : joiningWords.contains w = false) :
    BeginsStatement (w ++ x) :=
  ⟨w, x, rfl, hx, hw, hends, hjoin⟩

/-- A line that requires a module under a name. -/
def importLine (name path gap : Text) : Line := ⟨Module.requireLine name path, gap, [.required path]⟩

theorem requireLine_eq (name path : Text) :
    Module.requireLine name path = text "const " ++ (name ++ (text " = " ++ requireCall path)) := by
  simp [Module.requireLine, requireCall]
  rfl

theorem beginsStatement_requireLine (name path : Text) :
    BeginsStatement (Module.requireLine name path) := by
  rw [requireLine_eq]
  exact beginsStatement_of (w := text "const") (x := ' ' :: (name ++ (text " = " ++ requireCall path)))
    (List.cons_ne_nil _ _) rfl rfl rfl

/-- The import of a child is a line that requires its module. -/
theorem isLine_import (hname : IsClassName must name) (hgap : gap.all isBlank = true)
    (hends : gap.any isLineEnd = true) : IsLine must false (importLine name path gap) where
  begins := beginsStatement_requireLine name path
  statement := by
    refine ⟨false, ?_⟩
    rw [importLine, requireLine_eq]
    rcases hname with hname | ⟨rfl, hname⟩
    · exact isStatement_const hname (isExpression_require path)
    · exact hname.isStatement_const
  blank := hgap
  ends := hends

/-- The functions that every view requires. -/
def utilsNames : Text := text "\x7b createScope, transformProxies \x7d"

/-- The import of the helpers is a line that requires their module. -/
theorem isLine_utils (hgap : gap.all isBlank = true) (hends : gap.any isLineEnd = true) :
    IsLine must false (importLine utilsNames path gap) where
  begins := beginsStatement_requireLine utilsNames path
  statement := by
    refine ⟨false, ?_⟩
    rw [importLine, requireLine_eq]
    exact isStatement_constNames (a := text "createScope") (b := text "transformProxies") (by decide)
      (by decide) (isExpression_require path)
  blank := hgap
  ends := hends

/-! ## The look-up of the controller -/

/-- The name of the variable that holds the controller. -/
def controllerName : Text := text "Controller"

theorem isVariable_controllerName : isVariable controllerName = true := by decide

theorem isExpression_controller : IsExpression must [] controllerName := isExpression_name (by decide)

/-- The controller gets a value. -/
def setController (e : Text) : Text := controllerName ++ (text " = " ++ e)

/-- The line that sets the controller is a statement with the items of its value. -/
theorem isStatement_setController {e : Text} (he : IsExpression must items e) :
    IsStatement must false true items (setController e) := by
  have hpattern : (chainTree controllerName []).toPattern false =
      some (leaf .identifier controllerName) := rfl
  have hset : IsStatement must false true items (chain controllerName [] ++ (text " = " ++ e)) :=
    isStatement_set (by decide) rfl hpattern (needs_leaf rfl) (fun _ _ => rfl) (by decide) he
  rwa [chain, List.flatMap_nil, List.append_nil] at hset

theorem beginsStatement_setController (e : Text) : BeginsStatement (setController e) :=
  beginsStatement_of (List.cons_ne_nil _ _) rfl rfl rfl

/-- The controller is returned. -/
def returnController : Text := text "return " ++ controllerName

theorem isStatement_returnController : IsStatement must true true [] returnController :=
  isStatement_return isExpression_controller

theorem beginsStatement_returnController : BeginsStatement returnController :=
  beginsStatement_of (w := text "return") (x := ' ' :: controllerName) (List.cons_ne_nil _ _) rfl rfl rfl

theorem isLine_returnController (hgap : gap.all isBlank = true) (hends : gap.any isLineEnd = true) :
    IsLine must true ⟨returnController, gap, []⟩ :=
  ⟨beginsStatement_returnController, ⟨true, isStatement_returnController⟩, hgap, hends⟩

theorem isLine_setController {e : Text} (he : IsExpression must items e)
    (hgap : gap.all isBlank = true) (hends : gap.any isLineEnd = true) :
    IsLine must true ⟨setController e, gap, items⟩ :=
  ⟨beginsStatement_setController e, ⟨true, (isStatement_setController he).weaken⟩, hgap, hends⟩

/-- A controller that was found before is returned. -/
def returnFound : Text := text "if (" ++ (controllerName ++ (text ") " ++ returnController))

theorem isLine_returnFound (hgap : gap.all isBlank = true) (hends : gap.any isLineEnd = true) :
    IsLine must true ⟨returnFound, gap, []⟩ where
  begins := beginsStatement_of (w := text "if")
    (x := text " (" ++ (controllerName ++ (text ") " ++ returnController))) (List.cons_ne_nil _ _) rfl rfl rfl
  statement := ⟨true, isStatement_if isExpression_controller (fun _ => rfl) isStatement_returnController⟩
  blank := hgap
  ends := hends

/-- The controller is required from its module. -/
def requireLines (path : Text) : List Line :=
  [⟨setController (requireCall path), text "\n      ", [.required path]⟩,
    ⟨setController (binary (text "Controller.default") (text "||") controllerName),
      text "\n\n      ", []⟩,
    ⟨returnController, text "\n    ", []⟩]

/-- The lines that load a controller are lines of a function. -/
theorem isLine_requireLines (path : Text) : ∀ l ∈ requireLines path, IsLine must true l := by
  have hdefault : IsOperand must (chain controllerName [.member (text "default")]) :=
    isOperand_chain (by decide) (by decide)
  have hname : IsOperand must controllerName := isOperand_name (by decide)
  simp only [requireLines, List.forall_mem_cons, List.not_mem_nil, false_imp_iff, implies_true, and_true]
  refine ⟨?_, ?_, ?_⟩
  · exact isLine_setController (isExpression_require path) rfl rfl
  · exact isLine_setController (isExpression_binary hdefault hname isOperator_or) rfl rfl
  · exact isLine_returnController rfl rfl

/-- The view is its own controller. -/
def ownLines (className : Text) : List Line :=
  [⟨setController className, text "\n\n        ", []⟩, ⟨returnController, text "\n      ", []⟩]

/-- A missing module is no failure. -/
def handlerLines (className : Text) : List Line :=
  [⟨text "if (" ++ (binary (text "e.code") (text "==") (quoted (text "MODULE_NOT_FOUND")) ++
      (text ") " ++ braced (text "\n        ") (ownLines className))), text "\n\n      ", []⟩,
    ⟨text "throw " ++ ['e'], text "\n    ", []⟩]

section ClassName

variable {className : Text} (hclass : isVariable className = true)
include hclass

/-- The lines that keep the class as its own controller are lines of a function. -/
theorem isLine_ownLines : ∀ l ∈ ownLines className, IsLine must true l := by
  simp only [ownLines, List.forall_mem_cons, List.not_mem_nil, false_imp_iff, implies_true, and_true]
  constructor
  · exact isLine_setController (isExpression_name (isHead_of_isVariable hclass)) rfl rfl
  · exact isLine_returnController rfl rfl

/-- The lines that handle a missing controller are lines of a function. -/
theorem isLine_handlerLines : ∀ l ∈ handlerLines className, IsLine must true l := by
  have hcode : IsOperand must (chain ['e'] [.member (text "code")]) :=
    isOperand_chain (by decide) (by decide)
  have htest := isExpression_binary hcode (isOperand_quoted (text "MODULE_NOT_FOUND")) isOperator_equals
  have hblock : IsStatement must true true (Line.itemsAll (ownLines className))
      (braced (text "\n        ") (ownLines className)) :=
    isStatement_block (isLine_ownLines hclass) rfl
  simp only [handlerLines, List.forall_mem_cons, List.not_mem_nil, false_imp_iff, implies_true, and_true]
  constructor
  · refine ⟨?_, ⟨true, isStatement_if htest (fun _ => rfl) hblock⟩, rfl, rfl⟩
    exact beginsStatement_of (w := text "if") (List.cons_ne_nil _ _) rfl rfl rfl
  · refine ⟨?_, ⟨true, (isStatement_throw (isExpression_name (by decide))).weaken⟩, rfl, rfl⟩
    exact beginsStatement_of (w := text "throw") (List.cons_ne_nil _ _) rfl rfl rfl

end ClassName

/-- The body of the getter. -/
def getterLines (className path : Text) : List Line :=
  [⟨returnFound, text "\n\n    ", []⟩,
    ⟨attempt (text "\n      ") (requireLines path) (text "\n    ") ['e'] (text "\n      ")
      (handlerLines className), text "\n  ", [.required path]⟩]

/-- The getter of the controller consists of lines of a function. -/
theorem isLine_getterLines {className : Text} (hclass : isVariable className = true) :
    ∀ l ∈ getterLines className path, IsLine must true l := by
  have hattempt : IsStatement must true true [.required path] (attempt (text "\n      ") (requireLines path)
      (text "\n    ") ['e'] (text "\n      ") (handlerLines className)) :=
    isStatement_attempt (isLine_requireLines path) rfl rfl (by decide) (isLine_handlerLines hclass) rfl
  simp only [getterLines, List.forall_mem_cons, List.not_mem_nil, false_imp_iff, implies_true, and_true]
  constructor
  · exact isLine_returnFound rfl rfl
  · refine ⟨?_, ⟨true, hattempt⟩, rfl, rfl⟩
    exact beginsStatement_of (w := text "try") (List.cons_ne_nil _ _) rfl rfl rfl

/-! ## What a view renders -/

/-- The proxies of a view: those that its children bring, unless it is its own controller. -/
def proxiesLine (className : Text) (sockets : List Text) : Text :=
  text "const " ++ (text "proxies" ++ (text " = " ++
    (binary (className ++ text ".Controller") (text "!==") className ++ (text " ? " ++
      (text "transformProxies(this.props.children)" ++ (text " : " ++ Module.defaultProxies sockets))))))

/-- The body of the method that renders. -/
def renderLines (className : Text) (sockets : List Text) (block : Text) (quotes : List Item) :
    List Line :=
  [⟨proxiesLine className sockets, text "\n\n    ", []⟩,
    ⟨text "return " ++ '(' :: ('\n' :: block ++ text "\n    )"), text "\n  ", quotes⟩]

/-- The lines that render hold the values of static attributes and nothing else. -/
theorem itemsAll_renderLines (className : Text) (sockets : List Text) (block : Text)
    (quotes : List Item) : Line.itemsAll (renderLines className sockets block quotes) = quotes := by
  simp [Line.itemsAll, renderLines]

section Render

variable {className block b e : Text} (hclass : isVariable className = true) (hblock : block = b ++ e)
  (hb : b.all isBlank = true) (he : IsExpression must items e)
include hclass

/-- The line of the proxies is a statement with no items. -/
theorem isStatement_proxiesLine (sockets : List Text) :
    IsStatement must false false [] (proxiesLine className sockets) := by
  have hown : IsOperand must (chain className [.member controllerName]) :=
    isOperand_chain (isHead_of_isVariable hclass) (by decide)
  have hname : IsOperand must className := isOperand_name (isHead_of_isVariable hclass)
  have hcall : IsExpression must [] (text "transformProxies" ++
      '(' :: (chain (text "this") [.member (text "props"), .member (text "children")] ++ [')'])) :=
    isExpression_call (by decide) (by decide) (by decide)
  exact isStatement_const (by decide)
    (isExpression_choice hown hname isOperator_differs hcall (isExpression_defaultProxies sockets))

include hblock hb he

/-- The lines that render are lines of a function. -/
theorem isLine_renderLines (sockets : List Text) :
    ∀ l ∈ renderLines className sockets block items, IsLine must true l := by
  have hgroup : IsExpression must items ('(' :: ('\n' :: block ++ text "\n    )")) := by
    have hblank : ('\n' :: b).all isBlank = true := by
      rw [List.all_cons, hb]
      rfl
    have hends : text "\n    )" = text "\n    " ++ [')'] := rfl
    have hgroup : IsExpression must items ('(' :: ('\n' :: b ++ (e ++ (text "\n    " ++ [')'])))) :=
      isExpression_group he hblank rfl
    rwa [hblock, hends, List.cons_append, List.append_assoc, ← List.cons_append]
  simp only [renderLines, List.forall_mem_cons, List.not_mem_nil, false_imp_iff, implies_true, and_true]
  constructor
  · refine ⟨?_, ⟨false, (isStatement_proxiesLine hclass sockets).weaken⟩, rfl, rfl⟩
    exact beginsStatement_of (w := text "const") (List.cons_ne_nil _ _) rfl rfl rfl
  · refine ⟨?_, ⟨true, isStatement_return hgroup⟩, rfl, rfl⟩
    exact beginsStatement_of (w := text "return") (List.cons_ne_nil _ _) rfl rfl rfl

end Render

/-! ## The module -/

/-- The members of the class of a view. -/
def classLines (className path : Text) (sockets : List Text) (block : Text) (quotes : List Item) :
    List Line :=
  [⟨text "static get " ++ (controllerName ++
      methodBody (text "\n    ") (getterLines className path)), text "\n\n  ", [.required path]⟩,
    ⟨text "render" ++ methodBody (text "\n    ") (renderLines className sockets block quotes), ['\n'],
      quotes⟩]

/-- The members of a class require its controller and hold the values of its attributes. -/
theorem itemsAll_classLines (className path : Text) (sockets : List Text) (block : Text)
    (quotes : List Item) :
    Line.itemsAll (classLines className path sockets block quotes) = .required path :: quotes := by
  simp [Line.itemsAll, classLines]

/-- The variable that holds the controller. -/
def letLine : Line := ⟨text "let " ++ controllerName, text "\n\n", []⟩

theorem isLine_letLine : IsLine must false letLine :=
  ⟨beginsStatement_of (w := text "let") (List.cons_ne_nil _ _) rfl rfl rfl,
    ⟨false, isStatement_let isVariable_controllerName⟩, rfl, rfl⟩

/-- The lines of a module behind those that require other views. -/
def bodyLines (className path : Text) (sockets : List Text) (block : Text) (quotes : List Item) :
    List Line :=
  [letLine,
    ⟨classText className (text "React.Component") (text "\n  ")
      (classLines className path sockets block quotes), text "\n\n", .required path :: quotes⟩,
    ⟨text "module.exports" ++ (text " = " ++ className), ['\n'], []⟩]

/-- The getter and the rendering are members of a class. -/
theorem isClassMember_classLines {className block b e : Text} (path : Text) (sockets : List Text)
    (hclass : isVariable className = true) (hblock : block = b ++ e) (hb : b.all isBlank = true)
    (he : IsExpression must items e) : ∀ m ∈ classLines className path sockets block items,
      IsClassMember must m.items m.code ∧ m.gap.all isBlank = true := by
  have hgetter : IsClassMember must [.required path] (text "static get " ++ (controllerName ++
      methodBody (text "\n    ") (getterLines className path))) :=
    isClassMember_staticGetter (isLine_getterLines hclass) rfl (by decide) (by decide)
  have hrender : IsClassMember must items (text "render" ++
      methodBody (text "\n    ") (renderLines className sockets block items)) := by
    have hmethod : IsClassMember must (Line.itemsAll (renderLines className sockets block items))
        (text "render" ++ methodBody (text "\n    ") (renderLines className sockets block items)) :=
      isClassMember_method (isLine_renderLines hclass hblock hb he sockets) rfl (by decide)
    rwa [itemsAll_renderLines] at hmethod
  simp only [classLines, List.forall_mem_cons, List.not_mem_nil, false_imp_iff, implies_true, and_true]
  exact ⟨⟨hgetter, rfl⟩, hrender, rfl⟩

theorem isSound_component : isHead (text "React") = true ∧
    [Link.member (text "Component")].all Link.isSound = true := by decide

/-- The pattern of what a module exports. -/
theorem toPattern_exports : (chainTree (text "module") [.member (text "exports")]).toPattern false =
    some (.node (.member false) (text "exports") [leaf .identifier (text "module")]) := rfl

/-- The lines behind the imports are lines of a module. -/
theorem isLine_bodyLines {className block b e : Text} (path : Text) (sockets : List Text)
    (hclass : isVariable className = true) (hblock : block = b ++ e) (hb : b.all isBlank = true)
    (he : IsExpression must items e) :
    ∀ l ∈ bodyLines className path sockets block items, IsLine must false l := by
  have hmembers := isClassMember_classLines path sockets hclass hblock hb he
  have hstatement : IsStatement must false false (.required path :: items)
      (classText className (chain (text "React") [.member (text "Component")]) (text "\n  ")
        (classLines className path sockets block items)) := by
    rw [← itemsAll_classLines]
    exact isStatement_class hclass isSound_component.1 isSound_component.2 rfl hmembers
  have hexports : IsStatement must false true []
      (chain (text "module") [.member (text "exports")] ++ (text " = " ++ className)) :=
    isStatement_set (by decide) (by decide) toPattern_exports
      (needs_node rfl (allNeed_one (needs_leaf rfl))) (fun _ _ => rfl) (by decide)
      (isExpression_name (isHead_of_isVariable hclass))
  simp only [bodyLines, List.forall_mem_cons, List.not_mem_nil, false_imp_iff, implies_true, and_true]
  refine ⟨isLine_letLine, ?_, ?_⟩
  · refine ⟨?_, ⟨false, hstatement⟩, rfl, rfl⟩
    exact beginsStatement_of (w := text "class") (List.cons_ne_nil _ _) rfl rfl rfl
  · refine ⟨?_, ⟨true, hexports⟩, rfl, rfl⟩
    exact beginsStatement_of (w := text "module") (List.cons_ne_nil _ _) rfl rfl rfl

/-- If no class is read under a name, then nothing behind it matters. -/
theorem isLine_strangeClass {className e : Text} (hclass : IsStrange className)
    (hgap : gap.all isBlank = true) (hends : gap.any isLineEnd = true) :
    IsLine false false ⟨text "class " ++ (className ++ e), gap, items⟩ where
  begins := beginsStatement_of (w := text "class") (List.cons_ne_nil _ _) rfl rfl rfl
  statement := ⟨false, hclass.isStatement_class⟩
  blank := hgap
  ends := hends

/-- The text of a module behind its imports falls into lines, under any class name. -/
theorem exists_bodyLines {className block b e : Text} (path : Text) (sockets : List Text)
    (hclass : IsClassName must className) (hblock : block = b ++ e) (hb : b.all isBlank = true)
    (he : IsExpression must items e) :
    ∃ lines, Line.printAll lines = Line.printAll (bodyLines className path sockets block items) ∧
      Line.itemsAll lines = .required path :: items ∧ ∀ l ∈ lines, IsLine must false l := by
  rcases hclass with hclass | ⟨rfl, hclass⟩
  · refine ⟨_, rfl, ?_, isLine_bodyLines path sockets hclass hblock hb he⟩
    simp [Line.itemsAll, bodyLines, letLine]
  · obtain ⟨behind, hbehind⟩ : ∃ behind, classText className (text "React.Component") (text "\n  ")
        (classLines className path sockets block items) = text "class " ++ (className ++ behind) := ⟨_, rfl⟩
    refine ⟨[letLine, ⟨text "class " ++ (className ++ (behind ++ (text "\n\n" ++
      (text "module.exports" ++ (text " = " ++ className))))), ['\n'], .required path :: items⟩],
      ?_, ?_, ?_⟩
    · simp [Line.printAll, Line.print, bodyLines, hbehind]
    · simp [Line.itemsAll, letLine]
    · simp only [List.forall_mem_cons, List.not_mem_nil, false_imp_iff, implies_true, and_true]
      exact ⟨isLine_letLine, isLine_strangeClass hclass rfl rfl⟩

end Viewloom.Script
