import Viewloom.Script.Expression

/-!
# Statements

The productions of statements. Imports and exports are read with them, and stand only at the top of a
script.
-/

namespace Viewloom.Script

open Viewloom.Script.Parser Viewloom.Script.Tree

/-! ## Declarations -/

/-- Reads one declarator. A constant has a value, and so has a pattern. -/
def declarator (g : Grammar) (c : Context) (isConstant needsValue : Bool) : Parser Tree := do
  match ← declared g c with
  | .node .withDefault _ [target, value] => pure (inner .declarator [target, value])
  | target =>
    require (!needsValue || !isConstant && target.kind == .identifier)
    pure (inner .declarator [target, hole])

/-- Reads the variables of a declaration, one of which at least. -/
def declarators (g : Grammar) (c : Context) (isConstant needsValue : Bool) :
    Nat → Parser (List Tree)
  | 0 => fail
  | rounds + 1 => do
    let first ← declarator g c isConstant needsValue
    if ← skipMark [','] then
      let rest ← declarators g c isConstant needsValue rounds
      pure (first :: rest)
    else pure [first]

/-- Reads a declaration of variables without its end. -/
def variableList (g : Grammar) (c : Context) (needsValue : Bool) : Parser Tree := do
  let name ← token readName
  let found ← declarators g c (name.word == text "const") needsValue g.rounds
  pure (.node .variable name.word found)

/-- Whether `let` begins a declaration here. -/
def atLet : Parser Bool := do
  if ← atWord (text "let") then
    behindWord do
      match ← nextChar with
      | some '[' | some '{' => pure true
      | _ =>
        peek readName fun name =>
          name.isEscaped || name.word != text "in" && name.word != text "instanceof"
  else pure false

/-- Whether a declaration of variables begins here. -/
def atVariables : Parser Bool := do
  let next ← nextWord
  if next == text "var" || next == text "const" then pure true else atLet

/-! ## Control -/

/-- Whether a statement may stand where no declaration may. -/
def isBody (t : Tree) : Bool :=
  match t with
  | .node .variable introducer _ => introducer == text "var"
  | .node .declaration _ [.node .function head _] => head == text "function"
  | .node .declaration _ _ => false
  | .node .importing _ _ => false
  | .node .exportDefault _ _ => false
  | .node .exportDeclaration _ _ => false
  | .node .exportNames _ _ => false
  | .node .exportAll _ _ => false
  | _ => true

/-- Reads a statement that is part of another one. -/
def body (g : Grammar) (c : Context) : Parser Tree := do
  let t ← g.statement c.nested
  require (isBody t)
  pure t

/-- Reads a test in parentheses. -/
def condition (g : Grammar) (c : Context) : Parser Tree := do
  mark ['(']
  let e ← g.expression c.allowIn
  mark [')']
  pure e

/-- Reads a choice between statements, of which the second may be left out. -/
def ifTree (g : Grammar) (c : Context) : Parser Tree := do
  word (text "if")
  let test ← condition g c
  let yes ← body g c
  if ← skipWord (text "else") then
    let no ← body g c
    pure (inner .branch [test, yes, no])
  else pure (inner .branch [test, yes])

/-- Reads a part of a loop head up to its end, or leaves it out. -/
def clause (g : Grammar) (c : Context) (close : Text) : Parser Tree := do
  if ← skipMark close then pure hole
  else
    let e ← g.expression c.allowIn
    mark close
    pure e

/-- Reads a loop behind its first clause. -/
def countedLoop (g : Grammar) (c : Context) (first : Tree) : Parser Tree := do
  mark [';']
  let test ← clause g c [';']
  let step ← clause g c [')']
  let inside ← body g c
  pure (inner .forLoop [first, test, step, inside])

/-- The target of a loop over a sequence or over keys: one name or pattern without a value. -/
def loopTarget : Tree → Option Tree
  | .node .variable introducer [.node .declarator name [target, .node .hole [] []]] =>
    some (.node .variable introducer [.node .declarator name [target, hole]])
  | .node .variable _ _ => none
  | .node .assignment _ _ => none
  | t => t.toPattern false

/-- Reads a loop behind its first clause, whose kind the next word tells. -/
def loopBehind (g : Grammar) (c : Context) (awaits : Bool) (first : Tree) : Parser Tree := do
  if ← skipWord (text "of") then
    let target ← ofOption (loopTarget first)
    let subject ← g.assignment c.allowIn
    mark [')']
    let inside ← body g c
    pure (.node .forOf (if awaits then text "await" else []) [target, subject, inside])
  else
    require !awaits
    if ← skipWord (text "in") then
      let target ← ofOption (loopTarget first)
      let subject ← g.expression c.allowIn
      mark [')']
      let inside ← body g c
      pure (inner .forIn [target, subject, inside])
    else countedLoop g c first

/-- Whether the declarators of a counted loop have the values they need. -/
def hasValues : Tree → Bool
  | .node .variable introducer found =>
    found.all fun d =>
      match d with
      | .node .declarator _ [target, value] =>
        value.kind != .hole || introducer != text "const" && target.kind == .identifier
      | _ => false
  | _ => true

/-- Whether a loop over a sequence may begin with its target: `let` begins a declaration there, and
`async` might begin a function. -/
def opensSequence (awaits startsLet : Bool) (first : Tree) : Bool :=
  first.kind == .variable ||
    !startsLet && (awaits || first.kind != .identifier || first.word != text "async")

/-- Reads a loop that counts or that goes through a collection. -/
def forTree (g : Grammar) (c : Context) : Parser Tree := do
  word (text "for")
  let awaits ← do
    if c.canAwait then skipWord (text "await") else pure false
  mark ['(']
  if ← atMark [';'] then
    require !awaits
    countedLoop g c hole
  else
    let startsLet ← atWord (text "let")
    let first ← do
      if ← atVariables then variableList g { c with withoutIn := true } false
      else g.expression { c with withoutIn := true }
    let t ← loopBehind g c awaits first
    require (t.kind != .forLoop || hasValues first)
    require (t.kind != .forOf || opensSequence awaits startsLet first)
    pure t

/-- Reads a loop with its test in front. -/
def whileTree (g : Grammar) (c : Context) : Parser Tree := do
  word (text "while")
  let test ← condition g c
  let inside ← body g c
  pure (inner .whileLoop [test, inside])

/-- Reads a loop with its test behind it, which needs no semicolon. -/
def doTree (g : Grammar) (c : Context) : Parser Tree := do
  word (text "do")
  let inside ← body g c
  word (text "while")
  let test ← condition g c
  let _ ← skipMark [';']
  pure (inner .doLoop [inside, test])

/-- Reads a jump, whose label stands on the same line. -/
def jumpTree (c : Context) : Parser Tree := do
  let name ← token readName
  let next ← nextWord
  if !(← hasBreak) && next != [] && isVariableName c next then
    let label ← variableName c
    semicolon
    pure (.node .jump name.word [leaf .identifier label])
  else
    semicolon
    pure (leaf .jump name.word)

def debuggerTree : Parser Tree := do
  word (text "debugger")
  semicolon
  pure (leaf .jump (text "debugger"))

/-- Whether a statement ends here without more words. -/
def endsStatement : Parser Bool := do
  let s ← source
  pure (s.hasBreak || s.rest == [] || s.rest.head? == some '}' || s.rest.head? == some ';')

/-- Reads a return, which stands in functions only. Its value begins on the same line. -/
def returnTree (g : Grammar) (c : Context) : Parser Tree := do
  require c.inFunction
  word (text "return")
  if ← endsStatement then
    semicolon
    pure (leaf .leave (text "return"))
  else
    let e ← g.expression c.allowIn
    semicolon
    pure (.node .leave (text "return") [e])

/-- Reads a failure, whose value begins on the same line. -/
def throwTree (g : Grammar) (c : Context) : Parser Tree := do
  word (text "throw")
  require !(← hasBreak)
  let e ← g.expression c.allowIn
  semicolon
  pure (.node .leave (text "throw") [e])

/-- Reads what handles the failure of a guarded block. It may be given the failure. -/
def handlerTree (g : Grammar) (c : Context) : Parser Tree := do
  let target ← do
    if ← skipMark ['('] then
      let t ← declared g c
      require (t.kind != .withDefault)
      mark [')']
      pure t
    else pure hole
  let inside ← block g c false
  pure (inner .handler [target, inside])

/-- Reads a guarded block, which needs a handler or what comes last. -/
def tryTree (g : Grammar) (c : Context) : Parser Tree := do
  word (text "try")
  let inside ← block g c false
  let handler ← do
    if ← skipWord (text "catch") then handlerTree g c else pure hole
  let last ← do
    if ← skipWord (text "finally") then block g c false else pure hole
  require (handler.kind != .hole || last.kind != .hole)
  pure (inner .attempt [inside, handler, last])

/-- Reads a case, if one follows. -/
def caseTree (g : Grammar) (c : Context) : Parser (Option Tree) := do
  if ← skipMark ['}'] then pure none
  else
    let test ← do
      if ← skipWord (text "default") then pure hole
      else
        word (text "case")
        g.expression c.allowIn
    mark [':']
    let found ← statementList g c.nested false false g.rounds
    pure (some (inner .case (test :: found)))

/-- Whether a case of a switch is the one for all others. -/
def isDefault (t : Tree) : Bool :=
  match t with
  | .node .case _ (test :: _) => test.kind == .hole
  | _ => false

/-- Reads a switch with at most one case for all others. -/
def switchTree (g : Grammar) (c : Context) : Parser Tree := do
  word (text "switch")
  let subject ← condition g c
  mark ['{']
  let cases ← many (caseTree g c) g.rounds
  require (cases.countP isDefault ≤ 1)
  pure (inner .switch (subject :: cases))

/-- Reads a statement with the names of an object. -/
def withTree (g : Grammar) (c : Context) : Parser Tree := do
  word (text "with")
  let subject ← condition g c
  let inside ← body g c
  pure (inner .within [subject, inside])

/-- Reads a statement that is an expression, or one with a label. -/
def expressionStatement (g : Grammar) (c : Context) : Parser Tree := do
  let e ← g.expression c.allowIn
  if e.kind == .identifier && (← atMark [':']) then
    mark [':']
    let inside ← body g c
    pure (.node .labelled e.word [inside])
  else
    semicolon
    pure (inner .expression [e])

/-! ## Imports and exports -/

/-- Reads the name of something exported, which may be a string. -/
def exportedName : Parser Tree := do
  match ← nextChar with
  | some '"' | some '\'' =>
    let value ← token readString
    pure (leaf .string value)
  | _ =>
    let name ← token readName
    pure (leaf .identifier name.word)

/-- Reads a name and, if it is renamed, the other one. -/
def specifier : Parser Tree := do
  let name ← exportedName
  if ← skipWord (text "as") then
    let other ← exportedName
    pure (inner .specifier [name, other])
  else pure (inner .specifier [name])

/-- Reads the names in the braces of an import or an export. -/
def specifierList (g : Grammar) : Parser Tree := do
  mark ['{']
  let (found, _) ← commaList ['}'] specifier g.rounds
  pure (inner .specifiers found)

/-- Reads the name of a module. -/
def moduleName : Parser Tree := do
  let value ← token readString
  pure (leaf .string value)

/-- Reads the attributes of an import, if there are some. -/
def importAttributes (g : Grammar) : Parser (List Tree) := do
  if ← skipWord (text "with") then
    mark ['{']
    let item : Parser Tree := do
      let name ← exportedName
      mark [':']
      let value ← moduleName
      pure (inner .property [name, value])
    let (found, _) ← commaList ['}'] item g.rounds
    pure [inner .object found]
  else pure []

/-- Whether a specifier brings a name that variables can have. -/
def bindsVariable (c : Context) (t : Tree) : Bool :=
  match t.parts.getLast? with
  | some (.node .identifier name _) => isVariableName c name
  | _ => false

/-- Reads a namespace or specifiers. -/
def importedNames (g : Grammar) (c : Context) : Parser Tree := do
  if ← skipMark ['*'] then
    word (text "as")
    let name ← variableName c
    pure (leaf .namespaceName name)
  else
    let found ← specifierList g
    require (found.parts.all (bindsVariable c))
    pure found

/-- Reads everything that an import brings. -/
def importClause (g : Grammar) (c : Context) : Parser (List Tree) := do
  match ← nextChar with
  | some '*' | some '{' =>
    let found ← importedNames g c
    pure [found]
  | _ =>
    let name ← variableName c
    if ← skipMark [','] then
      let found ← importedNames g c
      pure [leaf .identifier name, found]
    else pure [leaf .identifier name]

/-- Reads an import, which stands at the top of a module. -/
def importDeclaration (g : Grammar) (c : Context) : Parser Tree := do
  require c.isTop
  word (text "import")
  let clauses ← do
    match ← nextChar with
    | some '"' | some '\'' => pure []
    | _ =>
      let found ← importClause g c
      word (text "from")
      pure found
  let name ← moduleName
  let more ← importAttributes g
  semicolon
  pure (inner .importing (clauses ++ name :: more))

/-- Whether a specifier without a module names a variable. -/
def namesVariable (c : Context) (t : Tree) : Bool :=
  match t.parts.head? with
  | some (.node .identifier name _) => isVariableName c name
  | _ => false

/-- Reads an export behind its names: they come from a module or are variables. -/
def exportedFrom (g : Grammar) (c : Context) (found : Tree) : Parser Tree := do
  if ← skipWord (text "from") then
    let name ← moduleName
    let more ← importAttributes g
    semicolon
    pure (inner .exportNames (found :: name :: more))
  else
    require (found.parts.all (namesVariable c))
    semicolon
    pure (inner .exportNames [found])

/-- Reads an export of everything. -/
def exportAllTree (g : Grammar) : Parser Tree := do
  mark ['*']
  let name ← do
    if ← skipWord (text "as") then exportedName else pure hole
  word (text "from")
  let source ← moduleName
  let more ← importAttributes g
  semicolon
  pure (inner .exportAll (name :: source :: more))

/-- Reads what is exported by default: a function or a class that may have no name, or else an
expression. -/
def exportDefaultTree (g : Grammar) (c : Context) : Parser Tree := do
  word (text "default")
  let next ← nextWord
  let isAsync ← atAsyncFunction
  if next == text "function" || isAsync then
    if isAsync then word (text "async")
    let t ← functionBehind g c isAsync
    pure (inner .exportDefault [inner .declaration [t]])
  else if next == text "class" then
    let t ← classTree g c
    pure (inner .exportDefault [inner .declaration [t]])
  else
    let e ← g.assignment c.allowIn
    semicolon
    pure (inner .exportDefault [e])

/-- Whether a statement is a declaration that can be exported. -/
def isDeclaration (t : Tree) : Bool := t.kind == .variable || t.kind == .declaration

/-- Reads an export, which stands at the top of a module. -/
def exportTree (g : Grammar) (c : Context) : Parser Tree := do
  require c.isTop
  word (text "export")
  match ← nextChar with
  | some '*' => exportAllTree g
  | some '{' =>
    let found ← specifierList g
    exportedFrom g c found
  | _ =>
    if ← atWord (text "default") then exportDefaultTree g c
    else
      let t ← g.statement c
      require (isDeclaration t)
      pure (inner .exportDeclaration [t])

/-! ## Statements -/

/-- Whether an import begins here that is no expression. -/
def atImport : Parser Bool := do
  if ← atWord (text "import") then
    behindWord do
      let next ← nextChar
      pure (next != some '(' && next != some '.')
  else pure false

/-- A named function or class as a statement. -/
def declarationTree (g : Grammar) (c : Context) : Parser Tree := do
  let isAsync ← atAsyncFunction
  if isAsync then word (text "async")
  if ← atWord (text "class") then
    let t ← classTree g c
    require (t.word != [])
    pure (inner .declaration [t])
  else
    let t ← functionBehind g c isAsync
    require (!t.parts.any fun part => part.kind == .hole)
    pure (inner .declaration [t])

/-- Statements that a fixed word begins. -/
def wordStatements (g : Grammar) (c : Context) : List (Text × Parser Tree) :=
  [(text "if", ifTree g c), (text "for", forTree g c), (text "while", whileTree g c),
    (text "do", doTree g c), (text "continue", jumpTree c), (text "break", jumpTree c),
    (text "debugger", debuggerTree), (text "return", returnTree g c), (text "with", withTree g c),
    (text "switch", switchTree g c), (text "throw", throwTree g c), (text "try", tryTree g c),
    (text "function", declarationTree g c), (text "class", declarationTree g c),
    (text "export", exportTree g c)]

/-- Reads a statement. -/
def statement (g : Grammar) (c : Context) : Parser Tree := do
  match ← nextChar with
  | some '{' => block g c false
  | some ';' =>
    mark [';']
    pure (leaf .empty [])
  | _ =>
    let next ← nextWord
    match (wordStatements g c).lookup next with
    | some p => p
    | none =>
      if ← atVariables then
        let t ← variableList g c.allowIn true
        semicolon
        pure t
      else if ← atAsyncFunction then declarationTree g c
      else if ← atImport then importDeclaration g c
      else expressionStatement g c

end Viewloom.Script
