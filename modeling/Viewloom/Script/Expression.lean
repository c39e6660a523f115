import Viewloom.Script.Parser
import Viewloom.Script.Pattern

/-!
# Expressions

The productions of expressions. Those that contain themselves refer back to a grammar, or count
their rounds.
-/

namespace Viewloom.Script

open Viewloom.Script.Parser Viewloom.Script.Tree

/-! ## Names, keys and templates -/

/-- Reads a name behind a point, which may be private. -/
def memberName : Parser Text := do
  if (← nextChar) == some '#' then token readPrivateName
  else
    let name ← token readName
    pure name.word

/-- Reads the key of a member of an object or a class. -/
def key (g : Grammar) (c : Context) : Parser Tree := do
  match ← nextChar with
  | some '"' | some '\'' =>
    let value ← token readString
    pure (leaf .string value)
  | some '[' =>
    mark ['[']
    let e ← g.assignment c.allowIn
    mark [']']
    pure (inner .computed [e])
  | some '#' =>
    let name ← memberName
    pure (leaf .privateName name)
  | some first =>
    if first.isDigit || first == '.' then
      let spelling ← token readNumber
      pure (leaf .number spelling)
    else
      let name ← token readName
      pure (leaf .identifier name.word)
  | none => fail

/-- Reads the rest of a template behind its first backtick. -/
def templateParts (g : Grammar) (c : Context) : Nat → Parser (List Tree)
  | 0 => fail
  | rounds + 1 => do
    let source ← rawToken readChunk
    if (← nextChar) == some '$' then
      rawChar '$'
      rawChar '{'
      skipGap
      let e ← g.expression c.allowIn
      rawChar '}'
      let rest ← templateParts g c rounds
      pure (leaf .chunk source :: e :: rest)
    else
      rawChar '\x60'
      skipGap
      pure [leaf .chunk source]

/-- Reads a template without a tag. -/
def template (g : Grammar) (c : Context) : Parser Tree := do
  rawChar '\x60'
  let parts ← templateParts g c g.rounds
  pure (inner .template parts)

/-- Reads a template without a tag, every part of which has to denote a text. -/
def untaggedTemplate (g : Grammar) (c : Context) : Parser Tree := do
  let t ← template g c
  require (t.parts.all fun part => part.kind != .chunk || isSoundChunk part.word)
  pure t

/-! ## Functions -/

/-- Reads a declared name or pattern, with its default if there is one. -/
def declared (g : Grammar) (c : Context) : Parser Tree := do
  match ← nextChar with
  | some '[' | some '{' =>
    let t ← g.assignment c
    ofOption (t.toPattern true)
  | _ =>
    let name ← variableName c
    if ← skipMark ['='] then
      let value ← g.assignment c
      pure (inner .withDefault [leaf .identifier name, value])
    else pure (leaf .identifier name)

/-- Reads what three points in front of a declared name or pattern begin. -/
def declaredRest (g : Grammar) (c : Context) : Parser Tree := do
  mark (text "...")
  let target ← declared g c
  ofOption (restOf target)

/-- Reads a parameter, or the rest of them. -/
def param (g : Grammar) (c : Context) : Parser Tree := do
  if ← atMark (text "...") then declaredRest g c else declared g c

/-- Reads parameters with their parentheses. Nothing stands behind a rest. -/
def params (g : Grammar) (c : Context) : Parser Tree := do
  mark ['(']
  let (items, comma) ← commaList [')'] (param g c) g.rounds
  require (restIsLast items && !(comma && items.getLast?.any fun t => t.kind == .rest))
  pure (inner .params items)

/-- The comments that belong to the token behind them: they do not end the line of the token in front
of them. -/
def Source.leadingComments (s : Source) (isFirst : Bool) : List Tree :=
  (s.comments.filter fun d => isFirst || d.afterBreak || !d.beforeBreak).map fun d =>
    leaf (.comment d.afterBreak d.beforeBreak) d.source

/-- A statement that is only a string is a directive where directives may stand. -/
def asDirective (s : Text) (statement : Tree) : Tree :=
  match statement, s with
  | .node .expression _ [.node .string _ _], quote :: s =>
    match readQuoted quote s with
    | some (source, _) => leaf .directive source
    | none => statement
  | _, _ => statement

/-- Reads statements up to a closing brace, the end of the script or the next case of a switch. -/
def statementList (g : Grammar) (c : Context) (isFirst prologue : Bool) : Nat → Parser (List Tree)
  | 0 => fail
  | rounds + 1 => do
    let s ← source
    let next ← nextWord
    if s.rest == [] || s.rest.head? == some '}' || next == text "case" || next == text "default" then
      pure []
    else
      let statement ← g.statement c
      let statement := if prologue then asDirective s.rest statement else statement
      let rest ← statementList g c false (prologue && statement.kind == .directive) rounds
      match s.leadingComments isFirst with
      | [] => pure (statement :: rest)
      | comments => pure (inner .noted (comments ++ [statement]) :: rest)

/-- Reads statements in braces. -/
def block (g : Grammar) (c : Context) (prologue : Bool) : Parser Tree := do
  mark ['{']
  let statements ← statementList g c.nested false prologue g.rounds
  mark ['}']
  pure (inner .block statements)

/-- Reads the parameters and the body of a function. -/
def functionParts (g : Grammar) (isAsync isGenerator : Bool) : Parser (List Tree) := do
  let c := Context.ofFunction isAsync isGenerator
  let ps ← params g c
  let body ← block g c true
  pure [ps, body]

/-- Reads a function behind the words in front of it. -/
def functionBehind (g : Grammar) (c : Context) (isAsync : Bool) : Parser Tree := do
  word (text "function")
  let isGenerator ← skipMark ['*']
  let head := (if isAsync then text "async " else []) ++ text "function" ++
    if isGenerator then ['*'] else []
  if ← atMark ['('] then
    let parts ← functionParts g isAsync isGenerator
    pure (.node .function head (hole :: parts))
  else
    let name ← variableName c
    let parts ← functionParts g isAsync isGenerator
    pure (.node .function head (leaf .identifier name :: parts))

/-- Whether an asynchronous function begins here. -/
def atAsyncFunction : Parser Bool := do
  if ← atWord (text "async") then
    behindWord do
      let ends ← hasBreak
      let next ← nextWord
      pure (!ends && next == text "function")
  else pure false

/-! ## Members of objects and classes -/

/-- The words in front of a key. -/
structure Head where
  words : Text
  isAsync : Bool
  isGenerator : Bool

/-- Whether the key of a member ends here. -/
def endsKey : Parser Bool := do
  match ← nextChar with
  | none => pure true
  | some c => pure ((text ",:(\x7d=;").contains c)

/-- Reads the words in front of a key. They are the key itself if nothing of a key follows. -/
def memberHead : Parser Head := do
  let next ← nextWord
  if next == text "get" || next == text "set" then
    if ← behindWord endsKey then pure ⟨[], false, false⟩
    else
      word next
      pure ⟨next ++ [' '], false, false⟩
  else if next == text "async" then
    let isKey ← behindWord do
      let ends ← endsKey
      let breaks ← hasBreak
      pure (ends || breaks)
    if isKey then pure ⟨[], false, false⟩
    else
      word next
      let isGenerator ← skipMark ['*']
      pure ⟨text "async " ++ if isGenerator then ['*'] else [], true, isGenerator⟩
  else
    let isGenerator ← skipMark ['*']
    pure ⟨if isGenerator then ['*'] else [], false, isGenerator⟩

/-- Whether a method has the parameters it needs: one that gets a value has none, and one that sets it
has the value. -/
def fitsHead (head : Head) (ps : Tree) : Bool :=
  if head.words == text "get " then ps.parts.isEmpty
  else if head.words == text "set " then
    match ps.parts with
    | [p] => p.kind != .rest
    | _ => false
  else true

/-- Reads the parameters and the body of a method behind its key. -/
def methodParts (g : Grammar) (head : Head) : Parser (List Tree) := do
  let parts ← functionParts g head.isAsync head.isGenerator
  require ((parts.take 1).all (fitsHead head))
  pure parts

/-- Reads a member of an object. -/
def objectMember (g : Grammar) (c : Context) : Parser Tree := do
  if ← skipMark (text "...") then
    let e ← g.assignment c.allowIn
    pure (inner .spread [e])
  else
    let head ← memberHead
    let name ← key g c
    require (name.kind != .privateName)
    if ← atMark ['('] then
      let parts ← methodParts g head
      pure (.node .method head.words (name :: parts))
    else if head.words != [] then fail
    else if ← skipMark [':'] then
      let value ← g.assignment c.allowIn
      pure (inner .property [name, value])
    else
      require (name.kind == .identifier && isVariableName c name.word)
      if ← skipMark ['='] then
        let value ← g.assignment c.allowIn
        pure (.node .preset name.word [value])
      else pure (leaf .shorthand name.word)

/-- Whether the word `static` stands in front of a member and is not its key. -/
def atStatic : Parser Bool := do
  if ← atWord (text "static") then
    let ends ← behindWord endsKey
    pure !ends
  else pure false

/-- Whether a key is a fixed name. -/
def isNamed (key : Tree) (name : Text) : Bool :=
  (key.kind == .identifier || key.kind == .string) && key.word == name

/-- Whether a class may have a method of a name: the constructor is a plain method, and a class has a
prototype of its own. -/
def allowsMethod (isStatic : Bool) (head : Head) (key : Tree) : Bool :=
  if isStatic then !isNamed key (text "prototype")
  else !isNamed key (text "constructor") || head.words == []

/-- Whether a class may have a field of a name. -/
def allowsField (isStatic : Bool) (key : Tree) : Bool :=
  !isNamed key (text "constructor") && !(isStatic && isNamed key (text "prototype"))

/-- Reads a member of a class. -/
def classMember (g : Grammar) (c : Context) : Parser Tree := do
  let isStatic ← atStatic
  if isStatic then word (text "static")
  if isStatic && (← atMark ['{']) then
    let body ← block g Context.ofInitializer false
    pure (inner .staticBlock [body])
  else
    let head ← memberHead
    let words := (if isStatic then text "static " else []) ++ head.words
    let name ← key g c
    require (name.kind != .privateName || name.word != text "#constructor")
    if ← atMark ['('] then
      require (allowsMethod isStatic head name)
      let parts ← methodParts g head
      pure (.node .method words (name :: parts))
    else
      require (head.words == [] && allowsField isStatic name)
      let value ← do
        if ← skipMark ['='] then g.assignment Context.ofInitializer else pure hole
      semicolon
      pure (.node .field words [name, value])

/-- Reads the members of a class up to its closing brace. -/
def classMembers (g : Grammar) (c : Context) : Nat → Parser (List Tree)
  | 0 => fail
  | rounds + 1 => do
    if ← skipMark ['}'] then pure []
    else if ← skipMark [';'] then classMembers g c rounds
    else
      let member ← classMember g c
      let rest ← classMembers g c rounds
      pure (member :: rest)

/-- Whether an expression binds as tightly as a call does. -/
def bindsTightly (t : Tree) : Bool :=
  let loose : List Kind :=
    [.unary, .stepBefore, .stepAfter, .binary, .conditional, .assignment, .arrow, .await, .yield,
      .closedElement, .element, .fragment]
  !loose.contains t.kind

/-- Reads a class. -/
def classTree (g : Grammar) (c : Context) : Parser Tree := do
  word (text "class")
  let next ← nextWord
  let name ← do
    if next == text "extends" || (← atMark ['{']) then pure [] else variableName c
  let parent ← do
    if ← skipWord (text "extends") then
      let e ← g.assignment c
      require (bindsTightly e)
      pure e
    else pure hole
  mark ['{']
  let members ← classMembers g c g.rounds
  pure (.node .classBody name (parent :: members))

/-! ## Primary expressions -/

/-- Reads an expression in parentheses, or the parameters of an arrow. -/
def group (g : Grammar) (c : Context) : Parser Tree := do
  mark ['(']
  let item : Parser Tree := do
    if ← atMark (text "...") then declaredRest g c else g.assignment c.allowIn
  let (items, comma) ← commaList [')'] item g.rounds
  if comma || items.any fun t => t.kind == .rest then
    require (!(comma && items.getLast?.any fun t => t.kind == .rest))
    pure (inner .cover items)
  else
    match items with
    | [e] => pure (inner .group [e])
    | es => pure (inner .group [inner .sequence es])

/-- Reads an item that may stand for many. -/
def spreadOr (g : Grammar) (c : Context) : Parser Tree := do
  if ← skipMark (text "...") then
    let e ← g.assignment c.allowIn
    pure (inner .spread [e])
  else g.assignment c.allowIn

/-- Reads an array, whose holes and last comma are kept. -/
def array (g : Grammar) (c : Context) : Parser Tree := do
  mark ['[']
  let item : Parser Tree := do
    if ← atMark [','] then pure hole else spreadOr g c
  let (items, comma) ← commaList [']'] item g.rounds
  pure (.node .array (if comma then [','] else []) items)

/-- Reads an object. Its last comma is kept, since none may follow the rest of a pattern. -/
def object (g : Grammar) (c : Context) : Parser Tree := do
  mark ['{']
  let (items, comma) ← commaList ['}'] (objectMember g c) g.rounds
  pure (.node .object (if comma then [','] else []) items)

/-- Reads arguments with their parentheses. -/
def arguments (g : Grammar) (c : Context) : Parser (List Tree) := do
  mark ['(']
  let (items, _) ← commaList [')'] (spreadOr g c) g.rounds
  pure items

/-- Reads `import` as an expression. -/
def importTree (g : Grammar) (c : Context) : Parser Tree := do
  word (text "import")
  if ← skipMark ['.'] then
    word (text "meta")
    pure (leaf .keyword (text "import.meta"))
  else
    let items ← arguments g c
    require ((items.length == 1 || items.length == 2) && items.all fun t => t.kind != .spread)
    pure (inner .load items)

/-- Words that are expressions. -/
def constants : List Text := [text "this", text "null", text "true", text "false"]

/-- Reads an expression that begins with a name. -/
def wordTree (g : Grammar) (c : Context) : Parser Tree := do
  let next ← nextWord
  if constants.contains next then
    word next
    pure (leaf .keyword next)
  else if next == text "function" then functionBehind g c false
  else if next == text "class" then classTree g c
  else if next == text "import" then importTree g c
  else if next == text "super" then
    word next
    let mark ← nextMark
    require (mark == ['.'] || mark == ['['] || mark == ['('])
    pure (leaf .keyword next)
  else if ← atAsyncFunction then
    word next
    functionBehind g c true
  else
    let name ← variableName c
    pure (leaf .identifier name)

/-- Reads an expression that begins with neither another expression nor an operator. -/
def primary (g : Grammar) (c : Context) : Parser Tree := do
  match ← nextChar with
  | none => fail
  | some '"' | some '\'' =>
    let value ← token readString
    pure (leaf .string value)
  | some '\x60' => untaggedTemplate g c
  | some '(' => group g c
  | some '[' => array g c
  | some '{' => object g c
  | some '/' =>
    let source ← token readRegex
    pure (leaf .regex source)
  | some '#' =>
    let name ← memberName
    let follows ← atWord (text "in")
    require (follows && !c.withoutIn)
    pure (leaf .privateName name)
  | some first =>
    if first.isDigit || first == '.' then
      let spelling ← token readNumber
      pure (leaf .number spelling)
    else wordTree g c

/-! ## Calls and members -/

/-- Reads what follows an optional mark. -/
def optionalPart (g : Grammar) (c : Context) (t : Tree) : Parser Tree := do
  match ← nextChar with
  | some '(' =>
    let items ← arguments g c
    pure (inner (.call true) (t :: items))
  | some '[' =>
    mark ['[']
    let e ← g.expression c.allowIn
    mark [']']
    pure (inner (.index true) [t, e])
  | _ =>
    let name ← memberName
    pure (.node (.member true) name [t])

/-- Reads members and calls behind an expression. A chain with an optional part has no templates in
it, and the callee of `new` has no calls. -/
def suffixes (g : Grammar) (c : Context) (calls inChain : Bool) : Nat → Tree → Parser Tree
  | 0, _ => fail
  | rounds + 1, t => do
    match ← nextChar with
    | some '.' =>
      mark ['.']
      let name ← memberName
      suffixes g c calls inChain rounds (.node (.member false) name [t])
    | some '[' =>
      mark ['[']
      let e ← g.expression c.allowIn
      mark [']']
      suffixes g c calls inChain rounds (inner (.index false) [t, e])
    | some '(' =>
      if calls then
        let items ← arguments g c
        suffixes g c calls inChain rounds (inner (.call false) (t :: items))
      else pure t
    | some '?' =>
      if ← atMark (text "?.") then
        require calls
        mark (text "?.")
        let t ← optionalPart g c t
        suffixes g c calls true rounds t
      else pure t
    | some '\x60' =>
      require !inChain
      let quasi ← template g c
      suffixes g c calls inChain rounds (inner .tagged [t, quasi])
    | _ => pure t

/-- Reads an expression that begins with `new`. -/
def newTree (g : Grammar) (c : Context) : Nat → Parser Tree
  | 0 => fail
  | rounds + 1 => do
    word (text "new")
    if ← skipMark ['.'] then
      word (text "target")
      pure (leaf .keyword (text "new.target"))
    else
      let base ← do
        if ← atWord (text "new") then newTree g c rounds else primary g c
      require (base.kind != .load)
      let callee ← suffixes g c false false g.rounds base
      let items ← do
        if ← atMark ['('] then arguments g c else pure []
      pure (inner .new (callee :: items))

/-- Reads an expression up to the members and calls behind it. -/
def access (g : Grammar) (c : Context) : Parser Tree := do
  let base ← do
    if ← atWord (text "new") then newTree g c g.rounds else primary g c
  suffixes g c true false g.rounds base

/-! ## Operators -/

/-- The operators in front of an operand that are signs. -/
def unaryMarks : List Text := [['+'], ['-'], ['~'], ['!']]

def stepMarks : List Text := [text "++", text "--"]

/-- The operators in front of an operand that are words. -/
def unaryWords : List Text := [text "delete", text "void", text "typeof"]

/-- Reads an expression that may be stepped. -/
def stepped (g : Grammar) (c : Context) : Parser Tree := do
  let t ← access g c
  let next ← nextMark
  if stepMarks.contains next && !(← hasBreak) then
    require t.isSimpleTarget
    mark next
    pure (.node .stepAfter next [t])
  else pure t

/-- Reads an operand with the operators in front of it. -/
def operand (g : Grammar) (c : Context) : Nat → Parser Tree
  | 0 => fail
  | rounds + 1 => do
    let next ← nextMark
    let name ← nextWord
    if unaryMarks.contains next then
      mark next
      let t ← operand g c rounds
      pure (.node .unary next [t])
    else if stepMarks.contains next then
      mark next
      let t ← operand g c rounds
      require t.isSimpleTarget
      pure (.node .stepBefore next [t])
    else if next.head? == some '<' then
      let t ← g.element c
      skipGap
      pure t
    else if unaryWords.contains name then
      word name
      let t ← operand g c rounds
      pure (.node .unary name [t])
    else if c.canAwait && name == text "await" then
      word name
      let t ← operand g c rounds
      pure (inner .await [t])
    else stepped g c

/-- How tightly each binary operator binds. -/
def binaryOperators : List (Text × Nat) :=
  [(text "??", 1), (text "||", 2), (text "&&", 3), (['|'], 4), (['^'], 5), (['&'], 6),
    (text "==", 7), (text "!=", 7), (text "===", 7), (text "!==", 7), (['<'], 8), (['>'], 8),
    (text "<=", 8), (text ">=", 8), (text "<<", 9), (text ">>", 9), (text ">>>", 9), (['+'], 10),
    (['-'], 10), (['*'], 11), (['/'], 11), (['%'], 11), (text "**", 12)]

/-- The next binary operator and how tightly it binds. -/
def nextOperator (c : Context) : Parser (Option (Text × Nat)) := do
  let name ← nextWord
  if name == text "instanceof" || name == text "in" && !c.withoutIn then pure (some (name, 8))
  else
    let next ← nextMark
    pure ((binaryOperators.lookup next).map fun level => (next, level))

/-- Whether an expression is a binary operation with one of several operators. -/
def isOperation (operators : List Text) (t : Tree) : Bool :=
  t.kind == .binary && operators.contains t.word

/-- Joins two operands. The operator `??` does not mix with `||` and `&&`, and `**` has no operator
in front of its left operand. -/
def operation (operator : Text) (left right : Tree) : Option Tree :=
  let either := [text "||", text "&&"]
  if operator == text "??" && (isOperation either left || isOperation either right) then none
  else if either.contains operator &&
    (isOperation [text "??"] left || isOperation [text "??"] right) then none
  else if operator == text "**" && (left.kind == .unary || left.kind == .await) then none
  else some (.node .binary operator [left, right])

/-- Reads the operators behind an operand that bind at least as tightly as given. -/
def operations (g : Grammar) (c : Context) : Nat → Nat → Tree → Parser Tree
  | 0, _, _ => fail
  | rounds + 1, lowest, left => do
    match ← nextOperator c with
    | none => pure left
    | some (operator, level) =>
      if level < lowest then pure left
      else
        if operator == text "in" || operator == text "instanceof" then word operator
        else mark operator
        let first ← operand g c g.rounds
        let right ← operations g c rounds (if level == 12 then 12 else level + 1) first
        let joined ← ofOption (operation operator left right)
        operations g c rounds lowest joined

/-- Reads an expression without assignments, arrows and commas. -/
def conditional (g : Grammar) (c : Context) : Parser Tree := do
  let first ← operand g c g.rounds
  let test ← operations g c g.rounds 0 first
  if ← skipMark ['?'] then
    let yes ← g.assignment c.allowIn
    mark [':']
    let no ← g.assignment c
    pure (inner .conditional [test, yes, no])
  else pure test

/-- Operators that assign what an operation gives. -/
def assigningMarks : List Text :=
  [text "+=", text "-=", text "*=", text "/=", text "%=", text "**=", text "<<=", text ">>=",
    text ">>>=", text "&=", text "|=", text "^=", text "&&=", text "||=", text "??="]

/-- Reads the body of an arrow behind its parameters. -/
def arrowBehind (g : Grammar) (c : Context) (isAsync : Bool) (ps : Tree) : Parser Tree := do
  mark (text "=>")
  let inside := Context.ofFunction isAsync false
  let body ← do
    if ← atMark ['{'] then block g inside true
    else g.assignment { inside with withoutIn := c.withoutIn }
  pure (.node .arrow (if isAsync then text "async" else []) [ps, body])

/-- Whether an asynchronous arrow with one bare parameter begins here. -/
def atAsyncArrow : Parser Bool := do
  if ← atWord (text "async") then
    behindWord do
      let ends ← hasBreak
      let name ← nextWord
      if ends || name == [] || reservedWords.contains name then pure false
      else behindWord (atMark (text "=>"))
  else pure false

/-- Whether a line ends behind the word `async`, which is then a name. -/
def breaksAsync : Parser Bool := do
  if ← atWord (text "async") then behindWord hasBreak else pure false

/-- Whether `yield` stands without a value here. -/
def endsYield : Parser Bool := do
  if ← hasBreak then pure true
  else
    let name ← nextWord
    match ← nextChar with
    | none => pure true
    | some next => pure ((text ")]\x7d,;:").contains next || name == text "in" || name == text "of")

/-- Reads what a generator yields. -/
def yieldTree (g : Grammar) (c : Context) : Parser Tree := do
  word (text "yield")
  if ← endsYield then pure (inner .yield [])
  else
    let all ← skipMark ['*']
    let e ← g.assignment c
    pure (.node .yield (if all then ['*'] else []) [e])

/-- Reads an expression without commas. -/
def assignment (g : Grammar) (c : Context) : Parser Tree := do
  if c.inGenerator && (← atWord (text "yield")) then yieldTree g c
  else if ← atAsyncArrow then
    word (text "async")
    let name ← variableName c
    arrowBehind g c true (inner .params [leaf .identifier name])
  else
    let breaks ← breaksAsync
    let left ← conditional g c
    let next ← nextMark
    if next == text "=>" then
      require !(← hasBreak)
      let (isAsync, ps) ← ofOption left.toParams
      require !(isAsync && breaks)
      arrowBehind g c isAsync ps
    else if next == ['='] then
      let target ← ofOption (left.toPattern false)
      mark next
      let value ← g.assignment c
      pure (.node .assignment next [target, value])
    else if assigningMarks.contains next then
      require left.isSimpleTarget
      mark next
      let value ← g.assignment c
      pure (.node .assignment next [left.ungrouped, value])
    else pure left

end Viewloom.Script
