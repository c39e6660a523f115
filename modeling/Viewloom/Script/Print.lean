import Viewloom.Script.Layout
import Viewloom.Script.Module
import Viewloom.Script.Number

/-!
# Printed scripts

One form for every script: tabs, strings in double quotes, a semicolon behind each statement, the
least spelling of numbers, and parentheses only where they are needed.
-/

namespace Viewloom.Script

open Laid

/-! ## Strings -/

/-- Characters that are written as escapes in a string. -/
def stringEscapes : List (Nat × Text) :=
  [(7, text "\\x07"), (8, text "\\b"), (10, text "\\n"), (11, text "\\v"), (12, text "\\f"),
    (13, text "\\r"), (0x1b, text "\\x1B"), (0x22, text "\\\""), (0x5c, text "\\\\"),
    (0xa0, text "\\xA0"), (0x2028, text "\\u2028"), (0x2029, text "\\u2029")]

/-- Writes the characters of a string. A closing script tag is broken up, and a null in front of a
digit is written in full. -/
def escapeString : Text → Text
  | [] => []
  | c :: s =>
    if c.toNat = 0 then
      (if s.head?.any Char.isDigit then text "\\x00" else text "\\0") ++ escapeString s
    else if c = '<' ∧ Text.equalsIgnoreCaseAscii (s.take 7) (text "/script") = true then
      '<' :: '\\' :: escapeString s
    else (stringEscapes.lookup c.toNat).getD [c] ++ escapeString s

/-- A string in double quotes, whichever it has been read from. -/
def writeString (value : Text) : Text := '"' :: escapeString value ++ ['"']

/-- The first quote in the source of a string that no backslash stands in front of. -/
def firstQuote : Text → Option Char
  | [] => none
  | '\\' :: _ :: s => firstQuote s
  | c :: s => if c = '"' ∨ c = '\'' then some c else firstQuote s

/-- Writes the source of a directive in double quotes, unless the first quote in it is one. -/
def writeDirective (source : Text) : Text :=
  if firstQuote source = some '"' then '\'' :: source ++ text "';" else '"' :: source ++ text "\";"

/-- Writes a quoted attribute value in double quotes, unless it holds one. -/
def writeQuoted (source : Text) : Text :=
  let value := (source.drop 1).dropLast
  if value.contains '"' then '\'' :: value ++ ['\''] else '"' :: value ++ ['"']

/-! ## Literals -/

/-- Whether the text of a number needs a blank in front of a point. -/
def needsBlank (spelling : Text) : Bool :=
  !spelling.any fun c => c == '.' || c == 'e' || c == 'x' || c == 'n' || c == 'y'

/-- An object or a pattern of one. More than one member takes a line each. -/
def layObject (kind : Kind) (places : List Place) (ts : List Laid) : Laid :=
  guarded kind places fun depth =>
    match ts with
    | [] => text "\x7b\x7d"
    | [t] => text "\x7b " ++ t.above itemLevel depth ++ text " \x7d"
    | ts => '{' :: listedLines ts depth ++ ['}']

/-- More than two items of an array stand on lines of their own. -/
def layArray (ts : List Laid) : Laid :=
  solid .array [] fun depth =>
    let last : Text := if ts.getLast?.any isHole then [','] else []
    if 2 < ts.length then '[' :: '\n' ::
      List.intercalate (text ",\n") (ts.map fun t => tabs (depth + 1) ++ t.above itemLevel (depth + 1)) ++
        last ++ '\n' :: tabs depth ++ [']']
    else '[' :: listed ts depth ++ last ++ [']']

/-- A pattern of an array stands on one line. -/
def layArrayPattern (ts : List Laid) : Laid :=
  solid .arrayPattern [] fun depth =>
    '[' :: listed ts depth ++ (if ts.getLast?.any isHole then [','] else []) ++ [']']

/-- A pattern of an object stands on one line. -/
def layObjectPattern (ts : List Laid) : Laid :=
  solid .objectPattern [] fun depth =>
    if ts.isEmpty then text "\x7b\x7d" else text "\x7b " ++ listed ts depth ++ text " \x7d"

/-- A key and a value, of which one is enough if both are the same name. -/
def layProperty (key value : Laid) : Laid :=
  solid .property [] fun depth =>
    if key.kind = .identifier ∧ key.word = value.word ∧ key.word ≠ text "__proto__" ∧
      (value.kind = .identifier ∨ value.kind = .withDefault) then value.above itemLevel depth
    else key.plain depth ++ text ": " ++ value.above itemLevel depth

/-- The inside of a template, whose texts and values take turns. -/
def layTemplate : List Laid → Nat → Text
  | [], _ => []
  | [chunk], depth => chunk.plain depth
  | chunk :: e :: ts, depth =>
    chunk.plain depth ++ text "$\x7b" ++ e.plain depth ++ '}' :: layTemplate ts depth

/-! ## Functions and classes -/

/-- A method behind its words. -/
def layMethod (head : Text) (key params body : Laid) : Laid :=
  solid .method [] fun depth =>
    head ++ key.plain depth ++ params.plain depth ++ ' ' :: body.plain depth

/-- A function, which is enclosed where a statement or an export begins. -/
def layFunction (head : Text) (name params body : Laid) : Laid :=
  guarded .function [.statement, .exported] fun depth =>
    head ++ (if name.isHole then [] else ' ' :: name.plain depth) ++ params.plain depth ++ ' ' ::
      body.plain depth

/-- A function with an arrow. An object behind the arrow is enclosed. -/
def layArrow (head : Text) (params body : Laid) : Laid :=
  ⟨.arrow, [], assignmentLevel, .no, fun _ depth =>
    (if head = [] then [] else head ++ [' ']) ++ params.plain depth ++ text " => " ++
      body.writeAt itemLevel .arrow depth⟩

/-- A class, which is enclosed where a statement or an export begins. -/
def layClass (name : Text) (parent : Laid) (members : List Laid) : Laid :=
  guarded .classBody [.statement, .exported] fun depth =>
    text "class" ++ (if name = [] then [] else ' ' :: name) ++
      (if parent.isHole then [] else text " extends " ++ parent.above newLevel depth) ++
      ' ' :: braced members depth

/-- A field of a class. -/
def layField (head : Text) (key value : Laid) : Laid :=
  solid .field [] fun depth =>
    head ++ key.plain depth ++
      (if value.isHole then [] else text " = " ++ value.above itemLevel depth) ++ [';']

/-- Parentheses around a function stay, since it may be meant to be called at once. Those around
anything else are written anew. -/
def layGroup (t : Laid) : Laid :=
  if t.kind = .function ∨ t.kind = .arrow then
    solid .group [] fun depth => parenthesized (t.plain depth)
  else { t with chain := if t.chain = .no then .no else .closed }

/-! ## Operators -/

/-- Whether an operator is a word, which needs a blank behind it. -/
def isWord (operator : Text) : Bool := operator.any Char.isAlpha

/-- An operator in front of its operand, apart from it where both would run together. -/
def layUnary (operator : Text) (t : Laid) : Laid :=
  ⟨.unary, operator, unaryLevel, .no, fun _ depth =>
    let operand := t.above unaryLevel depth
    let blank := isWord operator || operator.head? == operand.head? &&
      (operator == ['+'] || operator == ['-'])
    operator ++ (if blank then [' '] else []) ++ operand⟩

/-- Whether an operand of `??` needs parentheses although it binds more tightly. -/
def mixes (operator : Text) (t : Laid) : Bool :=
  operator == text "??" && t.kind == .binary && (t.word == text "||" || t.word == text "&&")

/-- An operator between its operands, which are enclosed where they bind less. -/
def layBinary (operator : Text) (left right : Laid) : Laid :=
  let level := (operatorLevels.lookup operator).getD 0
  let isPower := level == exponentLevel
  ⟨.binary, operator, level, .no, fun place depth =>
    (if mixes operator left then parenthesized (left.plain depth)
      else left.writeAt (if isPower then stepLevel else level) place depth) ++
      ' ' :: operator ++ ' ' ::
      (if mixes operator right then parenthesized (right.plain depth)
        else right.above (if isPower then level else level + 1) depth)⟩

/-- A choice between two expressions. -/
def layConditional (test yes no : Laid) : Laid :=
  ⟨.conditional, [], conditionalLevel, .no, fun place depth =>
    test.writeAt (conditionalLevel + 1) place depth ++ text " ? " ++ yes.above itemLevel depth ++
      text " : " ++ no.above itemLevel depth⟩

/-- An assignment. An object that begins a statement is enclosed. -/
def layAssignment (operator : Text) (target value : Laid) : Laid :=
  ⟨.assignment, operator, assignmentLevel, .no, fun place depth =>
    let s := target.writeAt 0 place depth ++ ' ' :: operator ++ ' ' :: value.above itemLevel depth
    if target.kind = .objectPattern ∧ (place = .statement ∨ place = .arrow) then parenthesized s
    else s⟩

/-- Expressions with commas between them. -/
def laySequence (ts : List Laid) : Laid :=
  ⟨.sequence, [], sequenceLevel, .no, fun place depth =>
    match ts with
    | [] => []
    | t :: ts =>
      t.writeAt itemLevel place depth ++ ts.flatMap fun t => text ", " ++ t.above itemLevel depth⟩

/-! ## Members and calls -/

/-- The object of a member or the callee of a call. -/
def layBase (t : Laid) (place : Place) (depth : Nat) : Text :=
  if t.chain = .closed then parenthesized (t.plain depth) else t.writeAt newLevel place depth

/-- Whether an expression belongs to a chain that an optional member or call has opened. -/
def chainOf (isOptional : Bool) (base : Laid) : Chain :=
  if isOptional ∨ base.chain = .opened then .opened else .no

/-- A member by its name. A number without a point needs a blank in front of the point. -/
def layMember (isOptional : Bool) (name : Text) (base : Laid) : Laid :=
  ⟨.member isOptional, [], memberLevel, chainOf isOptional base, fun place depth =>
    let s := layBase base place depth
    s ++ (if base.kind = .number ∧ needsBlank s then [' '] else []) ++
      (if isOptional then text "?." else ['.']) ++ name⟩

/-- A member by an expression in brackets. -/
def layIndex (isOptional : Bool) (base index : Laid) : Laid :=
  ⟨.index isOptional, [], memberLevel, chainOf isOptional base, fun place depth =>
    layBase base place depth ++ (if isOptional then text "?.[" else ['[']) ++
      index.plain depth ++ [']']⟩

/-- A call with its arguments. -/
def layCall (isOptional : Bool) (callee : Laid) (ts : List Laid) : Laid :=
  ⟨.call isOptional, [], callLevel, chainOf isOptional callee, fun place depth =>
    let inside : Place := if place = .callee then .inner else place
    let s := layBase callee inside depth ++ (if isOptional then text "?." else []) ++
      parenthesized (listed ts depth)
    if place = .callee then parenthesized s else s⟩

/-- A construction, whose class is enclosed if it holds a call. -/
def layNew (callee : Laid) (ts : List Laid) : Laid :=
  ⟨.new, [], callLevel, .no, fun _ depth =>
    text "new " ++
      (if callee.chain = .no then callee.writeAt newLevel .callee depth
        else parenthesized (callee.plain depth)) ++ parenthesized (listed ts depth)⟩

/-! ## Elements -/

/-- An element with content, printed as it has been read. -/
def layElement (name : Text) (attributes : Laid) (children : List Laid) : Laid :=
  ⟨.element, [], unaryLevel, .no, fun _ depth =>
    '<' :: name ++ attributes.plain depth ++ '>' ::
      (children.flatMap fun t => t.plain depth) ++ text "</" ++ name ++ ['>']⟩

/-- An attribute of an element. -/
def layAttribute (name : Text) : List Laid → Laid
  | [] => solid .attribute name fun _ => name
  | value :: _ => solid .attribute name fun depth => name ++ '=' :: value.plain depth

/-- An expression among the content or the attributes of an element. -/
def layContainer (ts : List Laid) : Laid :=
  solid .container [] fun depth =>
    '{' :: (ts.flatMap fun t => t.above itemLevel depth) ++ ['}']

/-! ## Statements -/

/-- Writes a statement behind the head of another one. -/
def layBody (t : Laid) (depth : Nat) : Text :=
  if t.kind = .empty then [';'] else ' ' :: t.write .statement depth

/-- Whether an `else` behind a statement would belong to it. -/
def endsOpen (t : Laid) : Bool := t.word == text "open"

/-- An alternative stands behind the brace of a block, and on a line of its own behind any other
statement. A statement that an `else` could belong to is put into a block. -/
def layBranch (test yes : Laid) (no : Option Laid) : Laid :=
  let isOpen := match no with
    | none => true
    | some no => endsOpen no
  ⟨.branch, if isOpen then text "open" else [], 0, .no, fun _ depth =>
    text "if (" ++ test.plain depth ++ [')'] ++
      match no with
      | none => layBody yes depth
      | some no =>
        let alternative := text "else" ++ layBody no depth
        if yes.kind = .block then layBody yes depth ++ ' ' :: alternative
        else if endsOpen yes then ' ' :: braced [yes] depth ++ ' ' :: alternative
        else layBody yes depth ++ '\n' :: tabs depth ++ alternative⟩

/-- A statement with a body, given its head. -/
def layLoop (kind : Kind) (head : Nat → Text) (inside : Laid) : Laid :=
  ⟨kind, if endsOpen inside then text "open" else [], 0, .no, fun _ depth =>
    head depth ++ layBody inside depth⟩

/-- A loop with its test behind it. -/
def layDo (inside test : Laid) : Laid :=
  solid .doLoop [] fun depth =>
    text "do" ++
      (if inside.kind = .block then layBody inside depth ++ [' ']
        else '\n' :: tabs (depth + 1) ++ inside.write .statement (depth + 1) ++ '\n' :: tabs depth) ++
      text "while (" ++ test.plain depth ++ text ");"

/-- A part behind a blank, if there is one. -/
def layClause (t : Laid) (depth : Nat) : Text := if t.isHole then [] else ' ' :: t.plain depth

/-- A guarded block, with what handles its failure and what comes last. -/
def layAttempt (inside handler last : Laid) : Laid :=
  solid .attempt [] fun depth =>
    text "try" ++ layBody inside depth ++
      (if handler.isHole then [] else ' ' :: handler.plain depth) ++
      (if last.isHole then [] else text " finally" ++ layBody last depth)

/-- Writes the target of a loop over a sequence. The name `async` would begin a function there. -/
def layTarget (t : Laid) (depth : Nat) : Text :=
  if t.kind = .identifier ∧ t.word = text "async" then parenthesized (t.plain depth)
  else t.plain depth

/-- A case with one statement stands on one line. -/
def layCase (test : Laid) (ts : List Laid) : Laid :=
  solid .case [] fun depth =>
    (if test.isHole then text "default:" else text "case " ++ test.plain depth ++ [':']) ++
      match ts with
      | [t] => layBody t depth
      | ts => lines ts (depth + 1)

/-- Writes comments in front of a statement. -/
def layNoted : List Laid → Nat → Text
  | [], _ => []
  | [t], depth => t.write .statement depth
  | t :: ts, depth =>
    let isLast := ts.length == 1
    let breaks := match t.kind with
      | .comment _ before => before
      | _ => false
    t.plain depth ++
      (if breaks then '\n' :: tabs depth else if isLast then [' '] else []) ++ layNoted ts depth

/-- A declaration of variables without its end. -/
def layVariables (introducer : Text) (ts : List Laid) : Laid :=
  ⟨.variable, introducer, 0, .no, fun place depth =>
    introducer ++ ' ' :: listed ts depth ++ if place = .statement then [';'] else []⟩

/-- The names in the braces of an import or an export. -/
def layModuleNames (ts : List Laid) (depth : Nat) : Text :=
  List.intercalate (text ", ") (ts.map fun t => t.plain depth)

/-- Writes a module name and the attributes behind it. -/
def layFrom : List Laid → Nat → Text
  | [name], depth => name.plain depth ++ [';']
  | name :: attributes :: _, depth =>
    name.plain depth ++ text " with " ++ attributes.plain depth ++ [';']
  | [], _ => [';']

/-- An import, given what it brings and then the module. -/
def layImport (ts : List Laid) : Laid :=
  let isClause : Laid → Bool := fun t =>
    t.kind == .identifier || t.kind == .specifiers || t.kind == .namespaceName
  let clauses := ts.takeWhile isClause
  let rest := ts.dropWhile isClause
  solid .importing [] fun depth =>
    text "import " ++
      (if clauses.isEmpty then [] else layModuleNames clauses depth ++ text " from ") ++
      layFrom rest depth

/-- An export of everything, given its name or a hole and then the module. -/
def layExportAll (name : Laid) (ts : List Laid) : Laid :=
  solid .exportAll [] fun depth =>
    text "export *" ++ (if name.isHole then [] else text " as " ++ name.plain depth) ++
      text " from " ++ layFrom ts depth

/-- What a default export exports, without the end of the statement. -/
def layExportDefault (t : Laid) : Laid :=
  solid .exportDefault [] fun depth =>
    text "export default " ++
      if t.kind = .declaration then t.plain depth else t.writeAt itemLevel .exported depth ++ [';']

/-! ## Trees -/

/-- An expression or a part of one, given its laid out parts. -/
def layExpression (kind : Kind) (word : Text) (ts : List Laid) : Laid :=
  match kind, ts with
  | .number, _ => solid kind [] fun _ => respell word
  | .string, _ => solid kind [] fun _ => writeString word
  | .hole, _ => solid kind [] fun _ => []
  | .template, ts => solid kind [] fun depth => '\x60' :: layTemplate ts depth ++ ['\x60']
  | .tagged, [tag, quasi] =>
    ⟨kind, [], memberLevel, .no, fun place depth => layBase tag place depth ++ quasi.plain depth⟩
  | .array, ts => layArray ts
  | .arrayPattern, ts => layArrayPattern ts
  | .object, ts => layObject kind [.statement, .arrow] ts
  | .objectPattern, ts => layObjectPattern ts
  | .property, [key, value] => layProperty key value
  | .computed, [t] => solid kind [] fun depth => '[' :: t.above itemLevel depth ++ [']']
  | .method, [key, params, body] => layMethod word key params body
  | .function, [name, params, body] => layFunction word name params body
  | .arrow, [params, body] => layArrow word params body
  | .params, ts => solid kind [] fun depth => parenthesized (listed ts depth)
  | .classBody, parent :: members => layClass word parent members
  | .field, [key, value] => layField word key value
  | .staticBlock, [body] => solid kind [] fun depth => text "static " ++ body.plain depth
  | .unary, [t] => layUnary word t
  | .await, [t] => layUnary (text "await") t
  | .stepBefore, [t] => layUnary word t
  | .stepAfter, [t] =>
    ⟨kind, [], stepLevel, .no, fun place depth => t.writeAt newLevel place depth ++ word⟩
  | .binary, [left, right] => layBinary word left right
  | .conditional, [test, yes, no] => layConditional test yes no
  | .assignment, [target, value] => layAssignment word target value
  | .sequence, ts => laySequence ts
  | .group, [t] => layGroup t
  | .spread, [t] => solid kind [] fun depth => text "..." ++ t.above itemLevel depth
  | .rest, [t] => solid kind [] fun depth => text "..." ++ t.plain depth
  | .withDefault, [target, value] =>
    solid kind target.word fun depth =>
      target.plain depth ++ text " = " ++ value.above itemLevel depth
  | .yield, ts =>
    ⟨kind, [], itemLevel + 1, .no, fun _ depth =>
      text "yield" ++ word ++ ts.flatMap fun t => ' ' :: t.above itemLevel depth⟩
  | .member isOptional, [base] => layMember isOptional word base
  | .index isOptional, [base, index] => layIndex isOptional base index
  | .call isOptional, callee :: ts => layCall isOptional callee ts
  | .new, callee :: ts => layNew callee ts
  | .load, ts =>
    ⟨.call false, [], callLevel, .no, fun place depth =>
      let s := text "import" ++ parenthesized (listed ts depth)
      if place = .callee then parenthesized s else s⟩
  | .element, attributes :: children => layElement word attributes children
  | .closedElement, [attributes] =>
    ⟨kind, [], unaryLevel, .no, fun _ depth =>
      '<' :: word ++ attributes.plain depth ++ text " />"⟩
  | .fragment, children =>
    ⟨kind, [], unaryLevel, .no, fun _ depth =>
      text "<>" ++ (children.flatMap fun t => t.plain depth) ++ text "</>"⟩
  | .attributes, ts => solid kind [] fun depth => ts.flatMap fun t => ' ' :: t.plain depth
  | .attribute, ts => layAttribute word ts
  | .quoted, _ => solid kind [] fun _ => writeQuoted word
  | .container, ts => layContainer ts
  | .comment _ _, _ => solid kind [] fun depth => writeComment word depth
  | _, _ => solid kind word fun _ => word

/-- A statement without an end of its line, given its laid out parts. -/
def layStatement (kind : Kind) (word : Text) (ts : List Laid) : Laid :=
  match kind, ts with
  | .noted, ts =>
    { kind := (ts.getLast?.map Laid.kind).getD .noted, word := (ts.getLast?.map Laid.word).getD [],
      level := 0, chain := .no, write := fun _ depth => layNoted ts depth }
  | .block, ts => solid kind [] fun depth => braced ts depth
  | .empty, _ => solid kind [] fun _ => [';']
  | .directive, _ => solid kind [] fun _ => writeDirective word
  | .expression, [t] => solid kind [] fun depth => t.write .statement depth ++ [';']
  | .variable, ts => layVariables word ts
  | .declarator, [target, value] =>
    solid kind [] fun depth =>
      target.plain depth ++
        if value.isHole then [] else text " = " ++ value.above itemLevel depth
  | .declaration, [t] => solid kind [] fun depth => t.plain depth
  | .branch, [test, yes] => layBranch test yes none
  | .branch, [test, yes, no] => layBranch test yes (some no)
  | .forLoop, [first, test, step, inside] =>
    layLoop kind (fun depth =>
      text "for (" ++ first.plain depth ++ [';'] ++ layClause test depth ++ [';'] ++
        layClause step depth ++ [')']) inside
  | .forIn, [target, subject, inside] =>
    layLoop kind (fun depth =>
      text "for (" ++ target.plain depth ++ text " in " ++ subject.plain depth ++ [')']) inside
  | .forOf, [target, subject, inside] =>
    layLoop kind (fun depth =>
      text "for " ++ (if word = [] then [] else word ++ [' ']) ++ '(' :: layTarget target depth ++
        text " of " ++ subject.above itemLevel depth ++ [')']) inside
  | .whileLoop, [test, inside] =>
    layLoop kind (fun depth => text "while (" ++ test.plain depth ++ [')']) inside
  | .doLoop, [inside, test] => layDo inside test
  | .jump, ts =>
    solid kind [] fun depth => word ++ (ts.flatMap fun t => ' ' :: t.plain depth) ++ [';']
  | .leave, ts =>
    solid kind [] fun depth => word ++ (ts.flatMap fun t => ' ' :: t.plain depth) ++ [';']
  | .attempt, [inside, handler, last] => layAttempt inside handler last
  | .handler, [target, inside] =>
    solid kind [] fun depth =>
      text "catch" ++ (if target.isHole then [] else text " (" ++ target.plain depth ++ [')']) ++
        layBody inside depth
  | .switch, subject :: cases =>
    solid kind [] fun depth => text "switch (" ++ subject.plain depth ++ text ") " ++ braced cases depth
  | .case, test :: ts => layCase test ts
  | .labelled, [inside] => layLoop kind (fun _ => word ++ [':']) inside
  | .within, [subject, inside] =>
    layLoop kind (fun depth => text "with (" ++ subject.plain depth ++ [')']) inside
  | .importing, ts => layImport ts
  | .namespaceName, _ => solid kind [] fun _ => text "* as " ++ word
  | .specifiers, ts =>
    solid kind [] fun depth =>
      if ts.isEmpty then text "\x7b\x7d"
      else text "\x7b " ++ layModuleNames ts depth ++ text " \x7d"
  | .specifier, ts =>
    solid kind [] fun depth => List.intercalate (text " as ") (ts.map fun t => t.plain depth)
  | .exportDefault, [t] => layExportDefault t
  | .exportDeclaration, [t] =>
    solid kind [] fun depth => text "export " ++ t.write .statement depth
  | .exportNames, names :: rest =>
    solid kind [] fun depth =>
      text "export " ++ names.plain depth ++
        if rest.isEmpty then [';'] else text " from " ++ layFrom rest depth
  | .exportAll, name :: ts => layExportAll name ts
  | .program, ts =>
    solid kind [] fun depth =>
      (if word = [] then [] else word ++ ['\n']) ++
        ts.flatMap fun t => t.write .statement depth ++ ['\n']
  | kind, ts => layExpression kind word ts

/-- Prints a tree. -/
def Tree.print (t : Tree) : Text := (t.fold layStatement).plain 0

end Viewloom.Script
