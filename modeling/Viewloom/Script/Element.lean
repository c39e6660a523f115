import Viewloom.Script.Expression

/-!
# Elements

Markup in a script. The text between tags is taken as it stands; braces lead back to expressions. An
element is read without the gap behind it, since it may stand in such a text.
-/

namespace Viewloom.Script

open Viewloom.Script.Parser Viewloom.Script.Tree

/-- Names in tags may also hold hyphens. -/
def isTagPart (c : Char) : Bool := isNamePart c || c == '-'

/-- Reads a simple name in a tag. -/
def readTagName : Text → Option (Text × Text)
  | [] => none
  | c :: s =>
    if isNameStart c then
      let more := s.takeWhile isTagPart
      some (c :: more, s.drop more.length)
    else none

/-- Reads one character as a token, whatever follows it. -/
def sign (c : Char) : Parser Unit :=
  token fun s => (Text.stripStart [c] s).map fun rest => ((), rest)

/-- Whether a character follows, without reading it. -/
def atSign (c : Char) : Parser Bool := do
  let next ← nextChar
  pure (next == some c)

/-- Reads the members behind the points of an element name. A member has no hyphen. -/
def tagMembers : Nat → Text → Parser Text
  | 0, _ => fail
  | rounds + 1, name => do
    if ← atSign '.' then
      sign '.'
      let member ← token readTagName
      require (!member.contains '-')
      tagMembers rounds (name ++ '.' :: member)
    else pure name

/-- Reads the name of an element, which may have a namespace or members. -/
def elementName (g : Grammar) : Parser Text := do
  let name ← token readTagName
  if ← atSign ':' then
    sign ':'
    let part ← token readTagName
    pure (name ++ ':' :: part)
  else tagMembers g.rounds name

/-- Reads the name of an attribute, which may have a namespace. -/
def attributeName : Parser Text := do
  let name ← token readTagName
  if ← atSign ':' then
    sign ':'
    let part ← token readTagName
    pure (name ++ ':' :: part)
  else pure name

/-- Reads a quoted value, in which nothing is escaped and lines may end. -/
def readTagString : Text → Option (Text × Text)
  | c :: s =>
    if c = '"' ∨ c = '\'' then
      let source := s.takeWhile fun d => d != c
      match s.drop source.length with
      | quote :: rest => some (c :: source ++ [quote], rest)
      | [] => none
    else none
  | [] => none

/-- Reads the value of an attribute. -/
def attributeValue (g : Grammar) (c : Context) : Parser Tree := do
  match ← nextChar with
  | some '<' =>
    let t ← g.element c
    skipGap
    pure t
  | some '{' =>
    sign '{'
    let e ← g.assignment c.allowIn
    sign '}'
    pure (inner .container [e])
  | _ =>
    let source ← token readTagString
    pure (leaf .quoted source)

/-- Reads an attribute or a spread, if one follows. -/
def attributeTree (g : Grammar) (c : Context) : Parser (Option Tree) := do
  match ← nextChar with
  | some '{' =>
    sign '{'
    mark (text "...")
    let e ← g.assignment c.allowIn
    sign '}'
    pure (some (inner .container [inner .spread [e]]))
  | some '/' | some '>' => pure none
  | _ =>
    let name ← attributeName
    if ← atSign '=' then
      sign '='
      let value ← attributeValue g c
      pure (some (.node .attribute name [value]))
    else pure (some (leaf .attribute name))

/-- Reads braces between tags: an expression, a spread, or nothing but comments. -/
def container (g : Grammar) (c : Context) : Parser Tree := do
  sign '{'
  let s ← source
  if ← atSign '}' then
    rawChar '}'
    pure
      (inner .container
        (s.comments.map fun d => leaf (.comment d.afterBreak d.beforeBreak) d.source))
  else if ← skipMark (text "...") then
    let e ← g.assignment c.allowIn
    rawChar '}'
    pure (inner .container [inner .spread [e]])
  else
    let e ← g.assignment c.allowIn
    rawChar '}'
    pure (inner .container [e])

/-- The characters that end a text between tags. -/
def endsElementText (c : Char) : Bool := c == '<' || c == '{' || c == '>' || c == '}'

/-- Reads a text between tags, which is not empty. -/
def readElementText (s : Text) : Option (Text × Text) :=
  match s.takeWhile fun c => !endsElementText c with
  | [] => none
  | found => some (found, s.drop found.length)

/-- Whether a closing tag begins here. -/
def atClosingTag : Parser Bool := do
  let s ← source
  match s.rest with
  | '<' :: rest =>
    match gap rest with
    | some g => pure (g.rest.head? == some '/')
    | none => fail
  | _ => pure false

/-- Reads what stands between tags. -/
def elementChildren (g : Grammar) (c : Context) : Nat → Parser (List Tree)
  | 0 => fail
  | rounds + 1 => do
    if ← atClosingTag then pure []
    else
      let child ← do
        match ← nextChar with
        | some '<' => g.element c
        | some '{' => container g c
        | _ =>
          let found ← rawToken readElementText
          pure (leaf .elementText found)
      let rest ← elementChildren g c rounds
      pure (child :: rest)

/-- Reads an element or a fragment. -/
def element (g : Grammar) (c : Context) : Parser Tree := do
  sign '<'
  if ← atSign '>' then
    rawChar '>'
    let children ← elementChildren g c g.rounds
    sign '<'
    sign '/'
    rawChar '>'
    pure (inner .fragment children)
  else
    let name ← elementName g
    let found ← many (attributeTree g c) g.rounds
    let opening := inner .attributes found
    if ← atSign '/' then
      sign '/'
      rawChar '>'
      pure (.node .closedElement name [opening])
    else
      rawChar '>'
      let children ← elementChildren g c g.rounds
      sign '<'
      sign '/'
      let closing ← elementName g
      require (closing == name)
      rawChar '>'
      pure (.node .element name (opening :: children))

end Viewloom.Script
