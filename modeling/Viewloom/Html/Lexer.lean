import Viewloom.Html.CharRef
import Viewloom.Markup.Basic

/-!
# Tokens of a document

Tokens are read one at a time, since what a document has opened decides how its text goes on.
Character tokens hold only blanks or only other characters.
-/

namespace Viewloom.Html

/-- What the tree is built from. -/
inductive Token where
  | doctype (name publicId systemId : Option Text) (forceQuirks : Bool)
  | startTag (name : Text) (attributes : List Attribute) (selfClosing : Bool)
  | endTag (name : Text)
  | comment (value : Text)
  | chars (value : Text)
  | null
  | eof
  deriving DecidableEq, Repr

/-- How text is read: with all markup, with the end tag of one element only, or as it stands. -/
inductive Reading where
  | data
  | escapable (tag : Text)
  | raw (tag : Text)
  | script
  | plain
  | cdata
  deriving DecidableEq, Repr

def nul : Char := Char.ofNat 0

/-- Whether a character separates attributes. This is narrower than being blank. -/
def isSpace (c : Char) : Bool :=
  c == ' ' || c == '\n' || c == '\t' || c == '\r' || c == Char.ofNat 12

def skipSpaces (s : Text) : Text := s.dropWhile isSpace

/-- NUL characters are replaced wherever they are not dropped. -/
def replaceNul (s : Text) : Text := s.map fun c => if c = nul then replacementChar else c

theorem length_dropWhile_le (p : Char → Bool) (s : Text) : (s.dropWhile p).length ≤ s.length :=
  (List.dropWhile_suffix p).length_le

/-! ## Tags -/

/-- Reads an attribute value up to a character, resolving its references. -/
def splitValue (stop : Char → Bool) : Text → Text × Text
  | [] => ([], [])
  | c :: s =>
    if stop c then ([], c :: s)
    else if c = '&' then
      match charReference true s with
      | some (value, n) =>
        (value ++ (splitValue stop (s.drop n)).1, (splitValue stop (s.drop n)).2)
      | none => (c :: (splitValue stop s).1, (splitValue stop s).2)
    else if c = nul then (replacementChar :: (splitValue stop s).1, (splitValue stop s).2)
    else (c :: (splitValue stop s).1, (splitValue stop s).2)
termination_by s => s.length
decreasing_by all_goals simp only [List.length_cons, List.length_drop]; omega

theorem length_splitValue_le (stop : Char → Bool) (s : Text) :
    (splitValue stop s).2.length ≤ s.length := by
  fun_induction splitValue stop s <;> simp_all [List.length_drop] <;> omega

/-- The value behind an equals sign and its spaces, and what follows. -/
def attributeValue : Text → Text × Text
  | '"' :: s => ((splitValue (· == '"') s).1, (splitValue (· == '"') s).2.drop 1)
  | '\'' :: s => ((splitValue (· == '\'') s).1, (splitValue (· == '\'') s).2.drop 1)
  | s => splitValue (fun c => isSpace c || c == '>') s

theorem length_attributeValue_le (s : Text) : (attributeValue s).2.length ≤ s.length := by
  unfold attributeValue
  split
  · next s =>
    have := length_splitValue_le (· == '"') s
    simp only [List.length_drop, List.length_cons]
    omega
  · next s =>
    have := length_splitValue_le (· == '\'') s
    simp only [List.length_drop, List.length_cons]
    omega
  · exact length_splitValue_le _ s

/-- Whether a quoted value lacks its closing quote. -/
def isUnclosed : Text → Bool
  | '"' :: s => (splitValue (· == '"') s).2.isEmpty
  | '\'' :: s => (splitValue (· == '\'') s).2.isEmpty
  | _ => false

def endsAttributeName (c : Char) : Bool := isSpace c || c == '/' || c == '>' || c == '='

def endsTagName (c : Char) : Bool := isSpace c || c == '/' || c == '>'

/-- Keeps the first of two attributes of one name. -/
def consAttribute (a : Attribute) (attributes : List Attribute) : List Attribute :=
  a :: attributes.filter fun b => b.name != a.name

/-- Reads the attributes and the end of a tag: the attributes, whether the tag closes itself, and
what follows. A tag that is not closed has no reading. -/
def tagRest (s : Text) : Option (List Attribute × Bool × Text) :=
  match _h : skipSpaces s with
  | [] => none
  | '>' :: rest => some ([], false, rest)
  | '/' :: '>' :: rest => some ([], true, rest)
  | '/' :: rest => tagRest rest
  | c :: rest =>
    let name := replaceNul (Text.lowerAscii (c :: rest.takeWhile fun c => !endsAttributeName c))
    match _h' : skipSpaces (rest.dropWhile fun c => !endsAttributeName c) with
    | '=' :: after =>
      if isUnclosed (skipSpaces after) then none
      else
        (tagRest (attributeValue (skipSpaces after)).2).map fun (attributes, closed, rest) =>
          (consAttribute ⟨name, (attributeValue (skipSpaces after)).1⟩ attributes, closed, rest)
    | after =>
      (tagRest after).map fun (attributes, closed, rest) =>
        (consAttribute ⟨name, []⟩ attributes, closed, rest)
termination_by s.length
decreasing_by
  · have h₁ := length_dropWhile_le isSpace s
    simp only [skipSpaces] at _h
    rw [_h] at h₁
    simp only [List.length_cons] at h₁
    omega
  · have h₁ := length_dropWhile_le isSpace s
    have h₂ := length_dropWhile_le isSpace (rest.dropWhile fun c => !endsAttributeName c)
    have h₃ := length_dropWhile_le (fun c => !endsAttributeName c) rest
    have h₄ := length_dropWhile_le isSpace after
    have h₅ := length_attributeValue_le (skipSpaces after)
    simp only [skipSpaces] at _h _h' h₅ ⊢
    rw [_h] at h₁
    rw [_h'] at h₂
    simp only [List.length_cons] at h₁ h₂
    omega
  · have h₁ := length_dropWhile_le isSpace s
    have h₂ := length_dropWhile_le isSpace (rest.dropWhile fun c => !endsAttributeName c)
    have h₃ := length_dropWhile_le (fun c => !endsAttributeName c) rest
    simp only [skipSpaces] at _h _h'
    rw [_h] at h₁
    rw [_h'] at h₂
    simp only [List.length_cons] at h₁
    omega

/-- The tag at the beginning of a text, in small letters. -/
def tagName (s : Text) : Text := replaceNul (Text.lowerAscii (s.takeWhile fun c => !endsTagName c))

/-- Reads a tag from its name on. A tag that the text ends in is dropped with the rest. -/
def tagToken (token : List Attribute → Bool → Token) (s : Text) : Option Token × Text :=
  match tagRest (s.dropWhile fun c => !endsTagName c) with
  | some (attributes, closed, rest) => (some (token attributes closed), rest)
  | none => (none, [])

def startTagToken (s : Text) : Option Token × Text := tagToken (.startTag (tagName s)) s

def endTagToken (s : Text) : Option Token × Text := tagToken (fun _ _ => .endTag (tagName s)) s

/-! ## Comments and declarations -/

/-- Drops what a comment that is not closed has read of its end. -/
def dropDashes (value : Text) : Text :=
  match value.reverse with
  | '!' :: '-' :: '-' :: s => s.reverse
  | '-' :: '-' :: s => s.reverse
  | '-' :: s => s.reverse
  | s => s.reverse

/-- The text before the end of a comment, whether there is an end, and what follows. -/
def splitCommentBody : Text → Text × Bool × Text
  | [] => ([], false, [])
  | '-' :: '-' :: '>' :: s => ([], true, s)
  | '-' :: '-' :: '!' :: '>' :: s => ([], true, s)
  | c :: s => (c :: (splitCommentBody s).1, (splitCommentBody s).2)

/-- Reads a comment behind its opening. -/
def commentToken : Text → Option Token × Text
  | '>' :: s => (some (.comment []), s)
  | '-' :: '>' :: s => (some (.comment []), s)
  | s =>
    let (value, closed, rest) := splitCommentBody s
    (some (.comment (replaceNul (if closed then value else dropDashes value))), rest)

/-- Reads anything else that begins like a declaration as a comment. -/
def bogusComment (s : Text) : Option Token × Text :=
  (some (.comment (replaceNul (s.takeWhile (· != '>')))), (s.dropWhile (· != '>')).drop 1)

/-- Reads a keyword in any case. -/
def stripKeyword (keyword s : Text) : Option Text :=
  if Text.equalsIgnoreCaseAscii (s.take keyword.length) keyword then some (s.drop keyword.length)
  else none

/-- What stands behind the next closing bracket. -/
def behindDeclaration (s : Text) : Text := (s.dropWhile (· != '>')).drop 1

/-- Reads a quoted identifier behind its quote: the identifier, whether it is closed, the rest. -/
def quotedId (quote : Char) (s : Text) : Text × Bool × Text :=
  let value := s.takeWhile fun c => c != quote && c != '>'
  let rest := s.drop value.length
  (replaceNul value, rest.head? == some quote, if rest.head? == some quote then rest.drop 1 else rest)

/-- The system identifier of a document type; `early` tells whether its keyword has been read. -/
def doctypeSystem (name publicId : Option Text) (early : Bool) (s : Text) : Token × Text :=
  match skipSpaces s with
  | [] => (.doctype name publicId none true, [])
  | '>' :: rest => (.doctype name publicId none early, rest)
  | c :: rest =>
    if c = '"' ∨ c = '\'' then
      let (value, closed, rest) := quotedId c rest
      if closed then
        let after := skipSpaces rest
        (.doctype name publicId (some value) after.isEmpty, behindDeclaration after)
      else (.doctype name publicId (some value) true, behindDeclaration rest)
    else (.doctype name publicId none true, behindDeclaration (c :: rest))

/-- The public identifier of a document type behind its keyword. -/
def doctypePublic (name : Option Text) (s : Text) : Token × Text :=
  match skipSpaces s with
  | [] => (.doctype name none none true, [])
  | c :: rest =>
    if c = '"' ∨ c = '\'' then
      let (value, closed, rest) := quotedId c rest
      if closed then doctypeSystem name (some value) false rest
      else (.doctype name (some value) none true, behindDeclaration rest)
    else (.doctype name none none true, behindDeclaration (c :: rest))

/-- Reads a document type behind its keyword. -/
def doctypeToken (s : Text) : Token × Text :=
  match skipSpaces s with
  | [] => (.doctype none none none true, [])
  | '>' :: rest => (.doctype none none none true, rest)
  | s =>
    let name := s.takeWhile fun c => !(isSpace c || c == '>')
    let rest := skipSpaces (s.drop name.length)
    let name := some (replaceNul (Text.lowerAscii name))
    match rest with
    | [] => (.doctype name none none true, [])
    | '>' :: rest => (.doctype name none none false, rest)
    | rest =>
      match stripKeyword (text "public") rest, stripKeyword (text "system") rest with
      | some rest, _ => doctypePublic name rest
      | none, some rest => doctypeSystem name none true rest
      | none, none => (.doctype name none none true, behindDeclaration rest)

/-! ## Text -/

/-- Whether the end tag of an element follows. -/
def closes (tag s : Text) : Bool :=
  match s with
  | '<' :: '/' :: s =>
    Text.equalsIgnoreCaseAscii (s.take tag.length) tag && (s.drop tag.length).head?.any endsTagName
  | _ => false

/-- Splits a raw text in front of the tag that closes it. -/
def splitRaw (tag : Text) : Text → Text × Text
  | [] => ([], [])
  | c :: s =>
    if closes tag (c :: s) then ([], c :: s) else (c :: (splitRaw tag s).1, (splitRaw tag s).2)

/-- Splits a text with references in front of the tag that closes it. -/
def splitEscapable (tag : Text) : Text → Text × Text
  | [] => ([], [])
  | c :: s =>
    if closes tag (c :: s) then ([], c :: s)
    else if c = '&' then
      match charReference false s with
      | some (value, n) =>
        (value ++ (splitEscapable tag (s.drop n)).1, (splitEscapable tag (s.drop n)).2)
      | none => (c :: (splitEscapable tag s).1, (splitEscapable tag s).2)
    else if c = nul then (replacementChar :: (splitEscapable tag s).1, (splitEscapable tag s).2)
    else (c :: (splitEscapable tag s).1, (splitEscapable tag s).2)
termination_by s => s.length
decreasing_by all_goals simp only [List.length_cons, List.length_drop]; omega

/-- How deep a script text stands in a comment: outside, inside, or inside of a script tag within
one; with the number of dashes just read. -/
inductive ScriptDepth where
  | outside
  | comment (dashes : Nat)
  | nested (dashes : Nat)

/-- Whether a script tag name and its end follow. -/
def namesScript (s : Text) : Bool :=
  Text.equalsIgnoreCaseAscii (s.take 6) (text "script") && (s.drop 6).head?.any endsTagName

/-- How deep a script is escaped behind a character, given what follows it. -/
def ScriptDepth.step (depth : ScriptDepth) (c : Char) (s : Text) : ScriptDepth :=
  match depth with
  | outside => if c == '<' && (text "!--").isPrefixOf s then comment 0 else outside
  | comment dashes =>
    if c = '-' then comment (dashes + 1)
    else if c == '>' && decide (2 ≤ dashes) then outside
    else if c == '<' && namesScript s then nested 0
    else comment 0
  | nested dashes =>
    if c = '-' then nested (dashes + 1)
    else if c == '>' && decide (2 ≤ dashes) then outside
    else if c == '<' && s.head? == some '/' && namesScript s.tail then comment 0
    else nested 0

/-- Whether a closing tag of a script is part of it. -/
def ScriptDepth.isNested : ScriptDepth → Bool
  | nested _ => true
  | _ => false

/-- Splits a script in front of the tag that closes it. -/
def splitScript (depth : ScriptDepth) : Text → Text × Text
  | [] => ([], [])
  | c :: s =>
    if !depth.isNested && closes (text "script") (c :: s) then ([], c :: s)
    else (c :: (splitScript (depth.step c s) s).1, (splitScript (depth.step c s) s).2)

/-- A run of blanks or of other characters, up to a character that ends text. -/
def splitRun (stop : Char → Bool) (c : Char) (s : Text) : Text × Text :=
  let run := s.takeWhile fun d => !stop d && isSpace d == isSpace c
  (c :: run, s.drop run.length)

/-- Whether a run of characters ends at a character. -/
def endsText (c : Char) : Bool := c == '<' || c == '&' || c == nul

/-- Reads what follows the opening of a declaration. -/
def declarationToken (foreign : Bool) (s : Text) : Option Token × Text × Reading :=
  match Text.stripStart (text "--") s, stripKeyword (text "doctype") s with
  | some rest, _ => ((commentToken rest).1, (commentToken rest).2, .data)
  | none, some rest => (some (doctypeToken rest).1, (doctypeToken rest).2, .data)
  | none, none =>
    match Text.stripStart (text "[CDATA[") s with
    | some rest =>
      if foreign then (none, rest, .cdata) else ((bogusComment s).1, (bogusComment s).2, .data)
    | none => ((bogusComment s).1, (bogusComment s).2, .data)

/-- Reads a token of ordinary text. -/
def dataToken (foreign : Bool) : Text → Option Token × Text × Reading
  | [] => (some .eof, [], .data)
  | '<' :: '!' :: s => declarationToken foreign s
  | '<' :: '?' :: s => ((bogusComment ('?' :: s)).1, (bogusComment ('?' :: s)).2, .data)
  | ['<', '/'] => (some (.chars (text "</")), [], .data)
  | '<' :: '/' :: '>' :: s => (none, s, .data)
  | '<' :: '/' :: c :: s =>
    let (token, rest) := if c.isAlpha then endTagToken (c :: s) else bogusComment (c :: s)
    (token, rest, .data)
  | c :: s =>
    if c == '<' && s.head?.any Char.isAlpha then
      ((startTagToken s).1, (startTagToken s).2, .data)
    else if c = '&' then
      match charReference false s with
      | some (value, n) => (some (.chars value), s.drop n, .data)
      | none => (some (.chars ['&']), s, .data)
    else if c = nul then (some .null, s, .data)
    else (some (.chars (splitRun endsText c s).1), (splitRun endsText c s).2, .data)

/-- Text before the end tag of an element, or else that end tag. -/
def untilEndTag (reading : Reading) (content : Text × Text) (s : Text) :
    Option Token × Text × Reading :=
  if s = [] then (some .eof, [], .data)
  else if content.1 ≠ [] then (some (.chars (replaceNul content.1)), content.2, reading)
  else ((endTagToken (s.drop 2)).1, (endTagToken (s.drop 2)).2, .data)

/-- Reads a token, what follows it and how that is read. Markup that means nothing gives none. -/
def nextToken (reading : Reading) (foreign : Bool) (s : Text) : Option Token × Text × Reading :=
  match reading with
  | .data => dataToken foreign s
  | .escapable tag => untilEndTag reading (splitEscapable tag s) s
  | .raw tag => untilEndTag reading (splitRaw tag s) s
  | .script => untilEndTag reading (splitScript .outside s) s
  | .plain => if s = [] then (some .eof, [], .plain) else (some (.chars (replaceNul s)), [], .plain)
  | .cdata =>
    match s with
    | [] => (some .eof, [], .data)
    | ']' :: ']' :: '>' :: s => (none, s, .data)
    | c :: s =>
      if c = nul then (some .null, s, .cdata)
      else
        (some (.chars (splitRun (fun d => d == ']' || d == nul) c s).1),
          (splitRun (fun d => d == ']' || d == nul) c s).2, .cdata)

end Viewloom.Html
