import Viewloom.Text.Basic
import Viewloom.Unicode.Identifier

/-!
# Tokens of scripts

Each scanner reads one token from the beginning of a text and gives the rest behind it. Nothing is
skipped here but the gaps between tokens, which are blanks and comments.
-/

namespace Viewloom.Script

/-! ## Gaps -/

/-- Whether a line ends with a character. -/
def isLineEnd (c : Char) : Bool :=
  c == '\n' || c == '\r' || c.toNat == 0x2028 || c.toNat == 0x2029

/-- Blanks outside of ASCII. -/
def wideSpaces : List (Nat × Nat) :=
  [(0x85, 0x85), (0xa0, 0xa0), (0x1680, 0x1680), (0x2000, 0x200b), (0x202f, 0x202f),
    (0x205f, 0x205f), (0x3000, 0x3000), (0xfeff, 0xfeff)]

/-- Blanks that do not end a line. -/
def isSpace (c : Char) : Bool :=
  c == ' ' || c == '\t' || c.toNat == 0xb || c.toNat == 0xc ||
    decide (0x85 ≤ c.toNat) && Unicode.inRanges wideSpaces c.toNat

/-- A comment with its delimiters, and whether a line ends between it and its neighbours. -/
structure Comment where
  source : Text
  isLine : Bool
  afterBreak : Bool
  beforeBreak : Bool
  deriving DecidableEq, Repr

/-- What stands between two tokens, and the text behind it. -/
structure Gap where
  hasBreak : Bool
  comments : List Comment
  rest : Text

/-- Where a scan of a gap stands: between comments, or in one of the two kinds of them. -/
inductive GapPart where
  | between
  | inLine
  | inBlock
  deriving DecidableEq

/-- Notes that a line ends behind the comments so far. -/
def breakLast : List Comment → List Comment
  | [] => []
  | c :: cs => { c with beforeBreak := true } :: cs

/-- Scans a gap. The source of a comment and the comments are gathered in reverse; a block comment
has to be closed. -/
def scanGap (part : GapPart) (source : Text) (started hasBreak : Bool) (comments : List Comment) :
    Text → Option Gap
  | [] =>
    match part with
    | .between => some ⟨hasBreak, comments.reverse, []⟩
    | .inLine => some ⟨hasBreak, (⟨source.reverse, true, started, true⟩ :: comments).reverse, []⟩
    | .inBlock => none
  | c :: s =>
    match part with
    | .between =>
      if isLineEnd c then scanGap .between [] false true (breakLast comments) s
      else if isSpace c then scanGap .between [] false hasBreak comments s
      else if c = '/' then
        match s with
        | '/' :: s => scanGap .inLine ['/', '/'] hasBreak hasBreak comments s
        | '*' :: s => scanGap .inBlock ['*', '/'] hasBreak hasBreak comments s
        | _ => some ⟨hasBreak, comments.reverse, c :: s⟩
      else some ⟨hasBreak, comments.reverse, c :: s⟩
    | .inLine =>
      if isLineEnd c then
        scanGap .between [] false true (⟨source.reverse, true, started, true⟩ :: comments) s
      else scanGap .inLine (c :: source) started hasBreak comments s
    | .inBlock =>
      match c, s with
      | '*', '/' :: s =>
        scanGap .between [] false hasBreak
          (⟨('/' :: '*' :: source).reverse, false, started, false⟩ :: comments) s
      | c, s => scanGap .inBlock (c :: source) started (hasBreak || isLineEnd c) comments s

/-- The gap in front of the first token. -/
def gap (s : Text) : Option Gap := scanGap .between [] false false [] s

/-! ## Names -/

def isAsciiLetter (c : Char) : Bool := c.isAlpha || c == '$' || c == '_'

/-- Whether a name may begin with a character. -/
def isNameStart (c : Char) : Bool :=
  isAsciiLetter c || decide (0x80 ≤ c.toNat) && Unicode.isIdStart c

/-- Names also hold the two joiners. -/
def isNamePart (c : Char) : Bool :=
  isAsciiLetter c || c.isDigit ||
    decide (0x80 ≤ c.toNat) &&
      (Unicode.isIdContinue c || c.toNat == 0x200c || c.toNat == 0x200d)

/-- The value of a hexadecimal digit of either case. -/
def hexValue? (c : Char) : Option Nat :=
  if '0' ≤ c ∧ c ≤ '9' then some (c.toNat - 48)
  else if 'a' ≤ c ∧ c ≤ 'f' then some (c.toNat - 87)
  else if 'A' ≤ c ∧ c ≤ 'F' then some (c.toNat - 55)
  else none

/-- Reads exactly so many hexadecimal digits. -/
def hexDigits : Nat → Nat → Text → Option (Nat × Text)
  | 0, value, s => some (value, s)
  | _ + 1, _, [] => none
  | n + 1, value, c :: s =>
    match hexValue? c with
    | some digit => hexDigits n (16 * value + digit) s
    | none => none

/-- Reads hexadecimal digits up to a closing brace. -/
def bracedDigits (value : Nat) (some? : Bool) : Text → Option (Nat × Text)
  | [] => none
  | c :: s =>
    if c = '}' then if some? then some (value, s) else none
    else
      match hexValue? c with
      | some digit =>
        if 16 * value + digit < 0x110000 then bracedDigits (16 * value + digit) true s else none
      | none => none

/-- Reads a code point behind the beginning of its escape. -/
def codePoint : Text → Option (Nat × Text)
  | '{' :: s => bracedDigits 0 false s
  | s => hexDigits 4 0 s

/-- Reads the parts of a name, of which some may be escaped, in so many rounds. -/
def nameParts (allowed : Char → Bool) : Nat → Text → Text × Bool × Text
  | 0, s => ([], false, s)
  | _ + 1, [] => ([], false, [])
  | rounds + 1, '\\' :: 'u' :: s =>
    match codePoint s with
    | some (n, rest) =>
      if allowed (Char.ofNat n) then
        let (name, _, rest) := nameParts isNamePart rounds rest
        (Char.ofNat n :: name, true, rest)
      else ([], false, '\\' :: 'u' :: s)
    | none => ([], false, '\\' :: 'u' :: s)
  | rounds + 1, c :: s =>
    if allowed c then
      let (name, escaped, rest) := nameParts isNamePart rounds s
      (c :: name, escaped, rest)
    else ([], false, c :: s)

/-- A name, whether it is spelled with escapes, and the rest. -/
structure Name where
  word : Text
  isEscaped : Bool
  deriving DecidableEq, Repr

/-- Reads a name with its escapes resolved. -/
def readName (s : Text) : Option (Name × Text) :=
  match s with
  | [] => none
  | c :: _ =>
    if isNameStart c || c == '\\' then
      match nameParts isNameStart (s.length + 1) s with
      | ([], _, _) => none
      | (word, escaped, rest) => some (⟨word, escaped⟩, rest)
    else none

/-- Reads a name with the number sign in front of it. -/
def readPrivateName : Text → Option (Text × Text)
  | '#' :: s => (readName s).map fun (name, rest) => ('#' :: name.word, rest)
  | _ => none

/-! ## Punctuators -/

/-- The punctuators by their first characters, longer ones first. -/
def punctuators : List (Char × List Text) :=
  [('(', [['(']]), (')', [[')']]), (',', [[',']]), (';', [[';']]), ('}', [['}']]), ('{', [['{']]),
    ('.', [text "...", text "."]),
    ('=', [text "===", text "==", text "=>", text "="]),
    ('[', [['[']]), (']', [[']']]), (':', [[':']]),
    ('<', [text "<<=", text "<<", text "<=", text "<"]),
    ('>', [text ">>>=", text ">>>", text ">>=", text ">>", text ">=", text ">"]),
    ('!', [text "!==", text "!=", text "!"]),
    ('+', [text "++", text "+=", text "+"]),
    ('-', [text "--", text "-=", text "-"]),
    ('*', [text "**=", text "**", text "*=", text "*"]),
    ('/', [text "/=", text "/"]),
    ('%', [text "%=", text "%"]),
    ('&', [text "&&=", text "&&", text "&=", text "&"]),
    ('|', [text "||=", text "||", text "|=", text "|"]),
    ('^', [text "^=", text "^"]),
    ('~', [text "~"]),
    ('?', [text "??=", text "??", text "?.", text "?"]),
    ('#', [['#']]), ('@', [['@']])]

/-- The first of several texts that a text begins with. -/
def longest : List Text → Text → Option (Text × Text)
  | [], _ => none
  | p :: ps, s =>
    match Text.stripStart p s with
    | some rest => some (p, rest)
    | none => longest ps s

/-- Reads the longest punctuator. A question mark does not belong to a point and a digit. -/
def readPunctuator : Text → Option (Text × Text)
  | [] => none
  | '?' :: '.' :: c :: s =>
    if c.isDigit then some (['?'], '.' :: c :: s) else some (['?', '.'], c :: s)
  | c :: s => (punctuators.lookup c).bind fun candidates => longest candidates (c :: s)

/-! ## Numbers -/

/-- Reads digits, between which single low lines may stand. -/
def readDigits (isDigit : Char → Bool) : Text → Text × Text
  | [] => ([], [])
  | c :: s =>
    if isDigit c then
      let (digits, rest) := readDigits isDigit s
      (c :: digits, rest)
    else if c = '_' then
      match readDigits isDigit s with
      | (d :: digits, rest) => if d = '_' then ([], c :: s) else (c :: d :: digits, rest)
      | ([], _) => ([], c :: s)
    else ([], c :: s)

/-- Digits that do not begin with a low line. -/
def readWhole (isDigit : Char → Bool) (s : Text) : Option (Text × Text) :=
  match readDigits isDigit s with
  | ([], _) => none
  | ('_' :: _, _) => none
  | found => some found

/-- Reads an exponent if there is one; a mark needs digits behind it. -/
def readExponent : Text → Option (Text × Text)
  | c :: s =>
    if c = 'e' ∨ c = 'E' then
      match s with
      | '+' :: s => (readWhole Char.isDigit s).map fun (digits, s) => (c :: '+' :: digits, s)
      | '-' :: s => (readWhole Char.isDigit s).map fun (digits, s) => (c :: '-' :: digits, s)
      | s => (readWhole Char.isDigit s).map fun (digits, s) => (c :: digits, s)
    else some ([], c :: s)
  | [] => some ([], [])

/-- Reads a fraction, whose digits may be missing, and an exponent. -/
def readFraction (whole : Text) : Text → Option (Text × Text)
  | '.' :: s =>
    let (digits, s) := match readWhole Char.isDigit s with
      | some found => found
      | none => ([], s)
    (readExponent s).map fun (scale, s) => (whole ++ '.' :: digits ++ scale, s)
  | s => (readExponent s).map fun (scale, s) => (whole ++ scale, s)

def isOctalDigit (c : Char) : Bool := '0' ≤ c && c ≤ '7'

def isBinaryDigit (c : Char) : Bool := c == '0' || c == '1'

def isHexDigit (c : Char) : Bool := (hexValue? c).isSome

/-- Reads an integer in another base, which may be a big one. -/
def readBased (head : Text) (isDigit : Char → Bool) (s : Text) : Option (Text × Text) :=
  match readWhole isDigit s with
  | some (digits, 'n' :: s) => some (head ++ digits ++ ['n'], s)
  | some (digits, s) => some (head ++ digits, s)
  | none => none

/-- Reads a number behind a leading zero and another digit: it is octal if all its digits are. -/
def readZeroLed (s : Text) : Option (Text × Text) :=
  let digits := s.takeWhile Char.isDigit
  let rest := s.drop digits.length
  if digits.all isOctalDigit then some (digits, rest) else readFraction digits rest

/-- Reads the spelling of a number. -/
def readUnbounded : Text → Option (Text × Text)
  | '0' :: c :: s =>
    if c = 'x' ∨ c = 'X' then readBased ['0', c] isHexDigit s
    else if c = 'o' ∨ c = 'O' then readBased ['0', c] isOctalDigit s
    else if c = 'b' ∨ c = 'B' then readBased ['0', c] isBinaryDigit s
    else if c = 'n' then some (['0', 'n'], s)
    else if c.isDigit then readZeroLed ('0' :: c :: s)
    else if c = '_' then none
    else readFraction ['0'] (c :: s)
  | '.' :: s =>
    match readWhole Char.isDigit s with
    | some (digits, s) => (readExponent s).map fun (scale, s) => ('.' :: digits ++ scale, s)
    | none => none
  | s =>
    match readWhole Char.isDigit s with
    | some (digits, 'n' :: s) => some (digits ++ ['n'], s)
    | some (digits, s) => readFraction digits s
    | none => none

/-- Reads a number, behind which no name may begin. -/
def readNumber (s : Text) : Option (Text × Text) :=
  match readUnbounded s with
  | some (spelling, c :: s) =>
    if isNamePart c || c == '\\' then none else some (spelling, c :: s)
  | found => found

/-! ## Strings, templates and regular expressions -/

/-- Reads the source of a string up to its closing quote. -/
def readQuoted (quote : Char) : Text → Option (Text × Text)
  | [] => none
  | '\\' :: '\r' :: '\n' :: s =>
    (readQuoted quote s).map fun (source, rest) => ('\\' :: '\n' :: source, rest)
  | '\\' :: c :: s => (readQuoted quote s).map fun (source, rest) => ('\\' :: c :: source, rest)
  | c :: s =>
    if c = quote then some ([], s)
    else if c = '\n' ∨ c = '\r' then none
    else (readQuoted quote s).map fun (source, rest) => (c :: source, rest)

/-- The characters that stand for others behind a backslash. -/
def simpleEscapes : List (Char × Nat) :=
  [('n', 10), ('t', 9), ('r', 13), ('b', 8), ('f', 12), ('v', 11)]

/-- An octal escape of at most three digits, and below 256. -/
def octalEscape (s : Text) : Nat × Text :=
  let value : Text → Nat := fun digits =>
    digits.foldl (fun n (c : Char) => 8 * n + (c.toNat - 48)) 0
  let digits := (s.takeWhile isOctalDigit).take 3
  if value digits < 256 then (value digits, s.drop digits.length)
  else (value (digits.take 2), s.drop 2)

/-- The character of a code point. One half of a pair is kept as its number behind the replacement
character. -/
def decoded (n : Nat) : Text :=
  if 0xd800 ≤ n ∧ n < 0xe000 then Char.ofNat 0xfffd :: Nat.toDigits 16 n else [Char.ofNat n]

/-- Reads an escaped code point, for which two halves may be needed. -/
def readCodePoint (s : Text) : Option (Text × Text) :=
  match codePoint s with
  | none => none
  | some (n, s) =>
    if 0xd800 ≤ n ∧ n < 0xdc00 then
      match s with
      | '\\' :: 'u' :: after =>
        match codePoint after with
        | some (low, after) =>
          if 0xdc00 ≤ low ∧ low < 0xe000 then
            some ([Char.ofNat (0x10000 + (n - 0xd800) * 0x400 + (low - 0xdc00))], after)
          else some (decoded n, s)
        | none => none
      | _ => some (decoded n, s)
    else some (decoded n, s)

/-- Reads what a backslash begins. -/
def readEscape : Text → Option (Text × Text)
  | [] => none
  | 'x' :: s => (hexDigits 2 0 s).map fun (n, s) => ([Char.ofNat n], s)
  | 'u' :: s => readCodePoint s
  | c :: s =>
    if isLineEnd c then some ([], s)
    else if isOctalDigit c then
      let (n, rest) := octalEscape (c :: s)
      some ([Char.ofNat n], rest)
    else
      match simpleEscapes.lookup c with
      | some n => some ([Char.ofNat n], s)
      | none => some ([c], s)

/-- The value that the source of a string denotes, read in so many rounds. -/
def unescapeWithin : Nat → Text → Option Text
  | 0, _ => none
  | _ + 1, [] => some []
  | rounds + 1, '\\' :: s =>
    match readEscape s with
    | some (value, rest) => (unescapeWithin rounds rest).map (value ++ ·)
    | none => none
  | rounds + 1, c :: s => (unescapeWithin rounds s).map (c :: ·)

/-- The value of what stands between the quotes of a string, if its escapes are sound. -/
def unescape (source : Text) : Option Text := unescapeWithin (source.length + 1) source

/-- Reads a string; gives its value. -/
def readString : Text → Option (Text × Text)
  | c :: s =>
    if c = '"' ∨ c = '\'' then
      match readQuoted c s with
      | some (source, rest) => (unescape source).map fun value => (value, rest)
      | none => none
    else none
  | [] => none

/-- Reads the source of a template up to its end or to an expression in it. -/
def readChunk : Text → Option (Text × Text)
  | [] => none
  | '\\' :: c :: s => (readChunk s).map fun (source, rest) => ('\\' :: c :: source, rest)
  | '$' :: '{' :: s => some ([], '$' :: '{' :: s)
  | '\r' :: '\n' :: s => (readChunk s).map fun (source, rest) => ('\n' :: source, rest)
  | c :: s =>
    if c = '\x60' then some ([], c :: s)
    else
      (readChunk s).map fun (source, rest) => ((if c = '\r' then '\n' else c) :: source, rest)

/-- Whether what a backslash begins in a template denotes a text. -/
def isSoundEscape : Text → Bool
  | 'x' :: s => (hexDigits 2 0 s).isSome
  | 'u' :: s => (codePoint s).isSome
  | '0' :: s => !s.head?.any Char.isDigit
  | c :: _ => !c.isDigit
  | [] => false

/-- Whether the source of a part of a template denotes a text. -/
def isSoundChunk : Text → Bool
  | [] => true
  | '\\' :: c :: s => isSoundEscape (c :: s) && isSoundChunk s
  | _ :: s => isSoundChunk s

/-- Reads the body of a regular expression up to a slash outside of brackets. -/
def readPattern (inClass : Bool) : Text → Option (Text × Text)
  | [] => none
  | '\\' :: c :: s =>
    if isLineEnd c then none
    else (readPattern inClass s).map fun (source, rest) => ('\\' :: c :: source, rest)
  | c :: s =>
    if isLineEnd c then none
    else if c = '/' ∧ inClass = false then some (['/'], s)
    else
      (readPattern (if c = '[' then true else if c = ']' then false else inClass) s).map
        fun (source, rest) => (c :: source, rest)

/-- The flags of regular expressions. -/
def flags : Text := text "dgimsuvy"

/-- Reads a regular expression with its flags, each of which stands once. -/
def readRegex : Text → Option (Text × Text)
  | '/' :: s =>
    match readPattern false s with
    | some (source, rest) =>
      let found := rest.takeWhile isNamePart
      if found.all flags.contains && found.eraseDups.length == found.length then
        some ('/' :: source ++ found, rest.drop found.length)
      else none
    | none => none
  | _ => none

end Viewloom.Script
