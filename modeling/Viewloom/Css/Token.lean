import Viewloom.Text.Basic

/-!
# Lexical structure of stylesheets

A stylesheet is read as comments, quoted strings and single characters. Comments and strings may
run to the end of the text.
-/

namespace Viewloom.Css

/-- Splits behind the end of a comment whose opening has been read. -/
def splitComment : Text → Text × Text
  | [] => ([], [])
  | '*' :: '/' :: s => (['*', '/'], s)
  | c :: s => (c :: (splitComment s).1, (splitComment s).2)

/-- Splits behind the closing quote of a string whose opening quote has been read. A backslash
takes the next character with it. -/
def splitQuoted (quote : Char) : Text → Text × Text
  | [] => ([], [])
  | ['\\'] => (['\\'], [])
  | '\\' :: c :: s => ('\\' :: c :: (splitQuoted quote s).1, (splitQuoted quote s).2)
  | c :: s =>
    if c = quote then ([c], s) else (c :: (splitQuoted quote s).1, (splitQuoted quote s).2)

/-- Reading a comment loses nothing. -/
theorem splitComment_append (s : Text) : (splitComment s).1 ++ (splitComment s).2 = s := by
  fun_induction splitComment s <;> simp_all

/-- Reading a string loses nothing. -/
theorem splitQuoted_append (quote : Char) (s : Text) :
    (splitQuoted quote s).1 ++ (splitQuoted quote s).2 = s := by
  fun_induction splitQuoted quote s <;> simp_all

theorem length_splitComment_le (s : Text) : (splitComment s).2.length ≤ s.length := by
  have h := congrArg List.length (splitComment_append s)
  simp only [List.length_append] at h
  omega

theorem length_splitQuoted_le (quote : Char) (s : Text) :
    (splitQuoted quote s).2.length ≤ s.length := by
  have h := congrArg List.length (splitQuoted_append quote s)
  simp only [List.length_append] at h
  omega

/-- Whether a character opens a string. -/
def isQuote (c : Char) : Bool := c == '"' || c == '\''

/-- A comment or a string with its delimiters, or a single character. -/
inductive Token where
  | comment (value : Text)
  | quoted (value : Text)
  | char (value : Char)
  deriving DecidableEq, Repr

namespace Token

/-- The text a token was read from. -/
def text : Token → Text
  | comment value => value
  | quoted value => value
  | char value => [value]

end Token

/-- Reads a stylesheet to its end. A comment or a string that nothing closes takes all that is left.
-/
def tokens : Text → List Token
  | [] => []
  | '/' :: '*' :: s =>
    .comment ('/' :: '*' :: (splitComment s).1) :: tokens (splitComment s).2
  | c :: s =>
    if isQuote c then .quoted (c :: (splitQuoted c s).1) :: tokens (splitQuoted c s).2
    else .char c :: tokens s
termination_by s => s.length
decreasing_by
  · have := length_splitComment_le s
    simp only [List.length_cons]
    omega
  · have := length_splitQuoted_le c s
    simp only [List.length_cons]
    omega
  · simp

end Viewloom.Css
