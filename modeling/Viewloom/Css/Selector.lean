import Viewloom.Css.ClassName
import Viewloom.Css.Token
import Viewloom.Unicode.Numeric

/-!
# Class selectors

Within a selector list the name behind a dot is scoped, unless the dot stands in a comment, a
string or an attribute selector.
-/

namespace Viewloom.Css

open Unicode

/-- Whether a name may begin with a character. A backslash begins an escape. -/
def isNameStart (c : Char) : Bool :=
  isAlphabetic c || c == '_' || c == '-' || c == '\\' || decide (128 ≤ c.toNat)

/-- Whether a character continues a name. -/
def isNameChar (c : Char) : Bool :=
  isAlphanumeric c || c == '_' || c == '-' || decide (128 ≤ c.toNat)

/-- Splits behind a class name, in which a backslash takes the next character with it. -/
def splitName : Text → Text × Text
  | [] => ([], [])
  | '\\' :: c :: s => ('\\' :: c :: (splitName s).1, (splitName s).2)
  | c :: s => if isNameChar c then (c :: (splitName s).1, (splitName s).2) else ([], c :: s)

/-- Reading a name loses nothing. -/
theorem splitName_append (s : Text) : (splitName s).1 ++ (splitName s).2 = s := by
  fun_induction splitName s <;> simp_all

theorem length_splitName_le (s : Text) : (splitName s).2.length ≤ s.length := by
  have h := congrArg List.length (splitName_append s)
  simp only [List.length_append] at h
  omega

/-- Whether a class name stands behind a dot outside of brackets. -/
def namesClass (depth : Nat) (c : Char) (s : Text) : Bool :=
  c == '.' && depth == 0 && s.head?.any isNameStart

/-- The depth of attribute brackets behind a character. -/
def bracketDepth (depth : Nat) (c : Char) : Nat :=
  if c = '[' then depth + 1 else if c = ']' then depth - 1 else depth

/-- Scopes the classes of a selector within so many brackets, in which no class is named. -/
def scopeSelectorAt (depth : Nat) : Text → Text
  | [] => []
  | '/' :: '*' :: s =>
    '/' :: '*' :: (splitComment s).1 ++ scopeSelectorAt depth (splitComment s).2
  | c :: s =>
    if isQuote c then c :: (splitQuoted c s).1 ++ scopeSelectorAt depth (splitQuoted c s).2
    else if namesClass depth c s then
      c :: scopeClassName (splitName s).1 ++ scopeSelectorAt depth (splitName s).2
    else c :: scopeSelectorAt (bracketDepth depth c) s
termination_by s => s.length
decreasing_by
  · have := length_splitComment_le s
    simp only [List.length_cons]
    omega
  · have := length_splitQuoted_le c s
    simp only [List.length_cons]
    omega
  · have := length_splitName_le s
    simp only [List.length_cons]
    omega
  · simp

/-- Scopes the class selectors of one selector list. -/
def scopeSelector (selector : Text) : Text := scopeSelectorAt 0 selector

end Viewloom.Css
