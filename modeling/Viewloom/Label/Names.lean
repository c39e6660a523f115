import Viewloom.Error
import Viewloom.Label.Status
import Viewloom.Label.Words
import Viewloom.Unicode.CaseMap

/-!
# Names of a view

All names of a view are derived from its label: two class names, a tag and a file name.
-/

namespace Viewloom

/-- The names that a view has for its controller, its class, its tag and its file. -/
structure Names where
  controllerClassName : Text
  className : Text
  elementTag : Text
  fileSlug : Text
  deriving DecidableEq, Repr

namespace Names

open Unicode

/-- Raises the first character of a word. -/
def capitalize : Text → Text
  | [] => []
  | c :: s => upperChar c ++ s

/-- A class name must not begin with a numeral, so an underscore leads such a name. -/
def lead : List Text → Text
  | (c :: _) :: _ => if isNumeric c then ['_'] else []
  | _ => []

/-- Words with a capital each, one behind the other, and what the name is for. -/
def pascalCase (words : List Text) (suffix : Text) : Text :=
  lead words ++ words.flatMap capitalize ++ suffix

/-- Words in small letters with hyphens between them. -/
def kebabCase (words : List Text) : Text := List.intercalate ['-'] (words.map lower)

/-- The names that words give. All four are the same words in different spellings. -/
def ofWords (words : List Text) : Names where
  controllerClassName := pascalCase words (text "Controller")
  className := pascalCase words (text "View")
  elementTag := kebabCase words
  fileSlug := kebabCase words ++ text "-view"

/-- The names of a label, which needs at least one word. -/
def ofLabel (label : Text) : Except Error Names :=
  match Label.words (Label.phrase label) with
  | [] => .error (.emptyLabel label)
  | words => .ok (ofWords words)

/-- A label has names exactly if its phrase has words. -/
theorem ofLabel_eq_error_iff {label : Text} {e : Error} :
    ofLabel label = .error e ↔ Label.words (Label.phrase label) = [] ∧ e = .emptyLabel label := by
  unfold ofLabel
  split
  · next h => simp [h, eq_comm]
  · next h => simp; exact fun h' => (h h').elim

end Names

end Viewloom
