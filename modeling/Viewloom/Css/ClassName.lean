import Viewloom.Unicode.Blank

/-!
# Scoped class names

Classes live in a private name space, marked by a fixed beginning. A name that has it already is
left alone.
-/

namespace Viewloom.Css

open Unicode

/-- What is put in front of every class name. -/
def classScope : Text := text "__af-"

/-- Scopes a class name once: a name in the scope stays as it is. -/
def scopeClassName (name : Text) : Text :=
  if classScope.isPrefixOf name then name else classScope ++ name

/-- Scopes the blank-separated names of a text; the flag tells whether a name has begun. -/
def scopeNames : Bool → Text → Text
  | _, [] => []
  | begun, c :: s =>
    if isBlank c then c :: scopeNames false s
    else if begun || classScope.isPrefixOf (c :: s) then c :: scopeNames true s
    else classScope ++ c :: scopeNames true s

/-- Scopes every name of a class attribute. -/
def scopeClassAttribute (value : Text) : Text := scopeNames false value

theorem classScope_eq : classScope = ['_', '_', 'a', 'f', '-'] := by decide

/-- A scoped class name is in the scope. -/
theorem isPrefixOf_scopeClassName (name : Text) :
    classScope.isPrefixOf (scopeClassName name) = true := by
  unfold scopeClassName
  split
  · assumption
  · exact List.isPrefixOf_iff_prefix.2 (List.prefix_append ..)

/-- Class names are scoped once. -/
@[simp]
theorem scopeClassName_scopeClassName (name : Text) :
    scopeClassName (scopeClassName name) = scopeClassName name := by
  have h := isPrefixOf_scopeClassName name
  rw [scopeClassName.eq_def (scopeClassName name), if_pos h]

end Viewloom.Css
