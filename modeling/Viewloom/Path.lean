import Viewloom.Text.Basic

/-!
# Paths

A path is a text whose pieces stand between slashes. Empty pieces do not count, and neither do single
points but at the beginning of a relative path.
-/

namespace Viewloom

/-- A path as it is spelled. -/
abbrev Path := Text

namespace Path

/-- What stands between the separators of a path. -/
inductive Component where
  | root
  | current
  | parent
  | name (name : Text)
  deriving DecidableEq, Repr

namespace Component

def ofPiece (piece : Text) : Component :=
  if piece = text ".." then parent else if piece = ['.'] then current else name piece

def toText : Component → Text
  | root => ['/']
  | current => ['.']
  | parent => text ".."
  | name n => n

def name? : Component → Option Text
  | name n => some n
  | _ => none

end Component

open Component (root current parent name)

def isAbsolute (p : Path) : Bool := p.head? == some '/'

/-- The pieces that count. -/
def pieces (p : Path) : List Text :=
  (List.splitOnP (· == '/') p).filter fun piece => piece != [] && piece != ['.']

/-- Whether a path begins with a single point of its own. -/
def startsWithPoint (p : Path) : Bool := (List.splitOnP (· == '/') p).head? == some ['.']

/-- What a path consists of. Repeated separators and inner points are passed over. -/
def components (p : Path) : List Component :=
  (if isAbsolute p then [root] else if startsWithPoint p then [current] else []) ++
    (pieces p).map Component.ofPiece

/-- Puts a path behind another one, unless it is absolute. -/
def join (base p : Path) : Path :=
  if isAbsolute p || base == [] then p
  else if base.getLast? == some '/' then base ++ p
  else base ++ '/' :: p

/-- The path of components. -/
def ofComponents (components : List Component) : Path :=
  components.foldl (fun p c => join p c.toText) []

/-- Cuts a file name at its last point, unless only an empty name is in front of it. -/
def splitName (fileName : Text) : Text × Option Text :=
  let ending := fileName.reverse.takeWhile (· != '.')
  let base := fileName.take (fileName.length - ending.length - 1)
  if ending.length = fileName.length ∨ base = [] then (fileName, none)
  else (base, some ending.reverse)

/-- The name at the end of a path. -/
def fileName? (p : Path) : Option Text := p.components.getLast?.bind Component.name?

/-- What stands behind the last point of a file name. -/
def extension? (p : Path) : Option Text := p.fileName?.bind fun n => (splitName n).2

/-- The components without the extension of the name at the end. What is left of the name may be a
step itself. -/
def withoutExtension : List Component → List Component
  | [] => []
  | [name n] => [Component.ofPiece (splitName n).1]
  | c :: cs => c :: withoutExtension cs

/-- The components behind those of another path. -/
def behind? : List Component → List Component → Option (List Component)
  | [], cs => some cs
  | _ :: _, [] => none
  | b :: bs, c :: cs => if b = c then behind? bs cs else none

/-- Drops the point at the beginning. -/
def dropPoint : List Component → List Component
  | current :: cs => cs
  | cs => cs

/-- The way from one directory to another: up as often as needed, and then down. There is none if it
would have to undo a step up. The flag tells whether the paths have not parted yet. -/
def way : Bool → List Component → List Component → Option (List Component)
  | _, [], [] => some []
  | _, target, [] => some target
  | _, [], _ :: base => (way false [] base).map (parent :: ·)
  | together, c :: target, b :: base =>
    if together = true ∧ c = b then way true target base
    else if b = current then (way false target base).map (c :: ·)
    else if b = parent then none
    else some (parent :: base.map (fun _ => parent) ++ c :: target)

/-- The path that leads to a place from a directory. -/
def relative? (target base : Path) : Option Path :=
  if target.isAbsolute != base.isAbsolute then if target.isAbsolute then some target else none
  else (way true (dropPoint target.components) (dropPoint base.components)).map ofComponents

end Path

end Viewloom
