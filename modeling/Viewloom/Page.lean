import Viewloom.Error
import Viewloom.FileTree
import Viewloom.Text.Order

/-!
# Pages

The pages of a site are its files with the extension `html`, in any case. A page is labelled by its
path without the extension.
-/

namespace Viewloom

/-- A page of a site: a file of markup and the label that its place gives it. -/
structure Page where
  label : Text
  path : Path
  deriving DecidableEq, Repr

namespace Page

/-- The label of a page below a root: the names on its path, the last one without its extension. -/
def labelOf (root path : Path) : Option Text :=
  match Path.behind? root.components path.components with
  | none => none
  | some behind =>
    let words := (Path.withoutExtension behind).filterMap Path.Component.name?
    if words = [] then none else some (List.intercalate [' '] words)

/-- Whether a file holds a page, by the ending of its name. -/
def isPage (path : Path) : Bool :=
  match path.extension? with
  | some ending => Text.equalsIgnoreCaseAscii ending (text "html")
  | none => false

/-- The page of a path, if it is one and has a label. -/
def ofPath (root path : Path) : Option Page :=
  if isPage path then (labelOf root path).map fun label => ⟨label, path⟩ else none

/-- The order of pages, which is that of their labels alone. -/
def le (a b : Page) : Bool := !Text.precedes b.label a.label

/-- The pages among paths, sorted by their labels. Pages with one label keep their order. -/
def ofPaths (root : Path) (paths : List Path) : List Page :=
  (paths.filterMap (ofPath root)).mergeSort le

/-- The pages of a site. -/
def discover (top : FileTree) (root : Path) : Except Error (List Page) :=
  match top.look root with
  | .ok t => .ok (ofPaths root (t.filesBelow root))
  | .error cause => .error (.discovery root root cause)

/-- The source of a page. -/
def read (top : FileTree) (page : Page) : Except Error Text :=
  match top.read page.path with
  | .ok source => .ok source
  | .error cause => .error (.access page.path cause)

end Page

end Viewloom
