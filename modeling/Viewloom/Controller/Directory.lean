import Viewloom.Controller
import Viewloom.FileTree

/-!
# Controllers in a directory

A controller is a file of its name with one of several extensions, or the index of a directory of its
name. What is missing is passed over; any other refusal is an error.
-/

namespace Viewloom.Controller

/-- The extensions of modules, in the order in which they are tried. -/
def extensions : List Text := [text "js", text "jsx", text "ts", text "tsx"]

/-- The places where a controller may be. -/
def candidates (dir : Path) (name : Text) : List Path :=
  extensions.map (fun ending => Path.join dir (name ++ '.' :: ending)) ++
    [Path.join (Path.join dir name) (text "index.js")]

/-- Whether a refusal only means that there is nothing. -/
def isMissing (cause : FileError) : Bool := cause == .notFound || cause == .notDirectory

/-- The first place that holds a file. -/
def firstFile (top : FileTree) : List Path → Except Error Lookup
  | [] => .ok .notFound
  | p :: ps =>
    match top.look p with
    | .ok (.file _) => .ok (.found p)
    | .ok (.directory _) => firstFile top ps
    | .error cause =>
      if isMissing cause then firstFile top ps else .error (.controllerLoad p cause.message)

/-- Looks controllers up in a directory. -/
def directoryLoader (top : FileTree) (dir : Path) : Loader := fun name =>
  firstFile top (candidates dir name)

end Viewloom.Controller
