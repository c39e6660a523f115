import Viewloom.Error
import Viewloom.FileTree
import Viewloom.Json.Read

/-!
# Options

Where views are written and controllers are looked for, whether pages are cached, and whether modules
are printed anew. Options that are left out have defaults.
-/

namespace Viewloom

/-- Where views are written, where controllers and recorded views are looked for, and how modules
are printed. -/
structure Options where
  viewsDir : Path
  controllersDir : Path
  cacheDir : Option Path
  formatModules : Bool
  deriving DecidableEq, Repr

namespace Options

/-- The options that hold where none are given. -/
def default : Options := ⟨text "views", text "controllers", none, true⟩

def fieldNames : List Text :=
  [text "viewsDir", text "controllersDir", text "cacheDir", text "formatModules"]

/-- The values of the fields, of which some may be left out and none may be given twice. -/
def fields? : Json → Option (List (Option Json))
  | .object members =>
    fieldNames.mapM fun name =>
      match Json.valuesOf name members with
      | [] => some none
      | [value] => some (some value)
      | _ => none
  | .array items =>
    if items.length ≤ fieldNames.length then
      some (items.map some ++ List.replicate (fieldNames.length - items.length) none)
    else none
  | _ => none

/-- Reads a field, or gives its default if it is left out. -/
def field? {α : Type} (read : Json → Option α) (value : α) : Option Json → Option α
  | none => some value
  | some j => read j

/-- A text, or null for none. -/
def optionalText? : Json → Option (Option Text)
  | .null => some none
  | .string s => some (some s)
  | _ => none

/-- Reads options. A field that is left out holds its default, one of a wrong kind is refused. -/
def ofJson? (j : Json) : Option Options := do
  match ← fields? j with
  | [views, controllers, cache, format] =>
    some
      { viewsDir := ← field? Json.asString? default.viewsDir views
        controllersDir := ← field? Json.asString? default.controllersDir controllers
        cacheDir := ← field? optionalText? none cache
        formatModules := ← field? Json.asBool? true format }
  | _ => none

/-- Reads options from a JSON text. -/
def parse (source : Text) : Except Error Options :=
  match (Json.read source).bind ofJson? with
  | some options => .ok options
  | none => .error .options

/-- Reads options from a file. -/
def load (top : FileTree) (p : Path) : Except Error Options :=
  match top.read p with
  | .ok source => parse source
  | .error cause => .error (.access p cause)

end Options

end Viewloom
