import Viewloom.Digest.Sha256
import Viewloom.Error
import Viewloom.FileTree
import Viewloom.Json.Codec
import Viewloom.Json.Read
import Viewloom.Json.Write

/-!
# Compiled pages on file

A directory keeps one entry for each page: the compiled view and a digest of what it was compiled
from. An entry whose digest differs is passed over, and one that cannot be read is removed.
-/

namespace Viewloom

/-- What an entry file records: the digest of a label and its source, and the view compiled from
them. -/
structure CacheEntry where
  digest : Text
  view : View
  deriving DecidableEq

namespace CacheEntry

def fieldNames : List Text := [text "hash", text "view"]

def toJson (e : CacheEntry) : Json := .object (fieldNames.zip [.string e.digest, e.view.toJson])

/-- Reads an entry. The view may be as deep as a document may be nested. -/
def ofJson? (j : Json) : Option CacheEntry := do
  match ← Json.fields? fieldNames j with
  | [digest, view] => some ⟨← digest.asString?, ← View.ofJsonWithin (Json.depthLimit + 1) view⟩
  | _ => none

/-- Reads an entry from its text. -/
def parse (source : Text) : Option CacheEntry := (Json.read source).bind ofJson?

end CacheEntry

namespace Cache

/-- The digest of a label and a source. A zero byte stands between them. -/
def digestOf (label source : Text) : Text :=
  Sha256.hex (label.utf8 ++ 0 :: source.utf8)

/-- A path as a file name. -/
def safeName (p : Path) : Text :=
  p.map fun c => if c = '/' ∨ c = '\\' ∨ c = ':' then '_' else c

/-- The file of the entry of a page. -/
def entryPath (dir page : Path) : Path := Path.join dir (safeName page ++ text ".json")

/-- Makes the directory of a cache. -/
def start (top : FileTree) (dir : Path) : Except Error FileTree :=
  match top.makeDirectories dir with
  | .ok top => .ok top
  | .error cause => .error (.access dir cause)

/-- The view that is kept for a page, its label and its source. -/
def get (top : FileTree) (dir page : Path) (label source : Text) : Option View × FileTree :=
  match top.read (entryPath dir page) with
  | .error _ => (none, top)
  | .ok data =>
    match CacheEntry.parse data with
    | some e => (if e.digest = digestOf label source then some e.view else none, top)
    | none => (none, (top.remove (entryPath dir page)).toOption.getD top)

/-- Keeps a view for a page, its label and its source. -/
def set (top : FileTree) (dir page : Path) (label source : Text) (view : View) :
    Except Error FileTree :=
  let e : CacheEntry := ⟨digestOf label source, view⟩
  match top.write (entryPath dir page) (some e.toJson.write) with
  | .ok top => .ok top
  | .error cause => .error (.access (entryPath dir page) cause)

end Cache

end Viewloom
