import Viewloom.Error
import Viewloom.Path

/-!
# File trees

A directory with everything below it, as a value. Every operation takes a path that leads on from the
top; it gives what it found, or the new tree, or the cause of a refusal.

An entry is a file or a directory. Symbolic and hard links, permissions and special files are left out,
and so is a full disk: no operation is refused on their account. The top is the root of absolute paths
and the working directory of relative ones at once.
-/

namespace Viewloom

/-- A file holds a text, or nothing if its bytes are none. A directory keeps its entries in the order
in which they are enumerated. -/
inductive FileTree where
  | file (content : Option Text)
  | directory (entries : List (Text × FileTree))

namespace FileTree

def empty : FileTree := directory []

def isDirectory : FileTree → Bool
  | directory _ => true
  | file _ => false

/-! ## Entries -/

/-- The entry of a name. -/
def findEntry (name : Text) : List (Text × FileTree) → Option FileTree
  | [] => none
  | (n, t) :: entries => if n = name then some t else findEntry name entries

/-- Puts an entry in the place of the one of its name, or else at the end. -/
def putEntry (name : Text) (t : FileTree) : List (Text × FileTree) → List (Text × FileTree)
  | [] => [(name, t)]
  | (n, u) :: entries => if n = name then (n, t) :: entries else (n, u) :: putEntry name t entries

/-- Drops the first entry of a name. -/
def eraseEntry (name : Text) : List (Text × FileTree) → List (Text × FileTree)
  | [] => []
  | (n, t) :: entries => if n = name then entries else (n, t) :: eraseEntry name entries

/-- Among entries a name is found where it has been put last. -/
@[simp]
theorem findEntry_putEntry (name n : Text) (t : FileTree) (entries : List (Text × FileTree)) :
    findEntry n (putEntry name t entries) = if name = n then some t else findEntry n entries := by
  induction entries with
  | nil => simp [putEntry, findEntry]
  | cons e entries ih =>
    obtain ⟨m, u⟩ := e
    by_cases h : m = name
    · subst h
      by_cases hn : m = n <;> simp [putEntry, findEntry, hn]
    · by_cases hn : m = n
      · subst hn
        simp [putEntry, findEntry, h, Ne.symm h]
      · simp [putEntry, findEntry, h, hn, ih]

/-- What a sequence of names leads to. -/
def at? : FileTree → List Text → Option FileTree
  | t, [] => some t
  | directory entries, n :: ns =>
    match findEntry n entries with
    | some t => at? t ns
    | none => none
  | file _, _ :: _ => none

/-- Changes the entries of the directory that a sequence of names leads to. -/
def modify (f : List (Text × FileTree) → List (Text × FileTree)) : FileTree → List Text → FileTree
  | directory entries, [] => directory (f entries)
  | directory entries, n :: ns =>
    match findEntry n entries with
    | some t => directory (putEntry n (modify f t ns) entries)
    | none => directory entries
  | file content, _ => file content

/-! ## Walking -/

/-- The greatest number of bytes of a name. -/
def nameLimit : Nat := 255

/-- The number of bytes that a path stays below. -/
def pathLimit : Nat := 4096

/-- The number of bytes that a text takes in UTF-8. -/
def byteLength : Text → Nat
  | [] => 0
  | c :: s => c.utf8Size + byteLength s

/-- Causes that are seen before a path is walked. -/
def refuse (p : Path) : Option FileError :=
  if p.contains (Char.ofNat 0) then some .nulInName
  else if p = [] then some .notFound
  else if pathLimit ≤ byteLength p then some .nameTooLong
  else none

/-- The steps of a path. An empty piece stays where it is, but only in a directory. -/
def steps (p : Path) : List Text :=
  let pieces := List.splitOnP (· == '/') p
  if p.isAbsolute then pieces.drop 1 else pieces

/-- Walks on from the directory that names lead to; gives the names that lead to the end. There is
nothing above the top. -/
def walk (top : FileTree) : List Text → List Text → Except FileError (List Text)
  | names, [] => .ok names
  | names, step :: more =>
    match top.at? names with
    | some (directory entries) =>
      if step = [] ∨ step = ['.'] then walk top names more
      else if step = text ".." then walk top names.dropLast more
      else if nameLimit < byteLength step then .error .nameTooLong
      else
        match findEntry step entries with
        | some _ => walk top (names ++ [step]) more
        | none => .error .notFound
    | some (file _) => .error .notDirectory
    | none => .error .notFound

/-- The names that a path leads along. -/
def locate (top : FileTree) (p : Path) : Except FileError (List Text) :=
  match refuse p with
  | some cause => .error cause
  | none => walk top [] (steps p)

/-- What stands at a path. -/
def look (top : FileTree) (p : Path) : Except FileError FileTree :=
  match locate top p with
  | .ok names =>
    match top.at? names with
    | some t => .ok t
    | none => .error .notFound
  | .error cause => .error cause

/-- Whether a path leads to a directory. -/
def hasDirectory (top : FileTree) (p : Path) : Bool :=
  match look top p with
  | .ok t => t.isDirectory
  | .error _ => false

/-! ## Reading and writing -/

/-- Reads a file as text. -/
def read (top : FileTree) (p : Path) : Except FileError Text :=
  match look top p with
  | .ok (file (some content)) => .ok content
  | .ok (file none) => .error .notText
  | .ok (directory _) => .error .isDirectory
  | .error cause => .error cause

/-- Whether a step names an entry that could be made. -/
def isNew (step : Text) : Bool := step != [] && step != ['.'] && step != text ".."

/-- The directory that holds the end of a path, and the name of the end, which may be new. -/
def locateNew (top : FileTree) (p : Path) : Except FileError (List Text × Text) :=
  match refuse p with
  | some cause => .error cause
  | none =>
    match walk top [] (steps p).dropLast with
    | .error cause => .error cause
    | .ok names =>
      let last := (steps p).getLast?.getD []
      match top.at? names with
      | some (directory _) =>
        if nameLimit < byteLength last then .error .nameTooLong else .ok (names, last)
      | _ => .error .notDirectory

/-- Writes a file, in the place of one that is there. -/
def write (top : FileTree) (p : Path) (content : Option Text) : Except FileError FileTree :=
  match locateNew top p with
  | .error cause => .error cause
  | .ok (names, last) =>
    if isNew last = false then .error .isDirectory
    else
      match top.at? (names ++ [last]) with
      | some (directory _) => .error .isDirectory
      | _ => .ok (top.modify (putEntry last (file content)) names)

/-- Makes one directory. -/
def makeDirectory (top : FileTree) (p : Path) : Except FileError FileTree :=
  match locateNew top (Text.dropWhileEnd (· == '/') p) with
  | .error cause => .error cause
  | .ok (names, last) =>
    if isNew last = false then .error .alreadyExists
    else
      match top.at? (names ++ [last]) with
      | some _ => .error .alreadyExists
      | none => .ok (top.modify (putEntry last empty) names)

/-- Makes the directories along a path, of which the first steps have been gone. -/
def makeAlong (top : FileTree) (gone : Path) : List Text → Except FileError FileTree
  | [] => .ok top
  | step :: more =>
    let here := Path.join gone step
    match makeDirectory top here with
    | .ok top => makeAlong top here more
    | .error cause =>
      if hasDirectory top here then makeAlong top here more
      else if cause = .alreadyExists ∧ more ≠ [] then .error .notDirectory
      else .error cause

/-- Makes a directory and those above it, as far as they are missing. -/
def makeDirectories (top : FileTree) (p : Path) : Except FileError FileTree :=
  if p = [] then .ok top
  else
    match refuse p with
    | some cause => .error cause
    | none =>
      makeAlong top [] (p.components.map Path.Component.toText)

/-- Removes a file or a directory with all that is in it. -/
def remove (top : FileTree) (p : Path) : Except FileError FileTree :=
  match locate top p with
  | .error cause => .error cause
  | .ok names =>
    match names.getLast? with
    | some last => .ok (top.modify (eraseEntry last) names.dropLast)
    | none => .error .isDirectory

/-! ## Listing -/

mutual

/-- The paths of the files below a path, in the order of enumeration. -/
def filesBelow (p : Path) : FileTree → List Path
  | file _ => [p]
  | directory entries => filesIn p entries

/-- The paths of all files in the entries of a directory. -/
def filesIn (p : Path) : List (Text × FileTree) → List Path
  | [] => []
  | (n, t) :: entries => filesBelow (Path.join p n) t ++ filesIn p entries

end

end FileTree

end Viewloom
