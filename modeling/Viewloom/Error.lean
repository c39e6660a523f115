import Viewloom.Text.Basic

/-!
# Errors

Every way in which compiling, emitting or writing can fail, each with a stable code and a message.
-/

namespace Viewloom

/-- Why the file system refused an operation. -/
inductive FileError where
  | notFound
  | alreadyExists
  | notDirectory
  | isDirectory
  | nameTooLong
  | notText
  | nulInName
  deriving DecidableEq, Repr

/-- What makes a compilation fail. -/
inductive Error where
  | emptyLabel (label : Text)
  | duplicateSocket (view socket : Text)
  | duplicateChild (view name : Text)
  | conflictingView (className : Text)
  | controllerLoad (path reason : Text)
  | invalidModule (view : Text)
  | access (path : Text) (cause : FileError)
  | discovery (root path : Text) (cause : FileError)
  | options
  deriving DecidableEq, Repr

namespace FileError

/-- The text that the operating system has for a cause. -/
def message : FileError → Text
  | notFound => text "No such file or directory (os error 2)"
  | alreadyExists => text "File exists (os error 17)"
  | notDirectory => text "Not a directory (os error 20)"
  | isDirectory => text "Is a directory (os error 21)"
  | nameTooLong => text "File name too long (os error 36)"
  | notText => text "stream did not contain valid UTF-8"
  | nulInName => text "file name contained an unexpected NUL byte"

end FileError

namespace Error

/-- The code by which a host tells failures apart. -/
def code : Error → Text
  | emptyLabel _ => text "AF-ERR-NAME-001"
  | duplicateSocket _ _ => text "AF-ERR-SOCKET-001"
  | duplicateChild _ _ => text "AF-ERR-CHILD-001"
  | conflictingView _ => text "AF-ERR-CHILD-002"
  | controllerLoad _ _ => text "AF-ERR-CTRL-001"
  | invalidModule _ => text "AF-ERR-EMIT-001"
  | access _ _ => text "AF-ERR-IO-001"
  | discovery _ _ _ => text "AF-ERR-DISCOVERY-001"
  | options => text "AF-ERR-CONFIG-001"

/-- The text that is shown for a failure. -/
def message : Error → Text
  | emptyLabel label => text "label '" ++ label ++ text "' does not contain any words"
  | duplicateSocket view socket =>
    text "socket '" ++ socket ++ text "' is declared more than once in '" ++ view ++ text "'"
  | duplicateChild view name =>
    text "child view '" ++ name ++ text "' is declared more than once in '" ++ view ++ text "'"
  | conflictingView className =>
    text "view class '" ++ className ++ text "' has conflicting definitions in one tree"
  | controllerLoad path reason =>
    text "failed to load controller '" ++ path ++ text "': " ++ reason
  | invalidModule view => text "generated module for '" ++ view ++ text "' is not valid"
  | access path cause => text "failed to access '" ++ path ++ text "': " ++ cause.message
  | discovery root path cause =>
    text "failed to scan '" ++ root ++ text "': IO error for operation on " ++ path ++ text ": " ++
      cause.message
  | options => text "invalid compile options"

end Error

end Viewloom
