import Viewloom.Error
import Viewloom.Script.Print
import Viewloom.Script.Requires

/-!
# Checked modules

An emitted text has to be a module before it is written. A text that is none is reported under the
name of its view.
-/

namespace Viewloom.Module

open Script (Tree)

/-- The syntax tree of the module of a view. -/
def treeOf (view code : Text) : Except Error Tree :=
  match Script.parse code with
  | some t => .ok t
  | none => .error (.invalidModule view)

/-- Fails for a text that is no module. -/
def check (view code : Text) : Except Error Unit :=
  match treeOf view code with
  | .ok _ => .ok ()
  | .error e => .error e

/-- Prints the module of a view anew. -/
def format (view code : Text) : Except Error Text :=
  match treeOf view code with
  | .ok t => .ok t.print
  | .error e => .error e

/-- The modules that the module of a view requires by their names. -/
def collectRequires (view code : Text) : Except Error (List Text) :=
  match treeOf view code with
  | .ok t => .ok t.requires
  | .error e => .error e

end Viewloom.Module
