import Viewloom.Script.Module

/-!
# Required modules

The modules that a script requires by their names, in the order of the script.
-/

namespace Viewloom.Script

/-- The module that a call requires: the callee is the bare name and the first argument a string. -/
def requiredBy (callee : Tree) (arguments : List Tree) : List Text :=
  match callee, arguments with
  | .node .identifier name _, .node .string value _ :: _ =>
    if name = text "require" then [value] else []
  | _, _ => []

/-- What a tree requires itself, without its parts. -/
def ownRequires : Tree → List Text
  | .node (.call _) _ (callee :: arguments) => requiredBy callee arguments
  | _ => []

mutual

/-- The modules that a tree requires, itself first and then its parts in their order. -/
def Tree.requires : Tree → List Text
  | .node kind word parts => ownRequires (.node kind word parts) ++ requiresAll parts

def Tree.requiresAll : List Tree → List Text
  | [] => []
  | t :: ts => t.requires ++ requiresAll ts

end

end Viewloom.Script
