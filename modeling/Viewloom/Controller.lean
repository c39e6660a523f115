import Viewloom.Error

/-!
# Controllers

A view renders under an external controller if there is one, and under itself otherwise. A resolver
remembers what a loader has found out, but not its failures.
-/

namespace Viewloom

/-- The outcome of looking for a controller. -/
inductive Lookup where
  | found (path : Text)
  | notFound
  deriving DecidableEq, Repr

namespace Lookup

/-- Whether another module controls the view, and not the view itself. -/
def isExternal : Lookup → Bool
  | found _ => true
  | notFound => false

end Lookup

/-- Looks up the controller of a class name. -/
abbrev Loader := Text → Except Error Lookup

/-- The outcomes that have been found, by class name. -/
abbrev Resolver := List (Text × Lookup)

namespace Resolver

/-- What an earlier lookup of a name has found. -/
def known? (r : Resolver) (name : Text) : Option Lookup := List.lookup name r

/-- Resolves a name; tells whether the loader was asked. -/
def resolve (r : Resolver) (loader : Loader) (name : Text) :
    Except Error Lookup × Resolver × Bool :=
  match r.known? name with
  | some lookup => (.ok lookup, r, false)
  | none =>
    match loader name with
    | .ok lookup => (.ok lookup, (name, lookup) :: r, true)
    | .error e => (.error e, r, true)

end Resolver

end Viewloom
