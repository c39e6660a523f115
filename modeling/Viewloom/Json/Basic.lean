import Viewloom.Text.Basic

/-!
# JSON values

Objects keep their members in the order they are written, repeated names included. Numbers are kept
as they are spelled, since nothing in the library counts with them.
-/

namespace Viewloom

/-- A value, with the spelling of its numbers and the order of its members. -/
inductive Json where
  | null
  | bool (value : Bool)
  | number (spelling : Text)
  | string (value : Text)
  | array (items : List Json)
  | object (members : List (Text × Json))
  deriving Inhabited, Repr

namespace Json

def asString? : Json → Option Text
  | string value => some value
  | _ => none

def asBool? : Json → Option Bool
  | bool value => some value
  | _ => none

/-- Reads every item of an array. -/
def decodeAll {α : Type} (decode : Json → Option α) (j : Json) : Option (List α) :=
  match j with
  | array items => items.mapM decode
  | _ => none

/-- The values of a name among members. -/
def valuesOf (name : Text) : List (Text × Json) → List Json
  | [] => []
  | (n, value) :: members =>
    if n = name then value :: valuesOf name members else valuesOf name members

/-- The value of a name that occurs once. -/
def unique? (name : Text) (members : List (Text × Json)) : Option Json :=
  match valuesOf name members with
  | [value] => some value
  | _ => none

/-- The fields of a structure in order, written as members or as an array. -/
def fields? (names : List Text) : Json → Option (List Json)
  | object members => names.mapM fun name => unique? name members
  | array items => if items.length = names.length then some items else none
  | _ => none

/-- The tag of a value that carries it among its fields, and the rest of it. -/
def tagged? (name : Text) : Json → Option (Text × Json)
  | object members =>
    match unique? name members with
    | some (string tag) => some (tag, object (members.filter fun m => m.1 != name))
    | _ => none
  | array (string tag :: items) => some (tag, array items)
  | _ => none

/-- The tag of a value and the content beside it, which is absent or null for a tag alone. -/
def adjacent? (name content : Text) : Json → Option (Text × Option Json)
  | object members =>
    match unique? name members, valuesOf content members with
    | some (string tag), [] => some (tag, none)
    | some (string tag), [value] => some (tag, some value)
    | _, _ => none
  | array [string tag, value] => some (tag, some value)
  | _ => none

end Json

end Viewloom
