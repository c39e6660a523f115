import Viewloom.Label.Names
import Viewloom.Markup.Basic

/-!
# Extraction of child views

A marked element is taken out of its page and becomes a view of its own. A placeholder stays
behind, and it keeps the socket marker. What remains of the page is then cleaned up.
-/

namespace Viewloom

/-- Names the child view that an element becomes. -/
def childMarker : Text := text "af-el"

/-- The marker of an element that a controller may fill. -/
def socketMarker : Text := text "af-sock"

/-- The marker of an element that is dropped with its content. -/
def ignoreMarker : Text := text "af-ignore"

/-- The marker of an element that is kept without its content. -/
def emptyMarker : Text := text "af-empty"

/-- An element taken out of its page, without its markers. -/
structure Extraction where
  label : Text
  names : Names
  element : Markup.Element

namespace Extraction

open Markup (Node)

/-- The tag of what is left in the place of an extracted element. -/
def placeholderTag (elementTag : Text) : Text := text "af-" ++ elementTag

/-- What stays behind for a child view. -/
def placeholder (names : Names) (attributes : List Attribute) : Node :=
  .element (placeholderTag names.elementTag)
    (((Attribute.get? socketMarker attributes).map (Attribute.mk socketMarker)).toList) []

mutual

/-- Takes the outermost marked elements out of a node. -/
def ofNode : Node → Except Error (Node × List Extraction)
  | .element tag attributes children =>
    match Attribute.get? childMarker attributes with
    | some label =>
      match Names.ofLabel label with
      | .ok names =>
        let unmarked := Attribute.erase socketMarker (Attribute.erase childMarker attributes)
        .ok (placeholder names attributes, [⟨label, names, ⟨tag, unmarked, children⟩⟩])
      | .error e => .error e
    | none =>
      match ofNodes children with
      | .ok (children, extractions) => .ok (.element tag attributes children, extractions)
      | .error e => .error e
  | n => .ok (n, [])

/-- Takes the outermost marked elements out of a forest, in the order of the page. -/
def ofNodes : List Node → Except Error (List Node × List Extraction)
  | [] => .ok ([], [])
  | n :: ns =>
    match ofNode n with
    | .error e => .error e
    | .ok (n, extractions) =>
      match ofNodes ns with
      | .error e => .error e
      | .ok (ns, more) => .ok (n :: ns, extractions ++ more)

end

end Extraction

namespace Markup

mutual

/-- Drops the content of elements that are marked as empty. -/
def Node.clearEmpty : Node → Node
  | .element tag attributes children =>
    if Attribute.has emptyMarker attributes then
      .element tag (Attribute.erase emptyMarker attributes) []
    else .element tag attributes (clearEmptyAll children)
  | n => n

def Node.clearEmptyAll : List Node → List Node
  | [] => []
  | n :: ns => n.clearEmpty :: clearEmptyAll ns

end

/-- Drops ignored elements, the content of empty ones, and scripts. -/
def cleanUp (nodes : List Node) : List Node :=
  let kept := Node.pruneAll (fun _ attributes => Attribute.has ignoreMarker attributes) nodes
  Node.pruneAll (fun tag _ => tag == text "script") (Node.clearEmptyAll kept)

/-- Extracts the child views and cleans up what remains. -/
def decompose (nodes : List Node) : Except Error (List Node × List Extraction) :=
  match Extraction.ofNodes nodes with
  | .ok (rest, extractions) => .ok (cleanUp rest, extractions)
  | .error e => .error e

end Markup

end Viewloom
