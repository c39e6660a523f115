import Viewloom.Html.Document
import Viewloom.Markup.Print
import Viewloom.Template.Binding
import Viewloom.Template.Conversion
import Viewloom.Template.Print
import Viewloom.View.Basic
import Viewloom.View.Markers

/-!
# Compiling a page

A page is scoped, its child views are extracted and compiled, its sockets are found, and its template
is bound to both. A child view has fewer markers than the page it was taken from, so the compilation
ends.
-/

namespace Viewloom

namespace Extraction

/-- A child that shares its tag, or else its class, with an earlier one. -/
def firstDuplicate (tags classes : List Text) : List Extraction → Option Text
  | [] => none
  | e :: es =>
    if e.names.elementTag ∈ tags then some e.names.elementTag
    else if e.names.className ∈ classes then some e.names.className
    else firstDuplicate (e.names.elementTag :: tags) (e.names.className :: classes) es

end Extraction

namespace View

open Markup (Node)

/-- The view of a page whose children are compiled and whose sockets differ. -/
def assemble (label : Text) (names : Names) (rest : List Node) (children : List View) :
    Except Error View :=
  let (tagged, sockets) := Markup.tagSockets rest
  match firstRepeated [] sockets with
  | some socket => .error (.duplicateSocket names.className socket)
  | none =>
    let nodes := (Template.bind (children.map View.names) (Template.ofMarkup tagged)).1
    .ok ⟨label, names, Markup.prettyPrint rest, sockets, nodes, Template.print nodes, children⟩

mutual

/-- Compiles a page as a view. -/
def ofPage (label : Text) (names : Names) (page : List Node) : Except Error View :=
  match _h : Markup.decompose (Markup.scope page) with
  | .error e => .error e
  | .ok (rest, extractions) =>
    match Extraction.firstDuplicate [] [] extractions with
    | some name => .error (.duplicateChild names.className name)
    | none =>
      match ofExtractions extractions with
      | .error e => .error e
      | .ok children => assemble label names rest children
termination_by 2 * Node.markersAll page + 1
decreasing_by
  have h := Extraction.markers_decompose _h
  simp only [Markup.scope, Markup.Node.markersAll_scopeAll] at h
  omega

/-- Compiles the extracted children of a page. -/
def ofExtractions : List Extraction → Except Error (List View)
  | [] => .ok []
  | e :: es =>
    match ofPage e.label e.names [e.element.toNode] with
    | .error error => .error error
    | .ok child =>
      match ofExtractions es with
      | .error error => .error error
      | .ok children => .ok (child :: children)
termination_by es => 2 * (Extraction.markersAll es + es.length)
decreasing_by
  · simp only [Node.markersAll, Extraction.markersAll, Extraction.markers, List.length_cons]
    omega
  · simp only [Extraction.markersAll, List.length_cons]
    omega

end

/-- The view of a label and a source text, of which a blank one leaves the view without content. -/
def ofSource (label : Text) (names : Names) (source : Text) : Except Error View :=
  if Text.isAllBlank source then .ok (blank label names)
  else ofPage label names (Html.parseBody source)

/-- Compiles a source text under a label. -/
def compile (label source : Text) : Except Error View :=
  match Names.ofLabel label with
  | .error e => .error e
  | .ok names => ofSource label names source

/-- Gives a view new markup. A view stays as it was if the markup does not compile. -/
def setMarkup (v : View) (source : Text) : View × Option Error :=
  match ofSource v.label v.names source with
  | .ok w => (w, none)
  | .error e => (v, some e)

end View

end Viewloom
