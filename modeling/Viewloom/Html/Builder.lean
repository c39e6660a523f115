import Viewloom.Html.Lexer
import Viewloom.Html.TagSets

/-!
# Construction of a document

The state between two tokens: the document so far, the open elements from the innermost outwards,
the formatting elements that must be reopened, and the insertion mode.
-/

namespace Viewloom.Html

/-- The insertion modes: where in a document the parser stands. -/
inductive Mode where
  | initial
  | beforeHtml
  | beforeHead
  | inHead
  | afterHead
  | inBody
  | inText
  | inTable
  | inTableText
  | inCaption
  | inColumnGroup
  | inTableBody
  | inRow
  | inCell
  | inSelect
  | inSelectInTable
  | inTemplate
  | afterBody
  | inFrameset
  | afterFrameset
  | afterAfterBody
  | afterAfterFrameset
  deriving DecidableEq, Repr

/-- An open element, with the attributes it was opened with. -/
structure Open where
  id : Nat
  name : Name
  attributes : List Attribute
  deriving DecidableEq, Repr

/-- An entry of the list of formatting elements that are opened again where they have been closed
early. -/
inductive Formatting where
  | marker
  | element (open' : Open)
  deriving DecidableEq, Repr

/-- A document that is being read: its trees, what is open in them, and the state of the parser. -/
structure Builder where
  trees : List Tree
  fresh : Nat
  stack : List Open
  formatting : List Formatting
  mode : Mode
  returnMode : Mode
  templateModes : List Mode
  head : Option Open
  form : Option Nat
  framesetOk : Bool
  fostering : Bool
  quirks : Bool
  dropNewline : Bool
  tableText : List Text
  reading : Reading

/-- Nothing has been read yet. -/
def Builder.empty : Builder where
  trees := []
  fresh := 0
  stack := []
  formatting := []
  mode := .initial
  returnMode := .initial
  templateModes := []
  head := none
  form := none
  framesetOk := true
  fostering := false
  quirks := false
  dropNewline := false
  tableText := []
  reading := .data

/-- What becomes of a token: it is used up, or it is processed again. -/
inductive Outcome where
  | done (builder : Builder)
  | again (builder : Builder) (token : Token)

namespace Builder

/-! ## Open elements -/

/-- The innermost open element. -/
def current? (b : Builder) : Option Open := b.stack.head?

def currentIs (b : Builder) (p : Name → Bool) : Bool := b.current?.any fun o => p o.name

def currentNamed (b : Builder) (name : Text) : Bool := b.currentIs (· == Name.html name)

def pop (b : Builder) : Builder := { b with stack := b.stack.tail }

/-- Pops the innermost elements that satisfy a test. -/
def popWhile (b : Builder) (p : Name → Bool) : Builder :=
  { b with stack := b.stack.dropWhile fun o => p o.name }

/-- Pops up to and including an element that satisfies a test. -/
def popThrough (b : Builder) (p : Name → Bool) : Builder :=
  { b with stack := (b.stack.dropWhile fun o => !p o.name).tail }

/-- Closes open elements up to one of a name, with it. -/
def popThroughNamed (b : Builder) (name : Text) : Builder := b.popThrough (· == Name.html name)

/-- Pops to the innermost element that satisfies a test, which stays open. -/
def popTo (b : Builder) (p : Name → Bool) : Builder := b.popWhile fun n => !p n

/-- Whether an element stands in the open elements before the first one that limits the scope. -/
def inScope (limit : Name → Bool) (wanted : Open → Bool) : List Open → Bool
  | [] => false
  | o :: os => if wanted o then true else if limit o.name then false else inScope limit wanted os

/-- Whether an element of a name is open within the innermost limit. -/
def hasInScope (b : Builder) (limit : Name → Bool) (name : Text) : Bool :=
  inScope limit (fun o => o.name == Name.html name) b.stack

/-- Whether an element of a name is open at all. -/
def isOpen (b : Builder) (name : Text) : Bool := b.stack.any fun o => o.name == Name.html name

def inTemplateElement (b : Builder) : Bool := b.isOpen (text "template")

def removeFromStack (b : Builder) (id : Nat) : Builder :=
  { b with stack := b.stack.filter fun o => o.id != id }

/-- Closes the elements whose end may be left out. -/
def closeImplied (b : Builder) : Builder := b.popWhile Name.isImpliedEnd

/-- Closes the elements whose end may be left out, but none of a name. -/
def closeImpliedExcept (b : Builder) (name : Text) : Builder :=
  b.popWhile fun n => n.isImpliedEnd && n != Name.html name

/-- Closes a paragraph with everything that is open in it. -/
def closeParagraph (b : Builder) : Builder :=
  (b.closeImpliedExcept (text "p")).popThroughNamed (text "p")

/-- Closes a paragraph that is open in button scope. -/
def endParagraph (b : Builder) : Builder :=
  if b.hasInScope Name.isButtonScope (text "p") then b.closeParagraph else b

/-! ## Insertion -/

/-- Where a piece goes: to the top, into an element, or in front of one. -/
inductive Place where
  | root
  | inside (id : Nat)
  | before (id : Nat)

/-- The place in front of the innermost table, unless a template is nearer. -/
def fosterPlace (trees : List Tree) : List Open → Place
  | [] => .root
  | [o] => .inside o.id
  | o :: parent :: os =>
    if o.name = Name.html (text "template") then .inside o.id
    else if o.name = Name.html (text "table") then
      if (Tree.findAll? o.id trees).isSome then .before o.id else .inside parent.id
    else fosterPlace trees (parent :: os)

/-- Where a new node goes if it is meant for an element. -/
def placeFor (b : Builder) (target : Open) : Place :=
  if b.fostering && target.name.isFoster then fosterPlace b.trees b.stack else .inside target.id

/-- Where the next piece goes: into the innermost open element, or in front of a table. -/
def place (b : Builder) : Place :=
  match b.current? with
  | some o => b.placeFor o
  | none => .root

/-- Adds a piece at a place. -/
def insertAt (b : Builder) (place : Place) (piece : Tree) : Builder :=
  match place with
  | .root => { b with trees := Tree.addLast piece b.trees }
  | .inside id => { b with trees := Tree.appendAll id piece b.trees }
  | .before id => { b with trees := Tree.insertBeforeAll id piece b.trees }

def insertText (b : Builder) (value : Text) : Builder := b.insertAt b.place (.text value)

def insertComment (b : Builder) (value : Text) : Builder := b.insertAt b.place (.comment value)

/-- Inserts an element and opens it. -/
def openElement (b : Builder) (name : Name) (attributes : List Attribute) : Builder :=
  let b' := b.insertAt b.place (.element b.fresh name attributes [])
  { b' with fresh := b.fresh + 1, stack := ⟨b.fresh, name, attributes⟩ :: b'.stack }

def openHtml (b : Builder) (name : Text) (attributes : List Attribute) : Builder :=
  b.openElement (Name.html name) attributes

/-- Inserts an element without content. -/
def insertVoid (b : Builder) (name : Text) (attributes : List Attribute) : Builder :=
  (b.openHtml name attributes).pop

/-- Inserts an element whose text is read in a way of its own. -/
def openText (b : Builder) (name : Text) (attributes : List Attribute) (reading : Reading) :
    Builder :=
  { b.openHtml name attributes with mode := .inText, returnMode := b.mode, reading := reading }

/-! ## Formatting elements -/

/-- Sets a limit to what is opened again. -/
def pushMarker (b : Builder) : Builder := { b with formatting := .marker :: b.formatting }

/-- Forgets all formatting elements within the innermost limit, with the limit. -/
def clearToMarker (b : Builder) : Builder :=
  { b with formatting := (b.formatting.dropWhile (· != .marker)).tail }

def isOpenElement (b : Builder) (id : Nat) : Bool := b.stack.any fun o => o.id == id

/-- The formatting elements that are not open, up to a marker or an open one. -/
def closedFormatting (b : Builder) : List Formatting → List Open
  | .element o :: rest => if b.isOpenElement o.id then [] else o :: b.closedFormatting rest
  | _ => []

/-- Opens a formatting element once more, in the place of its entry. -/
def reopen (b : Builder) (o : Open) : Builder :=
  let b' := b.openElement o.name o.attributes
  { b' with
    formatting := b'.formatting.map fun entry =>
      if entry = .element o then .element ⟨b.fresh, o.name, o.attributes⟩ else entry }

/-- Reopens the formatting elements that a block has closed, outermost first. -/
def reconstruct (b : Builder) : Builder :=
  (b.closedFormatting b.formatting).reverse.foldl reopen b

/-- The formatting elements behind the last marker. -/
def recentFormatting (b : Builder) : List Open :=
  (b.formatting.takeWhile (· != .marker)).filterMap fun
    | .element o => some o
    | .marker => none

/-- Forgets a formatting element. -/
def removeFormatting (b : Builder) (id : Nat) : Builder :=
  { b with
    formatting := b.formatting.filter fun
      | .element o => o.id != id
      | .marker => true }

/-- Whether two lists hold the same attributes in any order. -/
def sameAttributes (as bs : List Attribute) : Bool :=
  as.length == bs.length && as.all fun a => bs.contains a

/-- Of more than two equal formatting elements the oldest is forgotten. -/
def limitEqual (b : Builder) (name : Name) (attributes : List Attribute) : Builder :=
  let equal := b.recentFormatting.filter fun o =>
    o.name == name && sameAttributes o.attributes attributes
  if 3 ≤ equal.length then
    match equal.getLast? with
    | some o => b.removeFormatting o.id
    | none => b
  else b

/-- Opens a formatting element and remembers it, behind at most three that are equal. -/
def openFormatting (b : Builder) (name : Text) (attributes : List Attribute) : Builder :=
  let b := b.limitEqual (Name.html name) attributes
  let b' := b.openHtml name attributes
  { b' with formatting := .element ⟨b.fresh, Name.html name, attributes⟩ :: b'.formatting }

/-! ## Insertion modes -/

/-- The mode within a select element, given the elements around it. -/
def selectMode : List Open → Mode
  | [] => .inSelect
  | o :: os =>
    if o.name = Name.html (text "template") then .inSelect
    else if o.name = Name.html (text "table") then .inSelectInTable
    else selectMode os

/-- The mode that the open elements call for. -/
def modeOf (b : Builder) : List Open → Mode
  | [] => .inBody
  | o :: os =>
    if o.name.space ≠ .html then b.modeOf os
    else if o.name.name = text "select" then selectMode os
    else if o.name.isCell && !os.isEmpty then .inCell
    else if o.name.name = text "tr" then .inRow
    else if o.name.name = text "tbody" ∨ o.name.name = text "thead" ∨ o.name.name = text "tfoot"
    then .inTableBody
    else if o.name.name = text "caption" then .inCaption
    else if o.name.name = text "colgroup" then .inColumnGroup
    else if o.name.name = text "table" then .inTable
    else if o.name.name = text "template" then b.templateModes.headD .inTemplate
    else if o.name.name = text "head" ∧ os ≠ [] then .inHead
    else if o.name.name = text "body" then .inBody
    else if o.name.name = text "frameset" then .inFrameset
    else if o.name.name = text "html" then if b.head.isSome then .afterHead else .beforeHead
    else b.modeOf os

/-- Sets the mode that fits the open elements. -/
def resetMode (b : Builder) : Builder := { b with mode := b.modeOf b.stack }

def withMode (b : Builder) (mode : Mode) : Builder := { b with mode := mode }

/-- Some content has been seen behind which the document has no frames. -/
def noFrameset (b : Builder) : Builder := { b with framesetOk := false }

end Builder

end Viewloom.Html
