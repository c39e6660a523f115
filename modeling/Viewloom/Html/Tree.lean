import Viewloom.Markup.Basic

/-!
# Documents under construction

While a document is read, later tokens may add to an element or move it, so each element carries a
number of its own. A text that is added next to a text is joined to it.
-/

namespace Viewloom.Html

/-- The languages whose elements a document may hold. -/
inductive Space where
  | html
  | svg
  | mathml
  deriving DecidableEq, Repr

/-- The name of an element, with its name space. -/
structure Name where
  space : Space
  name : Text
  deriving DecidableEq, Repr

/-- A tree whose elements have numbers, by which they are found again. -/
inductive Tree where
  | element (id : Nat) (name : Name) (attributes : List Attribute) (children : List Tree)
  | text (value : Text)
  | comment (value : Text)
  deriving Repr

namespace Tree

def isElement (id : Nat) : Tree → Bool
  | element id' _ _ _ => id' == id
  | _ => false

/-- Adds a node behind its siblings. -/
def addLast (piece : Tree) : List Tree → List Tree
  | [] => [piece]
  | [last] =>
    match last, piece with
    | text v, text w => [text (v ++ w)]
    | last, piece => [last, piece]
  | tree :: trees => tree :: addLast piece trees

/-- Joins a text to a text that stands just before the place where it is added. -/
def addBetween (piece before : Tree) (after : List Tree) : List Tree :=
  match before, piece with
  | text v, text w => text (v ++ w) :: after
  | before, piece => before :: piece :: after

mutual

/-- Adds a node as the last child of an element. -/
def append (parent : Nat) (piece : Tree) : Tree → Tree
  | element id name attributes children =>
    if id = parent then element id name attributes (addLast piece children)
    else element id name attributes (appendAll parent piece children)
  | tree => tree

def appendAll (parent : Nat) (piece : Tree) : List Tree → List Tree
  | [] => []
  | tree :: trees => append parent piece tree :: appendAll parent piece trees

end

mutual

/-- Adds a node as the sibling just before an element. -/
def insertBefore (sibling : Nat) (piece : Tree) : Tree → Tree
  | element id name attributes children =>
    element id name attributes (insertBeforeAll sibling piece children)
  | tree => tree

def insertBeforeAll (sibling : Nat) (piece : Tree) : List Tree → List Tree
  | [] => []
  | tree :: trees =>
    if tree.isElement sibling then piece :: tree :: trees
    else if trees.head?.any (isElement sibling) then addBetween piece tree trees
    else insertBefore sibling piece tree :: insertBeforeAll sibling piece trees

end

mutual

/-- Takes an element out of the tree. -/
def remove (id : Nat) : Tree → List Tree
  | element id' name attributes children =>
    if id' = id then [] else [element id' name attributes (removeAll id children)]
  | tree => [tree]

def removeAll (id : Nat) : List Tree → List Tree
  | [] => []
  | tree :: trees => tree.remove id ++ removeAll id trees

end

mutual

/-- The element with a number, at any depth. -/
def find? (id : Nat) : Tree → Option Tree
  | element id' name attributes children =>
    if id' = id then some (element id' name attributes children) else findAll? id children
  | _ => none

def findAll? (id : Nat) : List Tree → Option Tree
  | [] => none
  | tree :: trees =>
    match tree.find? id with
    | some found => some found
    | none => findAll? id trees

end

mutual

/-- Gives an element the attributes of names that it does not have yet. -/
def addMissing (id : Nat) (more : List Attribute) : Tree → Tree
  | element id' name attributes children =>
    if id' = id then
      element id' name
        (attributes ++ more.filter fun a => !Attribute.has a.name attributes) children
    else element id' name attributes (addMissingAll id more children)
  | tree => tree

def addMissingAll (id : Nat) (more : List Attribute) : List Tree → List Tree
  | [] => []
  | tree :: trees => tree.addMissing id more :: addMissingAll id more trees

end

def children : Tree → List Tree
  | element _ _ _ children => children
  | _ => []

mutual

/-- The content of the first element of a name, whatever its name space. -/
def contentOf? (name : Text) : Tree → Option (List Tree)
  | element _ name' _ children =>
    if name'.name = name then some children
    else if name' = ⟨.html, Viewloom.text "template"⟩ then none
    else contentOfAll? name children
  | _ => none

def contentOfAll? (name : Text) : List Tree → Option (List Tree)
  | [] => none
  | tree :: trees =>
    match tree.contentOf? name with
    | some found => some found
    | none => contentOfAll? name trees

end

mutual

/-- Forgets numbers and name spaces. -/
def toMarkup : Tree → Markup.Node
  | element _ name attributes children => .element name.name attributes (toMarkupAll children)
  | text value => .text value
  | comment value => .comment value

def toMarkupAll : List Tree → List Markup.Node
  | [] => []
  | tree :: trees => tree.toMarkup :: toMarkupAll trees

end

end Tree

end Viewloom.Html
