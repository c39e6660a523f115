import Viewloom.Html.Builder

/-!
# Misnested formatting

A formatting element that is closed while blocks inside of it are open is split: the blocks move
out of it, and a copy of it takes over their content.
-/

namespace Viewloom.Html.Builder

/-- Whether an element is among those to be reopened. -/
def isFormatting (b : Builder) (id : Nat) : Bool :=
  b.formatting.any fun
    | .element o => o.id == id
    | .marker => false

/-- The innermost element of a name, unless a special element is nearer. -/
def matching (name : Text) : List Open → Option Open
  | [] => none
  | o :: os =>
    if o.name = Name.html name then some o
    else if o.name.isSpecial then none
    else matching name os

/-- Closes an element of a name that has no rules of its own. -/
def closeNamed (b : Builder) (name : Text) : Builder :=
  match matching name b.stack with
  | none => b
  | some o =>
    let b := b.closeImpliedExcept name
    { b with stack := (b.stack.dropWhile fun p => p.id != o.id).tail }

/-- What is carried through the elements between a block and its formatting element: the state, the
subtree that moves, the elements that stay open, and the copy that the new element follows. -/
structure Carry where
  builder : Builder
  moved : Tree
  kept : List Open
  bookmark : Option Nat

/-- Wraps the moved subtree in a copy of a formatting element, at most three times. -/
def carryThrough (c : Carry) (o : Open) (count : Nat) : Carry :=
  if 3 < count then { c with builder := c.builder.removeFormatting o.id }
  else if c.builder.isFormatting o.id then
    let copy : Open := ⟨c.builder.fresh, o.name, o.attributes⟩
    { builder :=
        { c.builder with
          fresh := c.builder.fresh + 1
          formatting := c.builder.formatting.map fun entry =>
            match entry with
            | .element p => if p.id = o.id then .element copy else entry
            | .marker => entry }
      moved := .element copy.id copy.name copy.attributes [c.moved]
      kept := c.kept ++ [copy]
      bookmark := c.bookmark <|> some copy.id }
  else c

def carryAll (c : Carry) : List Open → Nat → Carry
  | [], _ => c
  | o :: os, count => carryAll (carryThrough c o count) os (count + 1)

/-- Puts a new formatting element in the place of an old one, or behind the bookmark. -/
def replaceFormatting (bookmark : Option Nat) (old : Nat) (new : Open) :
    List Formatting → List Formatting
  | [] => []
  | .marker :: rest => .marker :: replaceFormatting bookmark old new rest
  | .element o :: rest =>
    match bookmark with
    | none =>
      if o.id = old then .element new :: replaceFormatting bookmark old new rest
      else .element o :: replaceFormatting bookmark old new rest
    | some id =>
      if o.id = old then replaceFormatting bookmark old new rest
      else if o.id = id then
        .element new :: .element o :: replaceFormatting bookmark old new rest
      else .element o :: replaceFormatting bookmark old new rest

/-- Splits a formatting element around the outermost special element that is open inside of it. -/
def splitAround (b : Builder) (element block : Open) : Builder :=
  let inner := b.stack.takeWhile fun o => o.id != element.id
  let outer := (b.stack.dropWhile fun o => o.id != element.id).tail
  let above := inner.takeWhile fun o => o.id != block.id
  let between := (inner.dropWhile fun o => o.id != block.id).tail
  let content := ((Tree.findAll? block.id b.trees).map Tree.children).getD []
  let copy : Open := ⟨b.fresh, element.name, element.attributes⟩
  let moved := Tree.element block.id block.name block.attributes
    [.element copy.id copy.name copy.attributes content]
  let start : Carry :=
    ⟨{ b with fresh := b.fresh + 1, trees := Tree.removeAll block.id b.trees }, moved, [], none⟩
  let carried := carryAll start between 1
  let b' := { carried.builder with stack := above ++ block :: carried.kept ++ element :: outer }
  let b' :=
    match outer with
    | ancestor :: _ => b'.insertAt (b'.placeFor ancestor) carried.moved
    | [] => b'
  { b' with
    stack := above ++ copy :: block :: carried.kept ++ outer
    formatting := replaceFormatting carried.bookmark element.id copy b'.formatting }

/-- One round of closing a misnested formatting element; nothing is left to do if it gives none. -/
def adoptOnce (b : Builder) (name : Text) : Builder × Bool :=
  match b.recentFormatting.find? fun o => o.name.name = name with
  | none => (b.closeNamed name, false)
  | some element =>
    if !b.isOpenElement element.id then (b.removeFormatting element.id, false)
    else if !inScope Name.isScope (fun o : Open => o.id == element.id) b.stack then (b, false)
    else
      let inner := b.stack.takeWhile fun o => o.id != element.id
      match inner.reverse.find? fun o => o.name.isSpecial with
      | none =>
        let b : Builder :=
          { b with stack := (b.stack.dropWhile fun o : Open => o.id != element.id).tail }
        (b.removeFormatting element.id, false)
      | some block => (b.splitAround element block, true)

/-- Adopts misnested nodes round by round, as long as a round asks for another one. -/
def adoptRounds (name : Text) : Nat → Builder → Builder
  | 0, b => b
  | rounds + 1, b =>
    let (b, more) := b.adoptOnce name
    if more then adoptRounds name rounds b else b

/-- Closes a formatting element, moving open blocks out of it. -/
def adopt (b : Builder) (name : Text) : Builder :=
  match b.current? with
  | some o =>
    if o.name = Name.html name ∧ b.isFormatting o.id = false then b.pop else adoptRounds name 8 b
  | none => b

end Viewloom.Html.Builder
