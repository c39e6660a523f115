import Viewloom.Script.Element
import Viewloom.Script.Statement

/-!
# Modules

A script is read as a module. What could only have been part of a pattern may not be left over.
-/

namespace Viewloom.Script

open Viewloom.Script.Parser Viewloom.Script.Tree

mutual

/-- Reads an expression in which expressions stand in one another up to a depth. -/
def assignmentWithin (rounds : Nat) : Nat → Context → Parser Tree
  | 0 => fun _ => fail
  | depth + 1 =>
    assignment ⟨rounds, assignmentWithin rounds depth, statementWithin rounds depth,
      elementWithin rounds depth⟩

/-- Reads statements nested so deep at most. The depth is what ties the productions to each other.
-/
def statementWithin (rounds : Nat) : Nat → Context → Parser Tree
  | 0 => fun _ => fail
  | depth + 1 =>
    statement ⟨rounds, assignmentWithin rounds depth, statementWithin rounds depth,
      elementWithin rounds depth⟩

/-- Reads elements nested so deep at most. -/
def elementWithin (rounds : Nat) : Nat → Context → Parser Tree
  | 0 => fun _ => fail
  | depth + 1 =>
    element ⟨rounds, assignmentWithin rounds depth, statementWithin rounds depth,
      elementWithin rounds depth⟩

end

/-- The grammar for scripts of a length. Between two productions that refer back to it without
reading anything there are at most three. -/
def grammar (length : Nat) : Grammar :=
  ⟨length + 2, assignmentWithin (length + 2) (4 * length + 8),
    statementWithin (length + 2) (4 * length + 8), elementWithin (length + 2) (4 * length + 8)⟩

/-- Whether a tree is complete without a pattern around it, given its parts. -/
def isComplete (kind : Kind) (_word : Text) (parts : List Bool) : Bool :=
  kind != .cover && kind != .preset && parts.all id

/-- The line in front of a module that names what runs it. -/
def interpreterLine (s : Text) : Text :=
  match s with
  | '#' :: '!' :: _ => s.takeWhile fun c => !isLineEnd c
  | _ => []

/-- Reads a module behind its first line. -/
def moduleTree (g : Grammar) : Parser Tree := do
  let statements ← statementList g Context.top true true g.rounds
  let s ← source
  require (s.rest == [])
  pure (inner .program statements)

/-- Reads a text as a module. -/
def parse (s : Text) : Option Tree :=
  let line := interpreterLine s
  match Source.ofText (s.drop line.length) with
  | none => none
  | some start =>
    match moduleTree (grammar s.length) start with
    | some (.node kind _ statements, _) =>
      let t := Tree.node kind line statements
      if t.fold isComplete then some t else none
    | none => none

end Viewloom.Script
