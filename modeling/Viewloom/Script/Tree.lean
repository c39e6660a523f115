import Viewloom.Text.Basic

/-!
# Syntax trees of scripts

A tree has a kind, a word and parts. What the word and the parts are depends on the kind: the word is
a name, an operator, or the source text of a literal.
-/

namespace Viewloom.Script

/-- What a tree is, apart from its word and its parts. -/
inductive Kind where
  /-- A name, in an expression or in a pattern. -/
  | identifier
  /-- A name that begins with a number sign. -/
  | privateName
  /-- A fixed word or phrase that is an expression of its own. -/
  | keyword
  /-- A number in its source spelling. -/
  | number
  /-- A string; the word is its value. -/
  | string
  | regex
  /-- A template: chunks of source text with expressions between them. -/
  | template
  | chunk
  /-- A tag and a template. -/
  | tagged
  /-- The place of a part that is left out. -/
  | hole
  /-- Items; the word is a comma if one stands behind the last item. -/
  | array
  /-- Members; the word is as that of an array. -/
  | object
  /-- A key and a value. -/
  | property
  /-- A key in brackets. -/
  | computed
  /-- A property that names a variable. -/
  | shorthand
  /-- A shorthand with a default, which only a pattern may hold. -/
  | preset
  /-- A key, parameters and a body, behind the words in front of the key. -/
  | method
  /-- A name or a hole, parameters and a body, behind the words in front of them. -/
  | function
  /-- Parameters and a body; the word is empty or `async`. -/
  | arrow
  | params
  /-- A superclass or a hole, and members; the word is empty or the name. -/
  | classBody
  /-- A key and a value or a hole, behind the words in front of the key. -/
  | field
  | staticBlock
  | unary
  /-- An operand behind `++` or `--`. -/
  | stepBefore
  /-- An operand in front of `++` or `--`. -/
  | stepAfter
  | binary
  | conditional
  | assignment
  | sequence
  /-- An expression in parentheses. -/
  | group
  /-- What only the parameters of an arrow may be: nothing, a rest, or a list with a last comma. -/
  | cover
  | spread
  | await
  | yield
  | member (isOptional : Bool)
  | index (isOptional : Bool)
  /-- A callee and arguments. -/
  | call (isOptional : Bool)
  | new
  /-- A module that is loaded by an expression. -/
  | load
  | arrayPattern
  | objectPattern
  /-- A target and a default. -/
  | withDefault
  | rest
  /-- Attributes and then children; the word is the name. -/
  | element
  /-- An element that closes itself. -/
  | closedElement
  | fragment
  | attributes
  /-- A name and, if there is one, a value. -/
  | attribute
  /-- The value of an attribute with its quotes. -/
  | quoted
  | elementText
  /-- An expression in braces, or else comments. -/
  | container
  /-- The source of a comment; whether a line ends in front of it and behind it. -/
  | comment (afterBreak beforeBreak : Bool)
  /-- Comments and the statement that follows them. -/
  | noted
  | program
  | block
  | empty
  | directive
  | expression
  /-- Declarators behind `var`, `let` or `const`. -/
  | variable
  /-- A target and a value or a hole. -/
  | declarator
  /-- A function or a class that is declared. -/
  | declaration
  /-- A condition, a statement, and another one if there is an alternative. -/
  | branch
  /-- Three clauses, each of which may be a hole, and a statement. -/
  | forLoop
  | forIn
  /-- A target, a sequence and a statement; the word is empty or `await`. -/
  | forOf
  | whileLoop
  | doLoop
  /-- `break`, `continue` or `debugger`, and a label. -/
  | jump
  /-- `return` or `throw`, and a value. -/
  | leave
  /-- A block, a handler or a hole, and a last block or a hole. -/
  | attempt
  /-- A target or a hole, and a block. -/
  | handler
  | switch
  /-- A test, or a hole for the default, and statements. -/
  | case
  | labelled
  | within
  /-- What is imported, the module, and attributes. -/
  | importing
  | namespaceName
  | specifiers
  /-- A name and, if it is renamed, another one. -/
  | specifier
  | exportDefault
  | exportDeclaration
  /-- Specifiers and, if they come from a module, the module. -/
  | exportNames
  /-- A name or a hole, the module and attributes. -/
  | exportAll
  deriving DecidableEq, Repr

/-- A syntax tree: its kind, the word that goes with it, and its parts in their order. -/
inductive Tree where
  | node (kind : Kind) (word : Text) (parts : List Tree)
  deriving Repr

namespace Tree

def kind : Tree → Kind
  | node kind _ _ => kind

def word : Tree → Text
  | node _ word _ => word

def parts : Tree → List Tree
  | node _ _ parts => parts

/-- A tree without parts. -/
def leaf (kind : Kind) (word : Text) : Tree := node kind word []

/-- A tree without a word of its own. -/
def inner (kind : Kind) (parts : List Tree) : Tree := node kind [] parts

/-- What stands in the place of a part that is left out. -/
def hole : Tree := leaf .hole []

mutual

/-- Combines what the parts of each tree give. -/
def fold {α : Type} (combine : Kind → Text → List α → α) : Tree → α
  | node kind word parts => combine kind word (foldAll combine parts)

def foldAll {α : Type} (combine : Kind → Text → List α → α) : List Tree → List α
  | [] => []
  | t :: ts => fold combine t :: foldAll combine ts

end

theorem foldAll_eq_map {α : Type} (combine : Kind → Text → List α → α) (ts : List Tree) :
    foldAll combine ts = ts.map (fold combine) := by
  induction ts with
  | nil => rfl
  | cons t ts ih => simp [foldAll, ih]

end Tree

end Viewloom.Script
