import Viewloom.Script.Requires

/-!
# Requirements of trees

What a tree requires is found in its calls, and what it quotes in its tags. The other nodes pass on
what their parts hold, and a tree is complete where its parts are, unless it is part of a pattern.
-/

namespace Viewloom.Script

/-- What is told of a tree: a module that it requires, or a value in a tag with its quotes. -/
inductive Item where
  | required (path : Text)
  | quoted (source : Text)

namespace Item

/-- The modules that an item requires. -/
def paths : Item → List Text
  | required path => [path]
  | quoted _ => []

/-- The texts that an item quotes without requiring them. -/
def sources : Item → List Text
  | required _ => []
  | quoted source => [source]

end Item

namespace Tree

/-- What a node quotes itself, without its parts. -/
def ownQuotes (kind : Kind) (word : Text) : List Text := if kind = .quoted then [word] else []

/-- The quoted values in the tags of a tree, in the order of the tree. -/
def quotes (t : Tree) : List Text := t.fold fun kind word found => ownQuotes kind word ++ found.flatten

/-- A complete tree, and what it requires and quotes. -/
structure Needs (items : List Item) (t : Tree) : Prop where
  requires : t.requires = items.flatMap Item.paths
  quotes : t.quotes = items.flatMap Item.sources
  complete : t.fold isComplete = true

/-- Complete trees, and what they require and quote together. -/
structure AllNeed (items : List Item) (ts : List Tree) : Prop where
  requires : requiresAll ts = items.flatMap Item.paths
  quotes : ts.flatMap Tree.quotes = items.flatMap Item.sources
  complete : (foldAll isComplete ts).all id = true

variable {kind : Kind} {word : Text} {t : Tree} {ts parts : List Tree}
  {items others : List Item}

/-- A node quotes what it quotes itself, and what its parts do. -/
theorem quotes_node (kind : Kind) (word : Text) (parts : List Tree) :
    (node kind word parts).quotes = ownQuotes kind word ++ parts.flatMap quotes := by
  rw [quotes, fold, foldAll_eq_map, List.flatMap_def]
  rfl

theorem allNeed_nil : AllNeed [] [] := ⟨rfl, rfl, rfl⟩

/-- Trees need what the first of them and the others need. -/
theorem allNeed_cons (h : Needs items t) (hs : AllNeed others ts) :
    AllNeed (items ++ others) (t :: ts) := by
  constructor
  · rw [requiresAll, h.requires, hs.requires, List.flatMap_append]
  · rw [List.flatMap_cons, h.quotes, hs.quotes, List.flatMap_append]
  · rw [foldAll, List.all_cons, hs.complete, Bool.and_true]
    exact h.complete

theorem allNeed_one (h : Needs items t) : AllNeed items [t] := by
  have hone := allNeed_cons h allNeed_nil
  rwa [List.append_nil] at hone

/-- The nodes that are no calls, no quoted values and no parts of patterns. -/
def isPlain : Kind → Bool
  | .call _ => false
  | .quoted => false
  | .cover => false
  | .preset => false
  | _ => true

/-- A plain node needs what its parts need. -/
theorem needs_node (hkind : isPlain kind = true) (h : AllNeed items parts) :
    Needs items (node kind word parts) := by
  constructor
  · have hown : ownRequires (node kind word parts) = [] := by
      cases kind <;> first | rfl | cases hkind
    rw [Tree.requires, hown, List.nil_append, h.requires]
  · have hown : ownQuotes kind word = [] := by
      cases kind <;> first | rfl | cases hkind
    rw [quotes_node, hown, List.nil_append, h.quotes]
  · have hkinds : (kind != .cover && kind != .preset) = true := by
      cases kind <;> first | rfl | cases hkind
    rw [fold, isComplete, hkinds, Bool.true_and, h.complete]

theorem needs_leaf (hkind : isPlain kind = true) : Needs [] (leaf kind word) :=
  needs_node hkind allNeed_nil

/-- A quoted value needs itself. -/
theorem needs_quoted (source : Text) : Needs [.quoted source] (leaf .quoted source) :=
  ⟨rfl, rfl, rfl⟩

theorem allNeed_map_leaf {α : Type} {kind : α → Kind} {word : α → Text} (items : List α)
    (hkind : ∀ a, isPlain (kind a) = true) :
    AllNeed [] (items.map fun a => leaf (kind a) (word a)) := by
  induction items with
  | nil => exact allNeed_nil
  | cons a items ih => exact allNeed_cons (needs_leaf (hkind a)) ih

/-- A call needs what it requires itself and what its parts need. -/
theorem needs_call {isOptional : Bool} {callee : Tree} {arguments : List Tree} {own : List Text}
    (hown : requiredBy callee arguments = own) (h : AllNeed items (callee :: arguments)) :
    Needs (own.map .required ++ items) (node (.call isOptional) word (callee :: arguments)) := by
  constructor
  · have hpaths : (own.map Item.required).flatMap Item.paths = own := by
      rw [List.flatMap_map]
      exact List.flatMap_singleton' own
    rw [Tree.requires, h.requires, List.flatMap_append, hpaths, ← hown]
    rfl
  · have hsources : (own.map Item.required).flatMap Item.sources = [] := by
      rw [List.flatMap_map, List.flatMap_eq_nil_iff]
      exact fun _ _ => rfl
    rw [quotes_node, h.quotes, List.flatMap_append, hsources]
    rfl
  · have hkinds : (Kind.call isOptional != .cover && Kind.call isOptional != .preset) = true := rfl
    rw [fold, isComplete, hkinds, Bool.true_and, h.complete]

end Tree

end Viewloom.Script
