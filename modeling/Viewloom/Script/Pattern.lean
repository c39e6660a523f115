import Viewloom.Script.Tree

/-!
# Patterns

What stands in front of an assignment or an arrow is read as an expression first, and read again as a
pattern once the sign behind it is seen.
-/

namespace Viewloom.Script.Tree

/-- Whether members and calls behind one another have an optional part. -/
def isOptionalChain : Tree → Bool
  | node (.member isOptional) _ [t] => isOptional || isOptionalChain t
  | node (.index isOptional) _ [t, _] => isOptional || isOptionalChain t
  | node (.call isOptional) _ (t :: _) => isOptional || isOptionalChain t
  | _ => false

/-- An operand that can be assigned to without being taken apart. -/
def isSimpleTarget : Tree → Bool
  | node .identifier _ _ => true
  | node (.member isOptional) _ [t] => !(isOptional || isOptionalChain t)
  | node (.index isOptional) _ [t, _] => !(isOptional || isOptionalChain t)
  | node .group _ [t] => isSimpleTarget t
  | _ => false

/-- Drops the parentheses around an expression. -/
def ungrouped : Tree → Tree
  | node .group _ [t] => ungrouped t
  | t => t

/-- A rest element is the last one. -/
def restIsLast : List Tree → Bool
  | [] => true
  | t :: ts => (t.kind != .rest || ts.isEmpty) && restIsLast ts

/-- Whether a comma stands behind the rest of a literal. -/
def hasCommaBehindRest (word : Text) (items : List Tree) : Bool :=
  word == [','] && items.getLast?.any fun t => t.kind == .spread

/-- A rest has no default. -/
def restOf (target : Tree) : Option Tree :=
  if target.kind == .withDefault then none else some (inner .rest [target])

/-- The rest of an object is not taken apart. -/
def isObjectTarget : Tree → Bool
  | node .rest _ [t] => t.kind != .arrayPattern && t.kind != .objectPattern
  | _ => true

mutual

/-- Reads an expression, or an item of a literal, again as a pattern. A pattern that declares names
holds names only. -/
def toPattern (declares : Bool) : Tree → Option Tree
  | node .hole word parts => some (node .hole word parts)
  | node .identifier word parts => some (node .identifier word parts)
  | node .shorthand word parts => some (node .shorthand word parts)
  | node (.member isOptional) word [t] =>
    if declares || isOptional || isOptionalChain t then none
    else some (node (.member false) word [t])
  | node (.index isOptional) word [t, index] =>
    if declares || isOptional || isOptionalChain t then none
    else some (node (.index false) word [t, index])
  | node .group word [t] =>
    if declares || !isSimpleTarget t then none else some (node .group word [t])
  | node .array word items =>
    if hasCommaBehindRest word items then none
    else (toPatterns declares items).map (inner .arrayPattern)
  | node .arrayPattern _ items => (toPatterns declares items).map (inner .arrayPattern)
  | node .object word items =>
    if hasCommaBehindRest word items then none
    else
      match toPatterns declares items with
      | some targets =>
        if targets.all isObjectTarget then some (inner .objectPattern targets) else none
      | none => none
  | node .objectPattern _ items => (toPatterns declares items).map (inner .objectPattern)
  | node .property _ [key, value] =>
    (toPattern declares value).map fun target => inner .property [key, target]
  | node .preset word [value] => some (inner .withDefault [leaf .identifier word, value])
  | node .withDefault _ [target, value] =>
    (toPattern declares target).map fun target => inner .withDefault [target, value]
  | node .assignment ['='] [target, value] =>
    (toPattern declares target).map fun target => inner .withDefault [target, value]
  | node .spread _ [target] => (toPattern declares target).bind restOf
  | node .rest _ [target] => (toPattern declares target).bind restOf
  | _ => none

/-- Reads trees as patterns, all of them or none. -/
def toPatterns (declares : Bool) : List Tree → Option (List Tree)
  | [] => some []
  | t :: ts =>
    match toPattern declares t, toPatterns declares ts with
    | some t, some ts => if restIsLast (t :: ts) then some (t :: ts) else none
    | _, _ => none

end

/-- The parameters that an expression in front of an arrow stands for, and whether the function is
asynchronous. -/
def toParams : Tree → Option (Bool × Tree)
  | node .identifier word parts => some (false, inner .params [node .identifier word parts])
  | node .group _ [node .sequence _ items] =>
    (toPatterns true items).map fun items => (false, inner .params items)
  | node .group _ [t] => (toPattern true t).map fun t => (false, inner .params [t])
  | node .cover _ items => (toPatterns true items).map fun items => (false, inner .params items)
  | node (.call false) _ (node .identifier ['a', 's', 'y', 'n', 'c'] _ :: items) =>
    (toPatterns true items).map fun items => (true, inner .params items)
  | _ => none

end Viewloom.Script.Tree
