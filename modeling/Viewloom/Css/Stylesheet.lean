import Viewloom.Css.Selector

/-!
# Scoped stylesheets

The text before an opening brace decides what the block holds: a grouping at-rule holds rules, all
other blocks hold declarations. Only the selectors of rules are scoped.
-/

namespace Viewloom.Css

/-- What a block holds: rules with selectors of their own, or declarations. -/
inductive Block where
  | rules
  | declarations
  deriving DecidableEq, Repr

/-- The rules with an at sign whose blocks hold rules, besides those of animations. -/
def groupingRules : List Text :=
  [text "media", text "supports", text "document", text "layer", text "container"]

/-- Whether what stands in front of a block begins with an at sign, behind its blanks. -/
def isAtRule (prelude : Text) : Bool := (Text.trimStart prelude).head? == some '@'

/-- The name of an at-rule in small letters. -/
def atRuleName (prelude : Text) : Text :=
  Text.lowerAscii
    ((Text.trimStart prelude).tail.takeWhile fun c => c.isAlphanum || c == '-')

/-- Whether the block of a rule with an at sign holds rules. -/
def isGrouping (name : Text) : Bool :=
  groupingRules.contains name || (text "keyframes").isSuffixOf name

/-- What the block behind a prelude holds. -/
def blockOf (prelude : Text) : Block :=
  if isAtRule prelude && isGrouping (atRuleName prelude) then .rules else .declarations

/-- Scopes what stands in front of a block, unless it begins with an at sign. -/
def scopePrelude (prelude : Text) : Text :=
  if isAtRule prelude then prelude else scopeSelector prelude

/-- Scopes what follows within the open blocks, innermost first; the prelude is the text that still
waits for its brace. -/
def scopeTokens : List Block → Text → List Token → Text
  | _, prelude, [] => prelude
  | .declarations :: blocks, prelude, token :: rest =>
    match token with
    | .char '{' => '{' :: scopeTokens (.declarations :: .declarations :: blocks) prelude rest
    | .char '}' => '}' :: scopeTokens blocks prelude rest
    | token => token.text ++ scopeTokens (.declarations :: blocks) prelude rest
  | blocks, prelude, token :: rest =>
    match token with
    | .char '{' =>
      scopePrelude prelude ++ '{' :: scopeTokens (blockOf prelude :: blocks) [] rest
    | .char '}' => prelude ++ '}' :: scopeTokens blocks.tail [] rest
    | .char ';' => prelude ++ ';' :: scopeTokens blocks [] rest
    | token => scopeTokens blocks (prelude ++ token.text) rest

/-- Scopes the class selectors of a stylesheet. -/
def scopeStylesheet (css : Text) : Text := scopeTokens [] [] (tokens css)

end Viewloom.Css
