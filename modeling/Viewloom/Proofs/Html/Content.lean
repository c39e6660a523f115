import Viewloom.Html.Mode.Foreign
import Viewloom.Proofs.Html.Tokens

/-!
# Content that can be read again

A start tag opens its element and nothing else if the elements around it neither end with it nor keep
it out. Whether they do depends on their names only.
-/

namespace Viewloom.Html

open Builder

/-! ## Open elements by name -/

/-- Open elements of some names, innermost first. -/
def standIns (names : List Name) : List Open := names.map fun name => ⟨0, name, []⟩

@[simp]
theorem standIns_cons (name : Name) (names : List Name) :
    standIns (name :: names) = ⟨0, name, []⟩ :: standIns names := rfl

/-- The mode that open elements of some names call for. -/
def modeIn (names : List Name) : Mode :=
  { Builder.empty with head := some ⟨0, Name.html (text "head"), []⟩ }.modeOf (standIns names)

/-- Whether an element is open before the first one that limits the scope. -/
def hasOpen (limit : Name → Bool) (name : Text) (names : List Name) : Bool :=
  inScope limit (fun o => o.name == Name.html name) (standIns names)

/-- Whether the innermost of some names satisfies a test. -/
def innermost (names : List Name) (p : Name → Bool) : Bool := names.head?.any p

/-- Elements that formatting does not reach out of. -/
def Name.isMarker (n : Name) : Bool :=
  n.isOneOf
    [text "applet", text "caption", text "marquee", text "object", text "td", text "th"]

/-- Elements that are reopened when they are closed too early. -/
def Name.isFormatting (n : Name) : Bool :=
  n.space == .html && (formattingTags.contains n.name || n.name == text "a" || n.name == text "nobr")

/-- Whether tags and texts are read by the rules of foreign content. -/
def isForeignIn (names : List Name) : Bool :=
  innermost names fun n => n.space != .html && !n.isMathTextPoint && !n.isSvgHtmlPoint

def isFlowMode (mode : Mode) : Bool := [Mode.inBody, .inCaption, .inCell].contains mode

def isSelectMode (mode : Mode) : Bool := mode == .inSelect || mode == .inSelectInTable

/-- The rules by which the content of an element is read. -/
inductive Region where
  | flow
  | table
  | columns
  | select
  | foreign
  deriving DecidableEq, Repr

/-- The region within elements of some names. -/
def regionOf (names : List Name) : Option Region :=
  if innermost names Name.isFoster then some .table
  else if innermost names (· == Name.html (text "colgroup")) then some .columns
  else if isFlowMode (modeIn names) then some (if isForeignIn names then .foreign else .flow)
  else if isSelectMode (modeIn names) && innermost names (fun n => n.space == .html) then
    some .select
  else none

/-- What the region tells of the open elements. -/
theorem regionOf_spec (names : List Name) :
    match regionOf names with
    | some .table => innermost names Name.isFoster = true
    | some .columns => innermost names (· == Name.html (text "colgroup")) = true
    | some .flow => isFlowMode (modeIn names) = true ∧ isForeignIn names = false
    | some .foreign => isFlowMode (modeIn names) = true ∧ isForeignIn names = true
    | some .select => isSelectMode (modeIn names) = true ∧
        innermost names (fun n => n.space == .html) = true
    | none => True := by
  rw [regionOf]
  by_cases hfoster : innermost names Name.isFoster = true
  · rw [if_pos hfoster]
    exact hfoster
  rw [if_neg hfoster]
  by_cases hcolumns : innermost names (· == Name.html (text "colgroup")) = true
  · rw [if_pos hcolumns]
    exact hcolumns
  rw [if_neg hcolumns]
  by_cases hflow : isFlowMode (modeIn names) = true
  · rw [if_pos hflow]
    cases hforeign : isForeignIn names with
    | false => exact ⟨hflow, rfl⟩
    | true => exact ⟨hflow, rfl⟩
  rw [if_neg hflow]
  cases hselect : isSelectMode (modeIn names) && innermost names (fun n => n.space == .html) with
  | false => trivial
  | true => exact Bool.and_eq_true_iff.1 hselect

/-! ## Content of tags -/

/-- What an element holds: nothing, a text that is read in a way of its own, or nodes. -/
inductive Content where
  | void
  | text (reading : Reading)
  | nodes
  deriving DecidableEq, Repr

/-- The language in which the content of the innermost element is read. -/
def spaceIn (names : List Name) : Space := (names.head?.map Name.space).getD .html

/-- The name of an element that is opened within others. -/
def nameIn (names : List Name) (tag : Text) : Name :=
  if isForeignIn names then ⟨spaceIn names, tag⟩
  else if tag = text "svg" then ⟨.svg, tag⟩
  else if tag = text "math" then ⟨.mathml, tag⟩
  else Name.html tag

/-- Tags that open something else than their element, or whose element is no part of a page. -/
def unusualTags : List Text :=
  [text "basefont", text "bgsound", text "body", text "caption", text "col", text "colgroup",
    text "frame", text "frameset", text "head", text "html", text "image", text "keygen",
    text "malignmark", text "mglyph", text "plaintext", text "tbody", text "td", text "template",
    text "tfoot", text "th", text "thead", text "tr"]

/-- The tags of elements without content in the body. -/
def voidTags : List Text :=
  [text "area", text "base", text "br", text "embed", text "hr", text "img", text "input",
    text "link", text "meta", text "param", text "source", text "track", text "wbr"]

/-- Tags whose text is read as it stands. -/
def rawTags : List Text :=
  [text "iframe", text "noembed", text "noframes", text "noscript", text "style", text "xmp"]

def headingTags : List Text := [text "h1", text "h2", text "h3", text "h4", text "h5", text "h6"]

/-- Tags that close an open paragraph. -/
def paragraphTags : List Text :=
  blockTags ++ headingTags ++
    [text "dd", text "dt", text "form", text "hr", text "li", text "listing", text "menu",
      text "pre", text "xmp"]

/-- Whether a tag of flow content closes nothing and is not ignored within elements of some names. -/
def isAdmitted (names : List Name) (tag : Text) : Bool :=
  !(paragraphTags.contains tag && hasOpen Name.isButtonScope (text "p") names) &&
  !(headingTags.contains tag && innermost names Name.isHeading) &&
  !(tag == text "form" && names.contains (Name.html tag)) &&
  !(tag == text "li" && (itemToClose [text "li"] (standIns names)).isSome) &&
  !([text "dd", text "dt"].contains tag &&
    (itemToClose [text "dd", text "dt"] (standIns names)).isSome) &&
  !([text "button", text "nobr"].contains tag && hasOpen Name.isScope tag names) &&
  !(tag == text "a" && hasOpen Name.isMarker tag names) &&
  !([text "option", text "optgroup"].contains tag &&
    innermost names (· == Name.html (text "option"))) &&
  !([text "rb", text "rtc"].contains tag &&
    (hasOpen Name.isScope (text "ruby") names && innermost names Name.isImpliedEnd)) &&
  !([text "rp", text "rt"].contains tag &&
    (hasOpen Name.isScope (text "ruby") names &&
      innermost names fun n => n.isImpliedEnd && n != Name.html (text "rtc")))

/-- What a tag opens where flow content is read, if it is admitted. -/
def tagContent (tag : Text) : Option Content :=
  if voidTags.contains tag then some .void
  else if tag = text "title" ∨ tag = text "textarea" then some (.text (.escapable tag))
  else if rawTags.contains tag then some (.text (.raw tag))
  else if tag = text "script" then some (.text .script)
  else if unusualTags.contains tag then none
  else some .nodes

/-- The tags whose elements hold only a text, and how it is read. -/
inductive IsTextTag (tag : Text) : Reading → Prop where
  | escapable : tag = text "title" ∨ tag = text "textarea" → IsTextTag tag (.escapable tag)
  | raw : tag ∈ rawTags → IsTextTag tag (.raw tag)
  | script : tag = text "script" → IsTextTag tag .script

/-- An element whose content is a text is one that reads its text in its own way. -/
theorem isTextTag_of_tagContent {tag : Text} {reading : Reading}
    (h : tagContent tag = some (.text reading)) : IsTextTag tag reading := by
  rw [tagContent] at h
  split at h
  · cases h
  split at h
  · next htag =>
    cases h
    exact .escapable htag
  split at h
  · next htag =>
    cases h
    exact .raw (List.contains_iff_mem.1 htag)
  split at h
  · next htag =>
    cases h
    exact .script htag
  · split at h <;> cases h

/-- What a tag opens in flow content. -/
def flowContent (names : List Name) (tag : Text) : Option Content :=
  if isAdmitted names tag then tagContent tag else none

/-- The tags of the parts that an element of a table is made of. -/
def partsOf (names : List Name) : List Text :=
  if innermost names (· == Name.html (text "table")) then
    [text "caption", text "colgroup", text "tbody", text "tfoot", text "thead"]
  else if innermost names (· == Name.html (text "tr")) then [text "td", text "th"]
  else [text "tr"]

/-- What a tag opens between the tags of a table. -/
def tableContent (names : List Name) (tag : Text) : Option Content :=
  if (partsOf names).contains tag then some .nodes
  else if tag = text "style" then some (.text (.raw tag))
  else if tag = text "script" then some (.text .script)
  else none

/-- What a tag opens in a select element. -/
def selectContent (names : List Name) (tag : Text) : Option Content :=
  if tag = text "option" then
    if innermost names (· == Name.html tag) then none else some .nodes
  else if tag = text "optgroup" then
    if innermost names (· == Name.html (text "option")) || innermost names (· == Name.html tag) then
      none
    else some .nodes
  else if tag = text "script" then some (.text .script)
  else none

/-- The spelling of a tag that is opened in foreign content. -/
def foreignTag (names : List Name) (tag : Text) : Text :=
  if innermost names (fun n => n.space == .svg) then (svgTags.lookup tag).getD tag else tag

/-- What a tag opens in foreign content. The printer must not take it for a tag of a page. -/
def foreignContent (names : List Name) (tag : Text) : Option Content :=
  let lower := Text.lowerAscii tag
  if breakoutTags.contains lower || lower == text "font" || tag == text "annotation-xml" ||
      tag == text "textarea" || Markup.isVoid tag || Markup.isRawText tag || rawTags.contains tag ||
      foreignTag names lower != tag then none
  else some .nodes

/-- What a tag opens within elements of some names. -/
def contentIn (names : List Name) (tag : Text) : Option Content :=
  match regionOf names with
  | some .foreign => foreignContent names tag
  | some .flow => if Text.lowerAscii tag = tag then flowContent names tag else none
  | some .table => if Text.lowerAscii tag = tag then tableContent names tag else none
  | some .columns => if tag = text "col" then some .void else none
  | some .select => if Text.lowerAscii tag = tag then selectContent names tag else none
  | none => none

/-- The rules by which a tag opens an element with some content. -/
inductive Admitted (names : List Name) (tag : Text) (content : Content) : Prop where
  | foreign : regionOf names = some .foreign → foreignContent names tag = some content →
    Admitted names tag content
  | flow : regionOf names = some .flow → Text.lowerAscii tag = tag →
    flowContent names tag = some content → Admitted names tag content
  | table : regionOf names = some .table → Text.lowerAscii tag = tag →
    tableContent names tag = some content → Admitted names tag content
  | columns : regionOf names = some .columns → tag = text "col" → content = .void →
    Admitted names tag content
  | select : regionOf names = some .select → Text.lowerAscii tag = tag →
    selectContent names tag = some content → Admitted names tag content

/-- A tag that opens something does so by one of the rules. -/
theorem admitted_of_contentIn {names : List Name} {tag : Text} {content : Content}
    (h : contentIn names tag = some content) : Admitted names tag content := by
  rw [contentIn] at h
  cases hregion : regionOf names with
  | none =>
      rw [hregion] at h
      cases h
  | some region =>
      rw [hregion] at h
      cases region with
      | foreign => exact .foreign hregion h
      | flow =>
          obtain ⟨hlower, h⟩ := Option.ite_none_right_eq_some.1 h
          exact .flow hregion hlower h
      | table =>
          obtain ⟨hlower, h⟩ := Option.ite_none_right_eq_some.1 h
          exact .table hregion hlower h
      | columns =>
          obtain ⟨htag, h⟩ := Option.ite_none_right_eq_some.1 h
          exact .columns hregion htag (Option.some.inj h).symm
      | select =>
          obtain ⟨hlower, h⟩ := Option.ite_none_right_eq_some.1 h
          exact .select hregion hlower h

/-- Whether a text may stand within elements of some names: between the tags of a table only blanks. -/
def takesText (names : List Name) (value : Text) : Bool :=
  match regionOf names with
  | none => false
  | some .table => isBlankRun value
  | some .columns => isBlankRun value
  | some _ => true

end Viewloom.Html
