import Viewloom.Markup.Print
import Viewloom.Proofs.Html.Processing

/-!
# Nodes that fit

A node fits into the elements around it if its printed tags and texts are read there as what they stand
for. What is read is the node itself, up to texts that the printer escapes and the parser does not.
-/

namespace Viewloom

namespace Markup

def Node.isText : Node → Bool
  | .text _ => true
  | _ => false

/-- The nodes of a text, which are none if it is empty. -/
def textNodes (value : Text) : List Node := if value = [] then [] else [.text value]

/-- Tags whose text the printer escapes, and the parser reads as it stands. -/
def escapedTags : List Text :=
  [text "iframe", text "noembed", text "noframes", text "noscript", text "xmp"]

/-- Tags behind which the parser drops a line break. -/
def breakTags : List Text := [text "listing", text "pre", text "textarea"]

end Markup

namespace Html

open Builder
open Markup (Node)

variable {names : List Name} {tag value : Text} {attributes : List Attribute} {reading : Reading}
  {n : Node} {ns : List Node}

/-! ## Fitting -/

/-- A start tag that is read as it has been written. -/
structure IsStart (names : List Name) (tag : Text) (attributes : List Attribute) : Prop where
  isTag : IsTag tag
  areWritable : AreWritable attributes
  kept : foreignAttributes (nameIn names tag).space (attributes.map lowered) = attributes

/-- A text that an element can hold which holds only a text. -/
structure IsHeld (reading : Reading) (tag value : Text) : Prop where
  noNul : nul ∉ value
  raw : reading = .raw tag → Markup.isRawText tag = true → IsRaw tag value
  script : reading = .script → IsScript value

mutual

/-- Whether a node fits into elements of some names. -/
def Fits (names : List Name) : Node → Prop
  | .text value => value ≠ [] ∧ nul ∉ value ∧ takesText names value = true
  | .comment value => IsComment value
  | .element tag attributes children =>
    IsStart names tag attributes ∧
      match contentIn names tag with
      | some .void => children = []
      | some (.text reading) => ∃ value, children = Markup.textNodes value ∧ IsHeld reading tag value
      | some .nodes => FitsAll (nameIn names tag :: names) children
      | none => False

/-- Whether nodes fit into elements of some names, with no text next to a text. -/
def FitsAll (names : List Name) : List Node → Prop
  | [] => True
  | n :: ns => Fits names n ∧ (n.isText = true → ns.head?.any Node.isText = false) ∧ FitsAll names ns

end

/-! ## What is read again -/

/-- Drops the line break that may follow a start tag. -/
def dropBreak : Text → Text
  | '\n' :: value => value
  | value => value

theorem dropBreak_of_ne (h : ∀ rest, value ≠ '\n' :: rest) : dropBreak value = value := by
  rw [dropBreak]
  exact h

theorem dropBreak_append {bit : Text} (h : bit ≠ []) (more : Text) :
    dropBreak (bit ++ more) = dropBreak bit ++ more := by
  obtain ⟨c, bit, rfl⟩ := List.exists_cons_of_ne_nil h
  by_cases hc : c = '\n'
  · subst hc
    rfl
  · have hkept : ∀ s, dropBreak (c :: s) = c :: s := fun s =>
      dropBreak_of_ne fun rest heq => hc (List.cons.inj heq).1
    rw [List.cons_append, hkept, hkept, List.cons_append]

/-- Dropping a line break leaves the end of a text. -/
theorem dropBreak_isSuffix (value : Text) : dropBreak value <:+ value := by
  by_cases hbreak : ∃ rest, value = '\n' :: rest
  · obtain ⟨rest, rfl⟩ := hbreak
    exact List.suffix_cons ..
  · rw [dropBreak_of_ne fun rest heq => hbreak ⟨rest, heq⟩]

/-- Drops the line break that may follow a start tag, with the text that consists of it. -/
def dropBreakAll : List Node → List Node
  | .text value :: ns => Markup.textNodes (dropBreak value) ++ ns
  | ns => ns

/-- A text as it is read where no references are known. -/
def escapeNode : Node → Node
  | .text value => .text (Markup.escapeText value)
  | n => n

/-- What the printed content of an element is read as, given what its nodes are read as. -/
def readContent (tag : Text) (ns : List Node) : List Node :=
  if Markup.escapedTags.contains tag then ns.map escapeNode
  else if Markup.breakTags.contains tag then dropBreakAll ns
  else ns

mutual

/-- What a printed node is read as. -/
def reread : Node → Node
  | .element tag attributes children =>
    .element tag attributes (readContent tag (rereadAll children))
  | n => n

def rereadAll : List Node → List Node
  | [] => []
  | n :: ns => reread n :: rereadAll ns

end

@[simp]
theorem isText_reread (n : Node) : (reread n).isText = n.isText := by cases n <;> rfl

/-! ## Tags for the printer and for the parser -/

/-- What an element that holds only a text is printed with. -/
def printedText (tag value : Text) : Text :=
  if Markup.isRawText tag then value else Markup.escapeText value

/-- What an element that holds only a text is read with. -/
def readText (tag value : Text) : Text :=
  if Markup.escapedTags.contains tag then Markup.escapeText value else value

/-- An element without content is printed without a closing tag. -/
theorem isVoid_of_void (h : contentIn names tag = some .void) : Markup.isVoid tag = true := by
  have hvoid : ∀ tag ∈ voidTags, Markup.isVoid tag = true := by decide
  cases admitted_of_contentIn h with
  | foreign hregion hcontent => cases (of_foreignContent hcontent).1
  | flow hregion hlower hcontent =>
      exact hvoid tag (mem_voidTags (tagContent_of_flow hcontent))
  | table hregion hlower hcontent => exact absurd hcontent tableContent_ne_void
  | columns hregion htag =>
      subst htag
      decide
  | select hregion hlower hcontent => exact absurd hcontent selectContent_ne_void

/-- An element with a text is printed with a closing tag. -/
theorem isVoid_of_isTextTag (h : IsTextTag tag reading) : Markup.isVoid tag = false := by
  have hraw : ∀ tag ∈ rawTags, Markup.isVoid tag = false := by decide
  cases h with
  | escapable htag => rcases htag with rfl | rfl <;> decide
  | raw hmem => exact hraw tag hmem
  | script htag =>
      subst htag
      decide

/-- Tags whose elements hold no nodes, wherever they are written. -/
def leafTags : List Text :=
  Markup.voidElements ++ Markup.rawTextElements ++ Markup.escapedTags ++ [text "textarea"]

theorem not_mem_leafTags (h : contentIn names tag = some .nodes) : tag ∉ leafTags := by
  intro hmem
  cases admitted_of_contentIn h with
  | foreign hregion hcontent =>
      have hleaf : ∀ tag ∈ leafTags, (tag == text "textarea" || Markup.isVoid tag ||
          Markup.isRawText tag || rawTags.contains tag) = true := by decide
      have htag := hleaf tag hmem
      rw [foreignContent] at hcontent
      split at hcontent
      · cases hcontent
      · next hok =>
        simp only [Bool.or_eq_true, not_or] at hok htag
        tauto
  | flow hregion hlower hcontent =>
      have hleaf : ∀ tag ∈ leafTags, tagContent tag ≠ some .nodes := by decide
      exact hleaf tag hmem (tagContent_of_flow hcontent)
  | table hregion hlower hcontent =>
      have hleaf : ∀ tag ∈ leafTags, tag ∉ [text "caption", text "colgroup", text "tbody",
          text "tfoot", text "thead", text "td", text "th", text "tr"] := by decide
      refine hleaf tag hmem ?_
      have hpart := mem_partsOf hcontent
      rw [partsOf] at hpart
      repeat' split at hpart
      all_goals
        simp only [List.mem_cons, List.not_mem_nil, or_false] at hpart ⊢
        tauto
  | columns hregion htag hvoid => cases hvoid
  | select hregion hlower hcontent =>
      have hleaf : ∀ tag ∈ leafTags, tag ∉ [text "option", text "optgroup"] := by decide
      exact hleaf tag hmem (mem_of_selectContent hcontent)

/-- A tag that holds nodes is printed and read as such. -/
theorem isVoid_of_nodes (h : contentIn names tag = some .nodes) : Markup.isVoid tag = false := by
  rw [Bool.eq_false_iff]
  intro hvoid
  exact not_mem_leafTags h (by simp [leafTags, List.contains_iff_mem.1 hvoid])

/-- The texts among the nodes of an element are escaped. -/
theorem isRawText_of_nodes (h : contentIn names tag = some .nodes) :
    Markup.isRawText tag = false := by
  rw [Bool.eq_false_iff]
  intro hraw
  exact not_mem_leafTags h (by simp [leafTags, List.contains_iff_mem.1 hraw])

/-- The parser knows references among the nodes of an element. -/
theorem escapedTags_of_nodes (h : contentIn names tag = some .nodes) :
    Markup.escapedTags.contains tag = false := by
  rw [Bool.eq_false_iff]
  intro hescaped
  exact not_mem_leafTags h (by simp [leafTags, List.contains_iff_mem.1 hescaped])

/-- Where the parser drops a line break. -/
theorem dropsNewline_nameIn (h : contentIn names tag = some .nodes) :
    dropsNewline (nameIn names tag) = Markup.breakTags.contains tag := by
  have hlisted : ∀ {space : Space}, dropsNewline ⟨space, tag⟩ =
      (space == .html && [text "listing", text "pre"].contains tag) := rfl
  have harea : tag ≠ text "textarea" := fun heq => not_mem_leafTags h (by simp [leafTags, heq])
  have hbreak : Markup.breakTags.contains tag = [text "listing", text "pre"].contains tag := by
    simp [Markup.breakTags, harea]
  have hname : ∃ space, nameIn names tag = ⟨space, tag⟩ := by
    rw [nameIn]
    repeat' split
    all_goals exact ⟨_, rfl⟩
  obtain ⟨space, hspace⟩ := hname
  rw [hspace, hlisted, hbreak]
  cases hcontains : [text "listing", text "pre"].contains tag with
  | false => rw [Bool.and_false]
  | true =>
      have hforeign : isForeignIn names = false := by
        cases admitted_of_contentIn h with
        | foreign hregion hcontent =>
            have hbreakout : ∀ tag ∈ [text "listing", text "pre"],
                breakoutTags.contains (Text.lowerAscii tag) = true := by decide
            have := (of_foreignContent hcontent).2.1
            rw [hbreakout tag (List.contains_iff_mem.1 hcontains)] at this
            cases this
        | flow hregion => exact (isFlow_of_region hregion).2
        | table hregion hlower hcontent =>
            obtain ⟨within, hwithin, rest, rfl⟩ := exists_of_table hregion
            rfl
        | columns hregion htag hvoid => cases hvoid
        | select hregion hlower hcontent =>
            have hne : ∀ tag ∈ [text "listing", text "pre"],
                tag ∉ [text "option", text "optgroup"] := by decide
            exact absurd (mem_of_selectContent hcontent)
              (hne tag (List.contains_iff_mem.1 hcontains))
      have hne : ∀ tag ∈ [text "listing", text "pre"], tag ≠ text "svg" ∧ tag ≠ text "math" := by
        decide
      obtain ⟨hsvg, hmath⟩ := hne tag (List.contains_iff_mem.1 hcontains)
      rw [nameIn_of_html hforeign hsvg hmath] at hspace
      cases hspace
      rfl

end Html

end Viewloom
