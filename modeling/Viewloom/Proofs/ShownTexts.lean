import Viewloom.Proofs.Html.Stability
import Viewloom.Proofs.Markers
import Viewloom.Proofs.Origins

/-!
# Texts that templates show

The template of a page shows its texts, but for blank ones that only lay it out. A page that is printed
and read again has its old template exactly if each of these texts is read in its place.
-/

namespace Viewloom

namespace Html

open Markup (Node)

/-- What an element holds is read alike before and after it is read again. -/
theorem readContent_rereadAll (tag : Text) (ns : List Node) :
    readContent tag (rereadAll ns) = rereadAll (readContent tag ns) := by
  rw [readContent, readContent]
  split
  · induction ns with
    | nil => rfl
    | cons n ns ih =>
        rw [rereadAll, List.map_cons, ih, List.map_cons, rereadAll]
        cases n <;> rfl
  · split
    · cases ns with
      | nil => rfl
      | cons n ns =>
          cases n with
          | element | comment => rfl
          | text value =>
              rw [dropBreakAll, rereadAll_append, rereadAll_textNodes]
              rfl
    · rfl

end Html
namespace Markup

open Html (reread rereadAll readContent)
open Template (isLayout directText holdsText baseTag writtenTag)

variable {ns ms : List Node}

/-! ## Texts that are shown -/

/-- What a template shows for a node: its text, or none for a node that is no text. Nothing is shown
for a text that lays out the page. -/
def Node.shown? : Node → Option (Option Text)
  | .text value => if isLayout value then none else some (some value)
  | _ => some none

/-- The texts that a template shows among nodes, and the places of the nodes between them. -/
def shownTexts (ns : List Node) : List (Option Text) := ns.filterMap Node.shown?

/-- The nodes that are no texts. -/
def withoutTexts (ns : List Node) : List Node := ns.filter fun n => !n.isText

theorem shownTexts_cons (n : Node) (ns : List Node) :
    shownTexts (n :: ns) = n.shown?.toList ++ shownTexts ns := by
  rw [shownTexts, List.filterMap_cons, shownTexts]
  cases n.shown? <;> rfl

theorem shownTexts_append (ns ms : List Node) :
    shownTexts (ns ++ ms) = shownTexts ns ++ shownTexts ms :=
  List.filterMap_append ..

theorem shown?_reread (n : Node) : (reread n).shown? = n.shown? := by cases n <;> rfl

/-- Reading nodes again shows the same texts. -/
theorem shownTexts_rereadAll (ns : List Node) : shownTexts (rereadAll ns) = shownTexts ns := by
  induction ns with
  | nil => rfl
  | cons n ns ih =>
      rw [rereadAll, shownTexts_cons, shown?_reread, ih, shownTexts_cons]

theorem directText_rereadAll (ns : List Node) : directText (rereadAll ns) = directText ns := by
  induction ns with
  | nil => rfl
  | cons n ns ih => cases n <;> simp [rereadAll, reread, directText, ih]

theorem withoutTexts_cons (n : Node) (ns : List Node) :
    withoutTexts (n :: ns) = if n.isText then withoutTexts ns else n :: withoutTexts ns := by
  rw [withoutTexts, List.filter_cons]
  cases n.isText <;> rfl

theorem withoutTexts_text (value : Text) (ns : List Node) :
    withoutTexts (.text value :: ns) = withoutTexts ns := rfl

theorem withoutTexts_of_not_isText {n : Node} (h : n.isText = false) (ns : List Node) :
    withoutTexts (n :: ns) = n :: withoutTexts ns := by
  rw [withoutTexts_cons, h, if_neg Bool.false_ne_true]

theorem withoutTexts_append (ns ms : List Node) :
    withoutTexts (ns ++ ms) = withoutTexts ns ++ withoutTexts ms :=
  List.filter_append ..

/-- Texts can be left out before nodes are read again or after. -/
theorem withoutTexts_rereadAll (ns : List Node) :
    withoutTexts (rereadAll ns) = rereadAll (withoutTexts ns) := by
  induction ns with
  | nil => rfl
  | cons n ns ih =>
      rw [rereadAll, withoutTexts_cons, withoutTexts_cons, Html.isText_reread, ih]
      split <;> rfl

/-- What an element holds differs from its content in texts only. -/
theorem withoutTexts_readContent (tag : Text) (ns : List Node) :
    withoutTexts (readContent tag ns) = withoutTexts ns := by
  rw [readContent]
  split
  · induction ns with
    | nil => rfl
    | cons n ns ih =>
        rw [List.map_cons, withoutTexts_cons, ih, withoutTexts_cons]
        cases n <;> rfl
  · split
    · cases ns with
      | nil => rfl
      | cons n ns =>
          cases n with
          | element | comment => rfl
          | text value =>
              rw [Html.dropBreakAll, withoutTexts_append, textNodes]
              split <;> rfl
    · rfl

/-- Line breaks between nodes are texts. -/
theorem withoutTexts_breakEach (depth : Nat) (ns : List Node) :
    withoutTexts (breakEach depth ns) = withoutTexts ns := by
  induction ns with
  | nil => rfl
  | cons n ns ih =>
      rw [breakEach_cons, withoutTexts_text, withoutTexts_cons, ih, withoutTexts_cons]

theorem withoutTexts_joinText (value : Text) (ns : List Node) :
    withoutTexts (joinText value ns) = withoutTexts ns := by
  cases ns with
  | nil => rfl
  | cons n ns => cases n <;> rfl

/-- Joining texts leaves the other nodes as they are. -/
theorem withoutTexts_fuse (ns : List Node) : withoutTexts (fuse ns) = withoutTexts ns := by
  induction ns with
  | nil => rfl
  | cons n ns ih =>
      cases n with
      | text value =>
          rw [fuse, withoutTexts_joinText, ih]
          rfl
      | element | comment => simp [fuse, withoutTexts_cons, Node.isText, ih]

/-! ## Nodes as they are printed -/

/-- Nodes as they are printed: as they stand if they are within a line, or else at a depth. -/
def Node.printedAll : Option Nat → List Node → List Node
  | none, ns => ns
  | some depth, ns => Node.laidAll depth ns

/-- Where the content of an element is printed: within a line, or at a depth. -/
def contentLine (line : Option Nat) (tag : Text) (children : List Node) : Option Nat :=
  line.bind fun depth =>
    if isVoid tag || keepsOneLine tag children then none else some (depth + 1)

/-- The content of an element as it is printed. -/
def printedContent : Option Nat → List Node → List Node
  | none, ns => ns
  | some depth, ns =>
    breakEach depth (Node.laidAll depth ns) ++ [.text (lineBreak (depth - 1))]

theorem printedAll_cons (line : Option Nat) (n : Node) (ns : List Node) :
    Node.printedAll line (n :: ns) = Node.printedAll line [n] ++ Node.printedAll line ns := by
  cases line with
  | none => rfl
  | some depth =>
      simp only [Node.printedAll, Node.laidAll, List.append_nil]

theorem printedAll_element (line : Option Nat) (tag : Text) (attributes : List Attribute)
    (children : List Node) :
    Node.printedAll line [.element tag attributes children] =
      [.element tag attributes (printedContent (contentLine line tag children) children)] := by
  cases line with
  | none => rfl
  | some depth =>
      rw [Node.printedAll, Node.laidAll, Node.laidAll, Node.laid?, contentLine, Option.bind_some]
      split
      · rfl
      · rfl

/-- Texts can be left out before nodes are printed or after. -/
theorem withoutTexts_printedAll (line : Option Nat) (ns : List Node) :
    withoutTexts (Node.printedAll line ns) = Node.printedAll line (withoutTexts ns) := by
  induction ns with
  | nil => cases line <;> rfl
  | cons n ns ih =>
      rw [printedAll_cons, withoutTexts_append, ih]
      cases n with
      | element tag attributes children =>
          rw [withoutTexts_of_not_isText rfl,
            printedAll_cons line (.element tag attributes children) (withoutTexts ns),
            printedAll_element]
          rfl
      | comment value =>
          rw [withoutTexts_of_not_isText rfl,
            printedAll_cons line (.comment value) (withoutTexts ns)]
          cases line <;> rfl
      | text value =>
          rw [withoutTexts_text]
          cases line with
          | none => rfl
          | some depth =>
              rw [Node.printedAll, Node.laidAll, Node.laid?]
              split <;> rfl

/-- The nodes of a printed content that are no texts are those of its nodes. -/
theorem withoutTexts_printedContent (line : Option Nat) (ns : List Node) :
    withoutTexts (printedContent line ns) = Node.printedAll line (withoutTexts ns) := by
  rw [← withoutTexts_printedAll]
  cases line with
  | none => rfl
  | some depth =>
      rw [printedContent, withoutTexts_append, withoutTexts_breakEach]
      exact List.append_nil _

/-- The nodes of a page laid out that are no texts are those of its nodes. -/
theorem withoutTexts_laidOut (ns : List Node) :
    withoutTexts (laidOut ns) = Node.printedAll (some 0) (withoutTexts ns) := by
  have htail : ∀ ms : List Node, withoutTexts (breakEach 0 ms).tail = withoutTexts ms := by
    intro ms
    rw [← withoutTexts_breakEach 0 ms]
    cases ms <;> rfl
  rw [laidOut, withoutTexts_fuse, htail, ← withoutTexts_printedAll, Node.printedAll]

mutual

/-- Whether a template shows the texts within a node as before when it has been printed and read
again. The content of a style or a text area is one text. -/
def Node.keepsTexts (line : Option Nat) : Node → Bool
  | .element tag attributes children =>
    if holdsText (baseTag (writtenTag tag attributes)) then
      directText (readContent tag (printedContent (contentLine line tag children) children)) ==
        directText children
    else
      shownTexts (readContent tag (printedContent (contentLine line tag children) children)) ==
          shownTexts children &&
        keepsTextsAll (contentLine line tag children) children
  | _ => true

def Node.keepsTextsAll (line : Option Nat) : List Node → Bool
  | [] => true
  | n :: ns => n.keepsTexts line && keepsTextsAll line ns

end

/-- Whether a template shows the texts of a page as before when it has been printed and read again. -/
def keepsTexts (page : List Node) : Bool :=
  shownTexts (laidOut page) == shownTexts page && Node.keepsTextsAll (some 0) page

end Markup

namespace Template

open Html (reread rereadAll readContent)
open Markup (shownTexts withoutTexts printedContent contentLine laidOut)

variable {names : List Names} {ns ms : List Markup.Node}

/-! ## Templates with the same texts -/

def Node.text? : Node → Option Text
  | .text value => some value
  | _ => none

def Node.properties : Node → List Property
  | .element _ properties _ => properties
  | .component _ properties _ => properties
  | .socket _ target _ _ => target.properties
  | _ => []

theorem text?_make (written : Text) (properties : List Property) (children : List Node) :
    (Node.make names written properties children).text? = none := by
  unfold Node.make bindTag
  repeat' split
  all_goals rfl

theorem properties_make (names : List Names) (written : Text) (properties : List Property)
    (children : List Node) :
    (Node.make names written properties children).properties = properties := by
  unfold Node.make bindTag
  repeat' split
  all_goals rfl

/-- Two nodes made with the same tag are equal exactly if their properties and children are. -/
theorem make_inj {written : Text} {properties properties' : List Property}
    {children children' : List Node} :
    Node.make names written properties children = Node.make names written properties' children' ↔
      properties = properties' ∧ children = children' := by
  refine ⟨fun h => ⟨?_, ?_⟩, fun ⟨hproperties, hchildren⟩ => by rw [hproperties, hchildren]⟩
  · rw [← properties_make names written properties children, h, properties_make]
  · rw [← children_make names written properties children, h, children_make]

/-- Templates are the same if they have the same texts in the same places, and the same nodes else. -/
theorem eq_iff_map_text? {ns ms : List Node} :
    ns = ms ↔ ns.map Node.text? = ms.map Node.text? ∧
      ns.filter (fun n => n.text?.isNone) = ms.filter (fun n => n.text?.isNone) := by
  constructor
  · rintro rfl
    exact ⟨rfl, rfl⟩
  · rintro ⟨htexts, hothers⟩
    induction ns generalizing ms with
    | nil => exact (List.map_eq_nil_iff.1 htexts.symm).symm
    | cons n ns ih =>
        cases ms with
        | nil => cases htexts
        | cons m ms =>
            rw [List.map_cons, List.map_cons, List.cons.injEq] at htexts
            obtain ⟨hhead, htail⟩ := htexts
            rw [List.filter_cons, List.filter_cons, ← hhead] at hothers
            cases htext : n.text? with
            | none =>
                rw [htext, Option.isNone_none, if_pos rfl, if_pos rfl, List.cons.injEq] at hothers
                rw [hothers.1, ih htail hothers.2]
            | some value =>
                rw [htext, Option.isNone_some, if_neg Bool.false_ne_true,
                  if_neg Bool.false_ne_true] at hothers
                have hsame : n = m := by
                  rw [htext] at hhead
                  cases n <;> cases m <;> simp_all [Node.text?]
                rw [hsame, ih htail hothers]

/-- The nodes bound to some names show the texts of the markup. -/
theorem map_text?_bound (names : List Names) (ns : List Markup.Node) :
    (bound names ns).map Node.text? = shownTexts ns := by
  induction ns with
  | nil => simp [shownTexts]
  | cons n ns ih =>
      rw [bound_cons, List.map_append, ih, Markup.shownTexts_cons]
      cases n with
      | element =>
          rw [bound_element, List.map_singleton, text?_make]
          rfl
      | comment =>
          rw [bound_comment]
          rfl
      | text value =>
          rw [bound_text, Markup.Node.shown?]
          split <;> rfl

/-- The bound nodes that are no texts are those of the markup without texts. -/
theorem filter_bound (names : List Names) (ns : List Markup.Node) :
    (bound names ns).filter (fun n => n.text?.isNone) = bound names (withoutTexts ns) := by
  induction ns with
  | nil => simp [withoutTexts]
  | cons n ns ih =>
      rw [bound_cons, List.filter_append, ih]
      cases n with
      | element tag attributes children =>
          rw [Markup.withoutTexts_of_not_isText rfl,
            bound_cons names (.element tag attributes children) (withoutTexts ns), bound_element,
            List.filter_cons_of_pos (by rw [text?_make]; rfl)]
          rfl
      | comment value =>
          rw [Markup.withoutTexts_of_not_isText rfl,
            bound_cons names (.comment value) (withoutTexts ns), bound_comment]
          rfl
      | text value =>
          rw [bound_text, Markup.withoutTexts_text]
          split <;> rfl

/-- Pages have the same template if it shows the same texts in the same places, and their nodes that are
no texts have the same template. -/
theorem bound_eq_bound_iff :
    bound names ns = bound names ms ↔ shownTexts ns = shownTexts ms ∧
      bound names (withoutTexts ns) = bound names (withoutTexts ms) := by
  rw [eq_iff_map_text?, map_text?_bound, map_text?_bound, filter_bound, filter_bound]

/-- A printed node that is no text is bound to as many nodes as before. -/
theorem length_bound_printedAll {n : Markup.Node} (h : n.isText = false) (line : Option Nat) :
    (bound names (rereadAll (Markup.Node.printedAll line [n]))).length = (bound names [n]).length := by
  cases n with
  | text value => cases h
  | comment value => cases line <;> rfl
  | element tag attributes children =>
      rw [Markup.printedAll_element, rereadAll, rereadAll, reread, bound_element, bound_element]
      rfl

/-- An element that holds its text as a property has the property of another exactly if the texts
are equal. -/
theorem propertiesOf_inj_of_holdsText {tag : Text} (h : holdsText tag = true)
    (attributes : List Attribute) :
    propertiesOf tag attributes ns = propertiesOf tag attributes ms ↔
      directText ns = directText ms := by
  refine ⟨fun hproperties => ?_, fun htext => propertiesOf_congr htext tag attributes⟩
  rw [propertiesOf, propertiesOf, List.append_cancel_left_eq] at hproperties
  unfold contentProperties at hproperties
  split at hproperties
  · simpa using hproperties
  · next hstyle =>
    have harea : tag = text "textarea" := by simpa [holdsText, hstyle] using h
    rw [if_pos harea, if_pos harea] at hproperties
    dsimp only [Option.getD_some] at hproperties
    split at hproperties <;> split at hproperties <;> simp_all

/-- An element that holds no text as a property has properties that do not depend on its content. -/
theorem propertiesOf_of_not_holdsText {tag : Text} (h : holdsText tag = false)
    (attributes : List Attribute) (ns ms : List Markup.Node) :
    propertiesOf tag attributes ns = propertiesOf tag attributes ms := by
  have hnone (children : List Markup.Node) : contentProperties tag children = none := by
    rw [← Option.not_isSome_iff_eq_none, isSome_contentProperties, h]
    simp
  rw [propertiesOf, propertiesOf, hnone, hnone]

/-! ## What is read again -/

mutual

/-- A node has the template that it had before exactly if the texts within it are kept. -/
theorem bound_printed_iff (names : List Names) (line : Option Nat) : ∀ {n : Markup.Node},
    n.isText = false →
      (bound names (rereadAll (Markup.Node.printedAll line [n])) = bound names [n] ↔
        n.keepsTexts line = true)
  | .comment _, _ => by cases line <;> simp [Markup.Node.keepsTexts, Markup.Node.printedAll,
      Markup.Node.laidAll, Markup.Node.laid?, rereadAll, reread]
  | .element tag attributes children, _ => by
      rw [Markup.printedAll_element, rereadAll, rereadAll, reread, Html.readContent_rereadAll,
        bound_element, bound_element, List.cons.injEq, make_inj, Markup.Node.keepsTexts]
      cases hholds : holdsText (baseTag (writtenTag tag attributes)) with
      | true =>
          rw [propertiesOf_inj_of_holdsText hholds, Markup.directText_rereadAll]
          simp
      | false =>
          -- Printing moves only texts, so the other nodes are those of the induction, and the texts
          -- between them are compared here.
          have hinner := bound_printedAll_iff names (contentLine line tag children) children
          rw [← Markup.withoutTexts_printedContent, ← Markup.withoutTexts_readContent tag,
            ← Markup.withoutTexts_rereadAll] at hinner
          simp [propertiesOf_of_not_holdsText hholds _ _ children, bound_eq_bound_iff,
            Markup.shownTexts_rereadAll, hinner]

/-- Nodes without their texts are bound as before exactly if the texts within them are kept. -/
theorem bound_printedAll_iff (names : List Names) (line : Option Nat) : ∀ ns : List Markup.Node,
    bound names (rereadAll (Markup.Node.printedAll line (withoutTexts ns))) =
        bound names (withoutTexts ns) ↔
      Markup.Node.keepsTextsAll line ns = true
  | [] => by cases line <;> simp [Markup.Node.keepsTextsAll, withoutTexts, Markup.Node.printedAll,
      Markup.Node.laidAll, rereadAll]
  | n :: ns => by
      have hrest := bound_printedAll_iff names line ns
      rw [Markup.Node.keepsTextsAll, Bool.and_eq_true, ← hrest, Markup.withoutTexts_cons]
      cases htext : n.isText with
      | true =>
          cases n with
          | element | comment => cases htext
          | text value => simp [Markup.Node.keepsTexts]
      | false =>
          rw [if_neg Bool.false_ne_true, Markup.printedAll_cons, Html.rereadAll_append, bound_append,
            bound_cons names n, ← bound_printed_iff names line htext]
          -- Each node has one node in both templates, so they are equal one by one.
          exact ⟨fun h => List.append_inj h (length_bound_printedAll htext line),
            fun ⟨hn, hns⟩ => by rw [hn, hns]⟩

end

/-- A page that is printed and read again has the template that it had before exactly if its texts are
kept. -/
theorem bound_rereadAll_laidOut_iff (names : List Names) (page : List Markup.Node) :
    bound names (rereadAll (laidOut page)) = bound names page ↔
      Markup.keepsTexts page = true := by
  rw [bound_eq_bound_iff, Markup.shownTexts_rereadAll, Markup.withoutTexts_rereadAll,
    Markup.withoutTexts_laidOut, bound_printedAll_iff, Markup.keepsTexts, Bool.and_eq_true,
    beq_iff_eq]

end Template

namespace Markup

open Html (readContent)
open Template (isLayout directText holdsText baseTag writtenTag)

variable {ns : List Node}

/-! ## Ordinary pages -/

/-- An element whose content is read as it is printed, and on whose lines stand no texts that are
shown. -/
structure IsOrdinary (tag : Text) (attributes : List Attribute) (children : List Node) : Prop where
  escaped : tag ∉ escapedTags
  broken : tag ∉ breakTags
  lines : isVoid tag = false → keepsOneLine tag children = false →
    holdsText (baseTag (writtenTag tag attributes)) = false ∧
      ∀ value, .text value ∈ children → isLayout value = true

/-- An ordinary element is read with the nodes that stand in it. -/
theorem IsOrdinary.readContent_eq {tag : Text} {attributes : List Attribute} {children : List Node}
    (h : IsOrdinary tag attributes children) (ns : List Node) : readContent tag ns = ns := by
  rw [readContent, if_neg (by simpa using h.escaped), if_neg (by simpa using h.broken)]

theorem isLayout_lineBreak (depth : Nat) : isLayout (lineBreak depth) = true := by
  rw [isLayout, isAllBlank_lineBreak, lineBreak]
  simp

/-- Line breaks between nodes show nothing. -/
theorem shownTexts_breakEach (depth : Nat) (ns : List Node) :
    shownTexts (breakEach depth ns) = shownTexts ns := by
  induction ns with
  | nil => rfl
  | cons n ns ih =>
      rw [breakEach_cons, shownTexts_cons, Node.shown?, if_pos (isLayout_lineBreak depth),
        shownTexts_cons, ih, shownTexts_cons n ns]
      rfl

/-- On lines of their own, the nodes that are no texts are shown in their places. -/
theorem shownTexts_laidAll (h : ∀ value, .text value ∈ ns → isLayout value = true) (depth : Nat) :
    shownTexts (Node.laidAll depth ns) = shownTexts ns := by
  induction ns with
  | nil => rfl
  | cons n ns ih =>
      have hrest := ih fun value hmem => h value (List.mem_cons_of_mem _ hmem)
      rw [Node.laidAll, shownTexts_append, hrest, shownTexts_cons n ns]
      cases n with
      | comment value => rfl
      | element tag attributes children =>
          rw [Node.laid?]
          split <;> rfl
      | text value =>
          have hlayout := h value List.mem_cons_self
          have hblank : Text.isAllBlank value = true := by
            rw [isLayout, Bool.and_eq_true] at hlayout
            exact hlayout.1
          rw [Node.laid?, if_pos hblank, Node.shown?, if_pos hlayout]
          rfl

theorem exists_of_mem_laidAll {depth : Nat} {m : Node} (hm : m ∈ Node.laidAll depth ns) :
    ∃ n ∈ ns, n.laid? depth = some m := by
  induction ns with
  | nil => cases hm
  | cons n ns ih =>
      rw [Node.laidAll, List.mem_append, Option.mem_toList] at hm
      rcases hm with hm | hm
      · exact ⟨n, List.mem_cons_self, hm⟩
      · obtain ⟨n', hn', hlaid⟩ := ih hm
        exact ⟨n', List.mem_cons_of_mem _ hn', hlaid⟩

/-- Among nodes whose texts show nothing, no text stands on a line of its own. -/
theorem not_isText_of_mem_laidAll (h : ∀ value, .text value ∈ ns → isLayout value = true)
    {depth : Nat} {m : Node} (hm : m ∈ Node.laidAll depth ns) : m.isText = false := by
  obtain ⟨n, hn, hlaid⟩ := exists_of_mem_laidAll hm
  cases n with
  | comment value =>
      cases hlaid
      rfl
  | element tag attributes children =>
      rw [Node.laid?] at hlaid
      split at hlaid
      all_goals
        cases hlaid
        rfl
  | text value =>
      have hlayout := h value hn
      rw [isLayout, Bool.and_eq_true] at hlayout
      rw [Node.laid?, if_pos hlayout.1] at hlaid
      cases hlaid

theorem fuse_breakEach_of_not_isText (h : ∀ n ∈ ns, n.isText = false) :
    fuse (breakEach 0 ns) = breakEach 0 ns := by
  induction ns with
  | nil => rfl
  | cons n ns ih =>
      rw [breakEach_cons, fuse, joinText_of_not_isText (h n List.mem_cons_self),
        ih fun m hm => h m (List.mem_cons_of_mem _ hm)]

/-- A page whose texts show nothing still shows none when it is laid out. -/
theorem shownTexts_laidOut (h : ∀ value, .text value ∈ ns → isLayout value = true) :
    shownTexts (laidOut ns) = shownTexts ns := by
  have hsolid := fun m (hm : m ∈ Node.laidAll 0 ns) => not_isText_of_mem_laidAll h hm
  rw [← shownTexts_laidAll h 0, laidOut]
  cases hlaid : Node.laidAll 0 ns with
  | nil => rfl
  | cons n ms =>
      rw [hlaid] at hsolid
      have htail : (breakEach 0 (n :: ms)).tail = n :: breakEach 0 ms := rfl
      have hfuse : fuse (n :: breakEach 0 ms) = n :: fuse (breakEach 0 ms) := by
        cases n with
        | text value => exact absurd (hsolid _ List.mem_cons_self) (by simp [Node.isText])
        | element | comment => simp [fuse]
      rw [htail, hfuse, fuse_breakEach_of_not_isText fun m hm => hsolid m (List.mem_cons_of_mem _ hm),
        shownTexts_cons, shownTexts_breakEach, shownTexts_cons]

/-- What is printed at a depth is neither empty by its tag nor kept on one line. -/
theorem lines_of_contentLine {line : Option Nat} {tag : Text} {children : List Node} {depth : Nat}
    (h : contentLine line tag children = some depth) :
    isVoid tag = false ∧ keepsOneLine tag children = false := by
  obtain ⟨level, -, hdepth⟩ := Option.bind_eq_some_iff.1 h
  split at hdepth
  · cases hdepth
  · next hlines => simpa using hlines

/-- An ordinary element shows its texts as before when it has been printed. -/
theorem IsOrdinary.shownTexts_eq {tag : Text} {attributes : List Attribute} {children : List Node}
    (h : IsOrdinary tag attributes children) (line : Option Nat) :
    shownTexts (readContent tag (printedContent (contentLine line tag children) children)) =
      shownTexts children := by
  rw [h.readContent_eq]
  cases hline : contentLine line tag children with
  | none => rfl
  | some depth =>
      obtain ⟨hvoid, hlines⟩ := lines_of_contentLine hline
      rw [printedContent, shownTexts_append, shownTexts_breakEach,
        shownTexts_laidAll (h.lines hvoid hlines).2, shownTexts_cons, Node.shown?,
        if_pos (isLayout_lineBreak _)]
      exact List.append_nil _

/-- The text that an ordinary element holds as a property is kept when it has been printed. -/
theorem IsOrdinary.directText_eq {tag : Text} {attributes : List Attribute} {children : List Node}
    (h : IsOrdinary tag attributes children)
    (hholds : holdsText (baseTag (writtenTag tag attributes)) = true) (line : Option Nat) :
    directText (readContent tag (printedContent (contentLine line tag children) children)) =
      directText children := by
  rw [h.readContent_eq]
  cases hline : contentLine line tag children with
  | none => rfl
  | some depth =>
      obtain ⟨hvoid, hlines⟩ := lines_of_contentLine hline
      have hnone := (h.lines hvoid hlines).1
      rw [hholds] at hnone
      cases hnone

mutual

/-- A node of ordinary elements keeps the texts within it. -/
theorem Node.keepsTexts_of_isOrdinary : ∀ (line : Option Nat) {n : Node},
    n.Converted IsOrdinary → n.keepsTexts line = true
  | _, .text _, _ => rfl
  | _, .comment _, _ => rfl
  | line, .element tag attributes children, ⟨hself, hchildren⟩ => by
      rw [Node.keepsTexts]
      split
      · next hholds => rw [hself.directText_eq hholds, beq_self_eq_true]
      · next hholds =>
        rw [hself.shownTexts_eq, beq_self_eq_true, Bool.true_and]
        exact Node.keepsTextsAll_of_isOrdinary _ (hchildren (by simpa using hholds))

theorem Node.keepsTextsAll_of_isOrdinary : ∀ (line : Option Nat) {ns : List Node},
    Node.ConvertedAll IsOrdinary ns → Node.keepsTextsAll line ns = true
  | _, [], _ => rfl
  | line, n :: ns, ⟨hn, hns⟩ => by
      rw [Node.keepsTextsAll, Node.keepsTexts_of_isOrdinary line hn,
        Node.keepsTextsAll_of_isOrdinary line hns, Bool.true_and]

end

/-- A page of ordinary elements keeps its texts. -/
theorem keepsTexts_of_isOrdinary {page : List Node} (h : Node.ConvertedAll IsOrdinary page)
    (htexts : ∀ value, .text value ∈ page → isLayout value = true) : keepsTexts page = true := by
  rw [keepsTexts, shownTexts_laidOut htexts, beq_self_eq_true,
    Node.keepsTextsAll_of_isOrdinary (some 0) h, Bool.true_and]

end Markup

end Viewloom
