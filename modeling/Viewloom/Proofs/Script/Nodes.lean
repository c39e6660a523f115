import Viewloom.Proofs.Script.Templates
import Viewloom.Proofs.Trimming

/-!
# Printed nodes as elements

The nodes of a template fill the place between tags, on one line as well as on lines of their own. A
printed template is an element or holds nothing.
-/

namespace Viewloom.Template.Node

mutual

/-- The tags of a node with their properties, those of socket targets included. -/
def openings : Node → List (Text × List Property)
  | element tag properties children => (tag, properties) :: openingsAll children
  | component tag properties children => (tag, properties) :: openingsAll children
  | text _ => []
  | comment _ => []
  | socket _ target _ .proxied => [(target.tag, target.properties)]
  | socket _ target _ (.fallback nodes) => (target.tag, target.properties) :: openingsAll nodes
  | socket _ target _ (.nested nodes) => (target.tag, target.properties) :: openingsAll nodes

def openingsAll : List Node → List (Text × List Property)
  | [] => []
  | n :: ns => n.openings ++ openingsAll ns

end

/-- The values of a template that are printed in quotes, in order. -/
def staticValues (nodes : List Node) : List Text :=
  (openingsAll nodes).flatMap fun o => o.2.flatMap fun p => p.value.statics

end Viewloom.Template.Node

namespace Viewloom.Script

open Template
open Text (broken broken_append)

variable {must : Bool} {i tag : Text} {properties : List Property} {items others : List Item}

/-! ## Elements and sockets around their content -/

theorem text_close : text "</" = ['<', '/'] := rfl

theorem text_closeGuarded : text ">\x7d" = ['>', '\x7d'] := rfl

theorem text_choice : text ".children ? " = text ".children" ++ text " ? " := rfl

theorem text_otherwise : text ".children : " = text ".children" ++ text " : " := rfl

theorem text_scope : text "\x7bcreateScope(" = '\x7b' :: text "createScope(" := rfl

theorem text_arrow : text ".children, (proxies) => " = text ".children" ++ text ", (proxies) => " := rfl

theorem text_closeScope : text ")\x7d" = [')', '\x7d'] := rfl

/-- Sound properties are an opening up to the end of the tag. -/
theorem opening_tag (h : ∀ p ∈ properties, IsSoundProperty must p) (stop : Text) :
    endsTagName (printProperties properties ++ '>' :: stop) = true ∧
      Opening must ('>' :: stop) (quotedValues properties)
        (printProperties properties ++ '>' :: stop) := by
  have hstop : Opening must ('>' :: stop) [] ('>' :: stop) := .stop
  have hopening := opening_properties h rfl hstop
  rw [List.append_nil] at hopening
  exact ⟨endsTagName_properties rfl, hopening⟩

/-- A text that is an element. -/
def IsWhole (must : Bool) (items : List Item) (p : Text) : Prop :=
  ∃ t, p = '<' :: (t ++ ['>']) ∧ IsTagged must items t

/-- What is whole fills an element. -/
theorem IsWhole.filling {p : Text} (h : IsWhole must items p) : Filling must items p := by
  obtain ⟨t, rfl, ht⟩ := h
  exact filling_tagged ht

/-- A sound tag around a filling is whole, with the items of both. -/
theorem isWhole_element (h : IsSoundTag must tag properties) (hi : Filling must items i) :
    IsWhole must (quotedValues properties ++ items) (openTag tag properties ++ i ++ closeTag tag) := by
  refine ⟨_, ?_, isTagged_whole h.1 (opening_tag h.2) hi⟩
  simp [openTag, closeTag, text_close]

/-- A sound tag that closes itself is whole, with the values that it quotes. -/
theorem isWhole_empty (h : IsSoundTag must tag properties) :
    IsWhole must (quotedValues properties) (printEmpty tag properties) := by
  have hends : text " />" = text " /" ++ ['>'] := rfl
  refine ⟨_, ?_, isTagged_empty h⟩
  simp [printEmpty, hends]

/-- The properties of a tag, and those that a proxy brings. -/
def withProxy (socket : Text) (properties : List Property) : Text :=
  printProperties properties ++ text " \x7b..." ++ proxyRef socket ++ text "\x7d"

/-- A proxy in front of sound properties leaves an opening. -/
theorem opening_withProxy (socket : Text) (h : ∀ p ∈ properties, IsSoundProperty must p)
    (stop : Text) :
    endsTagName (withProxy socket properties ++ '>' :: stop) = true ∧
      Opening must ('>' :: stop) (quotedValues properties)
        (withProxy socket properties ++ '>' :: stop) := by
  have hproxy : Enclosed must (proxyRef socket) := by
    rw [proxyRef_eq]
    exact enclosed_chain rfl rfl
  have hspread : Opening must ('>' :: stop) []
      (' ' :: ('\x7b' :: (text "..." ++ (proxyRef socket ++ ['\x7d'])) ++ '>' :: stop)) :=
    .blank (.piece (.spread hproxy) rfl .stop)
  have htext : withProxy socket properties ++ '>' :: stop = printProperties properties ++
      (' ' :: ('\x7b' :: (text "..." ++ (proxyRef socket ++ ['\x7d'])) ++ '>' :: stop)) := by
    simp [withProxy]
    rfl
  have hopening := opening_properties h rfl hspread
  rw [List.append_nil] at hopening
  rw [htext]
  exact ⟨endsTagName_properties rfl, hopening⟩

/-- A socket around anything that may stand in it. -/
theorem filling_guarded {target : Target} (socket : Text)
    (h : IsSoundTag must target.tag target.properties) (hi : Filling must items i) :
    Filling must (quotedValues target.properties ++ items)
      ('\x7b' :: (proxyRef socket ++ text " && <" ++ target.tag ++
        printProperties target.properties ++ text " \x7b..." ++ proxyRef socket ++ text "\x7d>" ++ i ++
          text "</" ++ target.tag ++ text ">\x7d")) := by
  have hwhole := filling_framed (framing_guard socket)
    (isTagged_whole h.1 (opening_withProxy socket h.2) hi)
  have hand : text " && <" = text " && " ++ ['<'] := rfl
  have hopen : text "\x7d>" = text "\x7d" ++ ['>'] := rfl
  simpa [withProxy, hand, hopen, text_close, text_closeGuarded] using hwhole

/-- A fragment around a filling is a tag with the items of the filling. -/
theorem isTagged_fragment (hi : Filling must items i) :
    IsTagged must items (fragmentTag ++ '>' :: (i ++ '<' :: '/' :: fragmentTag)) := by
  have htag : IsTag must fragmentTag := ⟨rfl, by decide, fun _ => by decide⟩
  have hattributes (stop : Text) : endsTagName ([] ++ '>' :: stop) = true ∧
      Opening must ('>' :: stop) [] ([] ++ '>' :: stop) := ⟨rfl, .stop⟩
  exact isTagged_whole htag hattributes hi

/-- A fragment around a filling is whole. -/
theorem isWhole_fragment (hi : Filling must items i) :
    IsWhole must items (openFragment ++ i ++ closeFragment) := by
  refine ⟨_, ?_, isTagged_fragment hi⟩
  simp [openFragment, closeFragment, text_close]

/-- A socket whose contents its proxy brings is a filling. -/
theorem filling_proxied {target : Target} (socket : Text)
    (h : IsSoundTag must target.tag target.properties) :
    Filling must (quotedValues target.properties)
      (socketHead socket target .proxied ++ socketTail target .proxied) := by
  have hchildren : Enclosed must (childrenRef socket) := by
    rw [childrenRef_eq]
    exact enclosed_chain rfl rfl
  have hbegins : beginsValue (childrenRef socket) = true := by
    rw [childrenRef_eq]
    rfl
  have hwhole := filling_guarded socket h (filling_braces hchildren hbegins)
  simpa [socketHead, socketTail, childrenRef] using hwhole

/-- A socket with contents to fall back on is a filling. -/
theorem filling_fallback {target : Target} (socket : Text) (nodes : List Node)
    (h : IsSoundTag must target.tag target.properties) (hi : Filling must items i) :
    Filling must (quotedValues target.properties ++ items)
      (socketHead socket target (.fallback nodes) ++ i ++ socketTail target (.fallback nodes)) := by
  have hchoice := filling_framed (framing_choice socket) (isTagged_fragment hi)
  have hwhole := filling_guarded socket h hchoice
  simpa [socketHead, socketTail, childrenRef, openFragment, closeFragment, text_close, text_choice,
    text_otherwise] using hwhole

/-- A socket with sockets inside is a filling. -/
theorem filling_nested {target : Target} (socket : Text) (nodes : List Node)
    (h : IsSoundTag must target.tag target.properties) (hi : Filling must items i) :
    Filling must (quotedValues target.properties ++ items)
      (socketHead socket target (.nested nodes) ++ i ++ socketTail target (.nested nodes)) := by
  have hscope := filling_framed (framing_scope socket) (isTagged_fragment hi)
  have hwhole := filling_guarded socket h hscope
  simpa [socketHead, socketTail, childrenRef, openFragment, closeFragment, text_close, text_scope,
    text_arrow, text_closeScope] using hwhole

/-! ## Nodes on one line -/

/-- Whether all tags may be printed as they stand. -/
def AllSound (must : Bool) (openings : List (Text × List Property)) : Prop :=
  ∀ o ∈ openings, IsSoundTag must o.1 o.2

instance (must : Bool) (openings : List (Text × List Property)) : Decidable (AllSound must openings) :=
  inferInstanceAs (Decidable (∀ _ ∈ openings, _))

theorem allSound_cons {o : Text × List Property} {openings : List (Text × List Property)} :
    AllSound must (o :: openings) ↔ IsSoundTag must o.1 o.2 ∧ AllSound must openings := by
  simp [AllSound]

theorem allSound_append {openings openings' : List (Text × List Property)} :
    AllSound must (openings ++ openings') ↔ AllSound must openings ∧ AllSound must openings' := by
  simp [AllSound, or_imp, forall_and]

/-- What tags quote in their properties. -/
def quotedIn (openings : List (Text × List Property)) : List Item :=
  openings.flatMap fun o => quotedValues o.2

/-- What openings quote are the static values of their nodes, escaped. -/
theorem quotedIn_openingsAll (nodes : List Node) :
    quotedIn (Node.openingsAll nodes) =
      (Node.staticValues nodes).map fun value => .quoted (inQuotes (Markup.escapeAttribute value)) := by
  simp only [quotedIn, quotedValues, quotedValue, Node.staticValues, List.map_flatMap]

theorem quotedIn_append (openings openings' : List (Text × List Property)) :
    quotedIn (openings ++ openings') = quotedIn openings ++ quotedIn openings' :=
  List.flatMap_append

/-! Child views are printed as elements. -/

theorem inline_component (children : List Node) :
    (Node.component tag properties children).inline = (Node.element tag properties children).inline := by
  cases children <;> rfl

theorem block_component (depth : Nat) (children : List Node) :
    (Node.component tag properties children).block depth =
      (Node.element tag properties children).block depth := by
  rw [Node.block, Node.block, inline_component]

/-- A sound element around a filling is whole where it is written on one line. -/
theorem isWhole_inline {children : List Node} (h : IsSoundTag must tag properties)
    (hchildren : Filling must (quotedIn (Node.openingsAll children)) (Node.inlineAll children)) :
    IsWhole must (quotedIn (Node.element tag properties children).openings)
      (Node.element tag properties children).inline := by
  cases children with
  | nil =>
      have hempty := isWhole_empty h
      rw [← List.append_nil (quotedValues properties)] at hempty
      exact hempty
  | cons => exact isWhole_element h hchildren

mutual

/-- A node on one line fills the place between tags. -/
theorem filling_inline : ∀ n : Node, AllSound must n.openings →
    Filling must (quotedIn n.openings) n.inline
  | .text value, _ => filling_escaped value
  | .comment value, _ => filling_comment value
  | .element _ _ children, h => by
    obtain ⟨htag, hchildren⟩ := allSound_cons.1 h
    exact (isWhole_inline htag (filling_inlineAll children hchildren)).filling
  | .component _ _ children, h => by
    obtain ⟨htag, hchildren⟩ := allSound_cons.1 h
    rw [inline_component]
    exact (isWhole_inline htag (filling_inlineAll children hchildren)).filling
  | .socket name target _ .proxied, h => by
    have hproxied := filling_proxied name (allSound_cons.1 h).1
    rw [← List.append_nil (quotedValues target.properties)] at hproxied
    exact hproxied
  | .socket name _ _ (.fallback nodes), h => by
    obtain ⟨htag, hnodes⟩ := allSound_cons.1 h
    exact filling_fallback name nodes htag (filling_inlineAll nodes hnodes)
  | .socket name _ _ (.nested nodes), h => by
    obtain ⟨htag, hnodes⟩ := allSound_cons.1 h
    exact filling_nested name nodes htag (filling_inlineAll nodes hnodes)

/-- Nodes with sound openings are a filling where they are written on one line. -/
theorem filling_inlineAll : ∀ ns : List Node, AllSound must (Node.openingsAll ns) →
    Filling must (quotedIn (Node.openingsAll ns)) (Node.inlineAll ns)
  | [], _ => .nil
  | n :: ns, h => by
    obtain ⟨hn, hns⟩ := allSound_append.1 h
    rw [Node.openingsAll, quotedIn_append]
    exact (filling_inline n hn).append (filling_inlineAll ns hns)

end

/-! ## Nodes on lines of their own -/

/-- A line break and its indentation fill an element. -/
theorem filling_blanks (depth : Nat) : Filling must [] ('\n' :: Markup.indentation depth) := by
  apply Filling.of_any
  rw [List.any_cons, Markup.indentation, List.any_replicate]
  split <;> rfl

/-- A filling can stand on a line of its own. -/
theorem filling_line {line : Text} (depth : Nat) (h : Filling must items line) :
    Filling must items (broken [indented depth line]) := by
  have hline := (filling_blanks depth).append h
  simpa [broken, indented] using hline

/-- Two lines with others between them, if they may stand around anything. -/
theorem filling_enclosed {head tail : Text} {inner : List Text} (depth : Nat)
    (h : ∀ i, Filling must items i → Filling must others (head ++ i ++ tail))
    (hinner : Filling must items (broken inner)) :
    Filling must others (broken (enclosed (indented depth head) inner (indented depth tail))) := by
  have hlines := hinner.append (filling_blanks depth)
  rw [List.append_nil] at hlines
  have hwhole := (filling_blanks depth).append (h _ hlines)
  simpa [enclosed, indented, broken] using hwhole

mutual

/-- The lines of a node fill the place between tags. -/
theorem filling_block (depth : Nat) : ∀ n : Node, AllSound must n.openings →
    Filling must (quotedIn n.openings) (broken (n.block depth))
  | .text value, _ => filling_line depth (filling_escaped value)
  | .comment value, _ => filling_line depth (filling_comment value)
  | .element tag properties children, h => by
    obtain ⟨htag, hchildren⟩ := allSound_cons.1 h
    rw [Node.block]
    split
    · exact filling_enclosed depth (fun i hi => (isWhole_element htag hi).filling)
        (filling_blockAll (depth + 1) children hchildren)
    · exact filling_line depth (filling_inline _ h)
  | .component tag properties children, h => by
    obtain ⟨htag, hchildren⟩ := allSound_cons.1 h
    rw [Node.block]
    split
    · exact filling_enclosed depth (fun i hi => (isWhole_element htag hi).filling)
        (filling_blockAll (depth + 1) children hchildren)
    · exact filling_line depth (filling_inline _ h)
  | .socket name target inner .proxied, h =>
    filling_line depth (filling_inline (.socket name target inner .proxied) h)
  | .socket name _ _ (.fallback nodes), h => by
    obtain ⟨htag, hnodes⟩ := allSound_cons.1 h
    rw [Node.block]
    split
    · exact filling_enclosed depth (fun i hi => filling_fallback name nodes htag hi)
        (filling_blockAll (depth + 1) nodes hnodes)
    · exact filling_line depth (filling_inline _ h)
  | .socket name _ _ (.nested nodes), h => by
    obtain ⟨htag, hnodes⟩ := allSound_cons.1 h
    rw [Node.block]
    split
    · exact filling_enclosed depth (fun i hi => filling_nested name nodes htag hi)
        (filling_blockAll (depth + 1) nodes hnodes)
    · exact filling_line depth (filling_inline _ h)

/-- Nodes with sound openings are a filling where they are written as a block. -/
theorem filling_blockAll (depth : Nat) : ∀ ns : List Node, AllSound must (Node.openingsAll ns) →
    Filling must (quotedIn (Node.openingsAll ns)) (broken (Node.blockAll depth ns))
  | [], _ => .nil
  | n :: ns, h => by
    obtain ⟨hn, hns⟩ := allSound_append.1 h
    rw [Node.blockAll, broken_append, Node.openingsAll, quotedIn_append]
    exact (filling_block depth n hn).append (filling_blockAll depth ns hns)

end

theorem filling_blockList {nodes : List Node} (depth : Nat)
    (h : AllSound must (Node.openingsAll nodes)) :
    Filling must (quotedIn (Node.openingsAll nodes)) (broken (blockList depth nodes)) := by
  rw [blockList]
  split
  · exact filling_line depth (filling_inlineAll nodes h).trim
  · exact filling_blockAll depth nodes h

/-! ## Templates -/

theorem intercalate_enclosed (first : Text) (inner : List Text) (last : Text) :
    List.intercalate ['\n'] (enclosed first inner last) = first ++ (broken inner ++ ['\n']) ++ last := by
  rw [enclosed, Text.intercalate_cons, broken_append]
  simp [broken]

/-- What is whole around every filling is so around lines. -/
theorem isWhole_lines {head tail : Text} {inner : List Text}
    (h : ∀ i, Filling must items i → IsWhole must others (head ++ i ++ tail))
    (hinner : Filling must items (broken inner)) :
    IsWhole must others (List.intercalate ['\n'] (enclosed head inner tail)) := by
  have hlines := hinner.append (.of_any (i := ['\n']) rfl)
  rw [List.append_nil] at hlines
  rw [intercalate_enclosed]
  exact h _ hlines

/-- A sound element is whole where it is written as a block. -/
theorem isWhole_block {children : List Node} (h : IsSoundTag must tag properties)
    (hchildren : AllSound must (Node.openingsAll children)) :
    IsWhole must (quotedIn (Node.element tag properties children).openings)
      (List.intercalate ['\n'] ((Node.element tag properties children).block 0)) := by
  rw [Node.block]
  split
  · exact isWhole_lines (fun i hi => isWhole_element h hi) (filling_blockAll 1 children hchildren)
  · rw [List.intercalate_singleton]
    exact isWhole_inline h (filling_inlineAll children hchildren)

/-- A printed template holds nothing, or is an element that quotes what its tags quote. -/
theorem print_eq_null_or {nodes : List Node} (h : AllSound must (Node.openingsAll nodes)) :
    (nodes = [] ∧ print nodes = text "null") ∨
      IsWhole must (quotedIn (Node.openingsAll nodes)) (print nodes) := by
  unfold print
  split
  · exact .inl ⟨rfl, rfl⟩
  · next tag properties children =>
      rw [Node.openingsAll, Node.openingsAll, List.append_nil] at h ⊢
      exact .inr (isWhole_block (allSound_cons.1 h).1 (allSound_cons.1 h).2)
  · next tag properties children =>
      rw [Node.openingsAll, Node.openingsAll, List.append_nil] at h ⊢
      rw [block_component]
      exact .inr (isWhole_block (allSound_cons.1 h).1 (allSound_cons.1 h).2)
  · exact .inr (isWhole_lines (fun i hi => isWhole_fragment hi) (filling_blockList 1 h))

end Viewloom.Script
