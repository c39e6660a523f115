import Viewloom.Proofs.Spacing.Texts

/-!
# The parts of printed templates

A printed template consists of code and of the escaped texts of the template. Where a text stands among
the roots of the template its line is trimmed, which trims the first and the last texts of the line.

## Implementation notes

The parts are laid out by the same cases as the template is printed by, so that each line of parts is a
line of the printed template. A text keeps its value next to what trimming has left of it.
-/

namespace Viewloom.Template

open Spacing

/-! ## Parts -/

/-- A part of a printed template: code, or a text of the template and what is left of it. -/
inductive Part where
  | code (text : Text)
  | shown (value kept : Text)

namespace Part

/-- What a part is written as. -/
def text : Part → Text
  | code text => text
  | shown _ kept => escaped kept

/-- The value that a part shows, if it shows any. -/
def value? : Part → Option Text
  | code _ => none
  | shown value _ => some value

def isShown (p : Part) : Bool := p.value?.isSome

/-- Trims the texts in front of the first code. -/
def trimFirst (trim : Text → Text) : List Part → List Part
  | shown value kept :: ps =>
    shown value (trim kept) :: if trim kept = [] then trimFirst trim ps else ps
  | ps => ps

/-- Trims the texts at both ends. -/
def trimmed (ps : List Part) : List Part :=
  (trimFirst Text.trimEnd (trimFirst Text.trimStart ps).reverse).reverse

/-- Parts between two pieces of code. -/
def between (first : Text) (inner : List Part) (last : Text) : List Part :=
  code first :: (inner ++ [code last])

/-- Lines between two lines of code. -/
def enclosed (first : Text) (inner : List (List Part)) (last : Text) : List (List Part) :=
  [code first] :: (inner ++ [[code last]])

end Part

open Viewloom.Template.Part (code shown)

mutual

/-- The parts of a node on one line. -/
def Node.parts : Node → List Part
  | .text value => [shown value value]
  | .comment value => [code (printComment value)]
  | .element tag properties [] => [code (printEmpty tag properties)]
  | .component tag properties [] => [code (printEmpty tag properties)]
  | .element tag properties (n :: ns) =>
    Part.between (openTag tag properties) (partsAll (n :: ns)) (closeTag tag)
  | .component tag properties (n :: ns) =>
    Part.between (openTag tag properties) (partsAll (n :: ns)) (closeTag tag)
  | .socket name target _ .proxied =>
    Part.between (socketHead name target .proxied) [] (socketTail target .proxied)
  | .socket name target _ (.fallback nodes) =>
    Part.between (socketHead name target (.fallback nodes)) (partsAll nodes)
      (socketTail target (.fallback nodes))
  | .socket name target _ (.nested nodes) =>
    Part.between (socketHead name target (.nested nodes)) (partsAll nodes)
      (socketTail target (.nested nodes))

def Node.partsAll : List Node → List Part
  | [] => []
  | n :: ns => n.parts ++ partsAll ns

end

mutual

/-- The parts of a node line by line. -/
def Node.lines (depth : Nat) : Node → List (List Part)
  | .element tag properties children =>
    if breaksLines children then
      Part.enclosed (indented depth (openTag tag properties)) (linesAll (depth + 1) children)
        (indented depth (closeTag tag))
    else [code (Markup.indentation depth) :: (Node.element tag properties children).parts]
  | .component tag properties children =>
    if breaksLines children then
      Part.enclosed (indented depth (openTag tag properties)) (linesAll (depth + 1) children)
        (indented depth (closeTag tag))
    else [code (Markup.indentation depth) :: (Node.component tag properties children).parts]
  | .socket name target inner (.fallback nodes) =>
    if breaksLines nodes then
      Part.enclosed (indented depth (socketHead name target (.fallback nodes)))
        (linesAll (depth + 1) nodes) (indented depth (socketTail target (.fallback nodes)))
    else [code (Markup.indentation depth) :: (Node.socket name target inner (.fallback nodes)).parts]
  | .socket name target inner (.nested nodes) =>
    if breaksLines nodes then
      Part.enclosed (indented depth (socketHead name target (.nested nodes)))
        (linesAll (depth + 1) nodes) (indented depth (socketTail target (.nested nodes)))
    else [code (Markup.indentation depth) :: (Node.socket name target inner (.nested nodes)).parts]
  | n => [code (Markup.indentation depth) :: n.parts]

def Node.linesAll (depth : Nat) : List Node → List (List Part)
  | [] => []
  | n :: ns => n.lines depth ++ linesAll depth ns

end

/-- The parts of a list of nodes, whose texts are trimmed at the ends of their line. -/
def lineList (depth : Nat) (nodes : List Node) : List (List Part) :=
  if nodes.any Node.isText then
    [code (Markup.indentation depth) :: Part.trimmed (Node.partsAll nodes)]
  else Node.linesAll depth nodes

/-- The parts of a printed template line by line. -/
def printedLines : List Node → List (List Part)
  | [] => [[code (text "null")]]
  | [.element tag properties children] => (Node.element tag properties children).lines 0
  | [.component tag properties children] => (Node.component tag properties children).lines 0
  | nodes => Part.enclosed openFragment (lineList 1 nodes) closeFragment

mutual

/-- The texts of a template in its order. -/
def Node.texts : Node → List Text
  | .text value => [value]
  | .element _ _ children => textsAll children
  | .component _ _ children => textsAll children
  | .socket _ _ _ (.fallback nodes) => textsAll nodes
  | .socket _ _ _ (.nested nodes) => textsAll nodes
  | _ => []

def Node.textsAll : List Node → List Text
  | [] => []
  | n :: ns => n.texts ++ textsAll ns

end

/-! ## The parts make up the printed template -/

/-- The text of some parts. -/
def textOf (ps : List Part) : Text := ps.flatMap Part.text

@[simp] theorem textOf_nil : textOf [] = [] := rfl

@[simp] theorem textOf_cons (p : Part) (ps : List Part) : textOf (p :: ps) = p.text ++ textOf ps := rfl

@[simp] theorem textOf_append (ps qs : List Part) : textOf (ps ++ qs) = textOf ps ++ textOf qs :=
  List.flatMap_append

theorem textOf_between (first : Text) (inner : List Part) (last : Text) :
    textOf (Part.between first inner last) = first ++ textOf inner ++ last := by
  simp [Part.between, Part.text]

mutual

/-- The parts of a node are written as the node is on one line. -/
theorem textOf_parts : ∀ n : Node, textOf n.parts = n.inline
  | .text value => by simp [Node.parts, Node.inline, Part.text]
  | .comment value => by simp [Node.parts, Node.inline, Part.text]
  | .element tag properties [] => by simp [Node.parts, Node.inline, Part.text]
  | .component tag properties [] => by simp [Node.parts, Node.inline, Part.text]
  | .element tag properties (n :: ns) => by
      rw [Node.parts, textOf_between, textOf_partsAll (n :: ns), Node.inline]
  | .component tag properties (n :: ns) => by
      rw [Node.parts, textOf_between, textOf_partsAll (n :: ns), Node.inline]
  | .socket name target _ .proxied => by
      rw [Node.parts, textOf_between, textOf_nil, List.append_nil, Node.inline]
  | .socket name target _ (.fallback nodes) => by
      rw [Node.parts, textOf_between, textOf_partsAll nodes, Node.inline]
  | .socket name target _ (.nested nodes) => by
      rw [Node.parts, textOf_between, textOf_partsAll nodes, Node.inline]

theorem textOf_partsAll : ∀ ns : List Node, textOf (Node.partsAll ns) = Node.inlineAll ns
  | [] => rfl
  | n :: ns => by
      rw [Node.partsAll, textOf_append, textOf_parts n, textOf_partsAll ns, Node.inlineAll]

end

theorem map_textOf_enclosed (first : Text) (inner : List (List Part)) (last : Text) :
    (Part.enclosed first inner last).map textOf = enclosed first (inner.map textOf) last := by
  simp [Part.enclosed, enclosed, Part.text]

theorem textOf_line (depth : Nat) (n : Node) :
    textOf (code (Markup.indentation depth) :: n.parts) = indented depth n.inline := by
  rw [textOf_cons, textOf_parts]
  rfl

mutual

/-- The lines of a node are written as the node is as a block. -/
theorem map_textOf_lines (depth : Nat) : ∀ n : Node, (n.lines depth).map textOf = n.block depth
  | .element tag properties children => by
      rw [Node.lines, Node.block]
      split
      · rw [map_textOf_enclosed, map_textOf_linesAll (depth + 1) children]
      · rw [List.map_singleton, textOf_line]
  | .component tag properties children => by
      rw [Node.lines, Node.block]
      split
      · rw [map_textOf_enclosed, map_textOf_linesAll (depth + 1) children]
      · rw [List.map_singleton, textOf_line]
  | .socket name target inner (.fallback nodes) => by
      rw [Node.lines, Node.block]
      split
      · rw [map_textOf_enclosed, map_textOf_linesAll (depth + 1) nodes]
      · rw [List.map_singleton, textOf_line]
  | .socket name target inner (.nested nodes) => by
      rw [Node.lines, Node.block]
      split
      · rw [map_textOf_enclosed, map_textOf_linesAll (depth + 1) nodes]
      · rw [List.map_singleton, textOf_line]
  | .socket name target inner .proxied => congrArg (· :: []) (textOf_line depth _)
  | .text value => congrArg (· :: []) (textOf_line depth _)
  | .comment value => congrArg (· :: []) (textOf_line depth _)

theorem map_textOf_linesAll (depth : Nat) :
    ∀ ns : List Node, (Node.linesAll depth ns).map textOf = Node.blockAll depth ns
  | [] => rfl
  | n :: ns => by
      rw [Node.linesAll, List.map_append, map_textOf_lines depth n, map_textOf_linesAll depth ns,
        Node.blockAll]

end

/-! ## Trimming the parts trims their text -/

open Unicode (isBlank)

theorem escaped_append (s t : Text) : escaped (s ++ t) = escaped s ++ escaped t :=
  List.flatMap_append

theorem escapedChar_of_isBlank {c : Char} (h : isBlank c = true) : escapedChar c = [c] := by
  unfold escapedChar
  split_ifs with h₁ h₂ h₃ h₄ h₅
  all_goals first | rfl | (subst_vars; exact absurd h (by decide))

/-- Nothing is trimmed away from the escapes of a character that is not blank. -/
theorem trim_escapedChar {c : Char} (h : isBlank c = false) :
    Text.trimStart (escapedChar c) = escapedChar c ∧ Text.trimEnd (escapedChar c) = escapedChar c ∧
      escapedChar c ≠ [] := by
  unfold escapedChar
  split_ifs
  · decide
  · decide
  · decide
  · decide
  · decide
  · simp [Text.trimStart, Text.trimEnd, Text.dropWhileEnd, h]

/-- Blanks can be trimmed before a text is escaped or after, in front of it. -/
theorem trimStart_escaped (s : Text) : Text.trimStart (escaped s) = escaped (Text.trimStart s) := by
  induction s with
  | nil => rfl
  | cons c s ih =>
      have hcons : escaped (c :: s) = escapedChar c ++ escaped s := rfl
      cases hc : isBlank c with
      | true =>
          have htrim : Text.trimStart (c :: s) = Text.trimStart s := List.dropWhile_cons_of_pos hc
          rw [htrim, ← ih, hcons, escapedChar_of_isBlank hc]
          exact List.dropWhile_cons_of_pos hc
      | false =>
          have htrim : Text.trimStart (c :: s) = c :: s := List.dropWhile_cons_of_neg (by simp [hc])
          obtain ⟨hstart, -, hne⟩ := trim_escapedChar hc
          rw [htrim, hcons, Text.trimStart_append, hstart, if_neg hne]

/-- Blanks can be trimmed before a text is escaped or after, behind it. -/
theorem trimEnd_escaped (s : Text) : Text.trimEnd (escaped s) = escaped (Text.trimEnd s) := by
  induction s using List.reverseRecOn with
  | nil => rfl
  | append_singleton s c ih =>
      have hchar : escaped [c] = escapedChar c := by simp [escaped]
      rw [escaped_append, hchar, Text.trimEnd_append, Text.trimEnd_append]
      cases hc : isBlank c with
      | true =>
          have htrim : Text.trimEnd [c] = [] := by simp [Text.trimEnd, Text.dropWhileEnd, hc]
          rw [escapedChar_of_isBlank hc, htrim, if_pos rfl, if_pos rfl, ih]
      | false =>
          have htrim : Text.trimEnd [c] = [c] := by simp [Text.trimEnd, Text.dropWhileEnd, hc]
          obtain ⟨-, hend, hne⟩ := trim_escapedChar hc
          rw [hend, htrim, if_neg hne, if_neg (by simp), escaped_append, hchar]

theorem escaped_eq_nil_iff {s : Text} : escaped s = [] ↔ s = [] := by
  cases s with
  | nil => simp [escaped]
  | cons c s =>
      have hne : escapedChar c ≠ [] := by
        cases hc : isBlank c with
        | true => simp [escapedChar_of_isBlank hc]
        | false => exact (trim_escapedChar hc).2.2
      simp [escaped, hne]

/-- Whether code neither begins nor ends with a blank. -/
def Part.isSolid : Part → Bool
  | .code c => c.head?.any (!isBlank ·) && c.getLast?.any (!isBlank ·)
  | .shown _ _ => true

/-- Nothing is trimmed away from solid code. -/
theorem trim_of_isSolid {c : Text} (h : (code c).isSolid = true) :
    Text.trimStart c = c ∧ Text.trimEnd c = c ∧ c ≠ [] := by
  simp only [Part.isSolid, Bool.and_eq_true, Option.any_eq_true, Bool.not_eq_true'] at h
  obtain ⟨⟨a, ha, hasolid⟩, z, hz, hzsolid⟩ := h
  obtain ⟨s, rfl⟩ := List.head?_eq_some_iff.1 ha
  obtain ⟨t, ht⟩ := List.getLast?_eq_some_iff.1 hz
  refine ⟨List.dropWhile_cons_of_neg (by simp [hasolid]), ?_, by simp⟩
  rw [ht, Text.trimEnd_eq, List.reverse_append, List.reverse_singleton, List.singleton_append,
    Text.trimStart, List.dropWhile_cons_of_neg (by simp [hzsolid])]
  simp

@[simp] theorem trimFirst_code (trim : Text → Text) (c : Text) (ps : List Part) :
    Part.trimFirst trim (code c :: ps) = code c :: ps := rfl

/-- Trimming leaves solid code solid. -/
theorem all_isSolid_trimFirst (trim : Text → Text) {ps : List Part}
    (h : ps.all Part.isSolid = true) : (Part.trimFirst trim ps).all Part.isSolid = true := by
  induction ps with
  | nil => rfl
  | cons p ps ih =>
      cases p with
      | code c => exact h
      | shown value kept =>
          simp only [List.all_cons, Bool.and_eq_true] at h
          rw [Part.trimFirst, List.all_cons, Bool.and_eq_true]
          refine ⟨rfl, ?_⟩
          split
          · exact ih h.2
          · exact h.2

/-- Trimming the texts in front of the first code trims what the parts are written as. -/
theorem textOf_trimFirst {ps : List Part} (h : ps.all Part.isSolid = true) :
    textOf (Part.trimFirst Text.trimStart ps) = Text.trimStart (textOf ps) := by
  induction ps with
  | nil => rfl
  | cons p ps ih =>
      rw [List.all_cons, Bool.and_eq_true] at h
      rw [textOf_cons, Text.trimStart_append]
      cases p with
      | code c =>
          obtain ⟨hstart, -, hne⟩ := trim_of_isSolid h.1
          rw [trimFirst_code, textOf_cons, Part.text, hstart, if_neg hne]
      | shown value kept =>
          rw [Part.trimFirst, textOf_cons, Part.text, Part.text, trimStart_escaped, ← ih h.2]
          simp only [escaped_eq_nil_iff]
          split
          · next hkept => rw [hkept]; rfl
          · rfl

/-- Trimming the texts behind the last code trims what the parts are written as. -/
theorem textOf_reverse_trimFirst {ps : List Part} (h : ps.all Part.isSolid = true) :
    textOf (Part.trimFirst Text.trimEnd ps.reverse).reverse = Text.trimEnd (textOf ps) := by
  induction ps using List.reverseRecOn with
  | nil => rfl
  | append_singleton ps p ih =>
      rw [List.all_append, Bool.and_eq_true, List.all_cons, Bool.and_eq_true] at h
      have hlast : textOf [p] = p.text := by simp
      rw [List.reverse_append, List.reverse_singleton, List.singleton_append, textOf_append, hlast,
        Text.trimEnd_append]
      cases p with
      | code c =>
          obtain ⟨-, hend, hne⟩ := trim_of_isSolid h.2.1
          rw [trimFirst_code, Part.text, hend, if_neg hne]
          simp [Part.text]
      | shown value kept =>
          rw [Part.trimFirst, Part.text, trimEnd_escaped, ← ih h.1]
          simp only [escaped_eq_nil_iff, List.reverse_cons, textOf_append, textOf_cons, textOf_nil,
            List.append_nil, Part.text]
          split
          · next hkept => simp [hkept, escaped]
          · simp

/-- Trimmed parts are written as the trimmed text. -/
theorem textOf_trimmed {ps : List Part} (h : ps.all Part.isSolid = true) :
    textOf (Part.trimmed ps) = Text.trim (textOf ps) := by
  rw [Part.trimmed, textOf_reverse_trimFirst (all_isSolid_trimFirst _ h), textOf_trimFirst h, Text.trim]

/-! ## Code is not trimmed -/

theorem getLast?_append_eq {s t : Text} {z : Char} (h : t.getLast? = some z) :
    (s ++ t).getLast? = some z := by
  rw [List.getLast?_append, h]
  rfl

/-- Code that begins and ends with no blank is solid. -/
theorem isSolid_code {c : Text} {a z : Char} (ha : c.head? = some a) (hz : c.getLast? = some z)
    (hsolid : isBlank a = false ∧ isBlank z = false) : (code c).isSolid = true := by
  simp [Part.isSolid, ha, hz, hsolid]

section Code

variable (tag : Text) (properties : List Property) (name : Text) (target : Target)

theorem isSolid_openTag : (code (openTag tag properties)).isSolid = true :=
  isSolid_code rfl (getLast?_append_eq rfl) (by decide)

theorem isSolid_closeTag : (code (closeTag tag)).isSolid = true :=
  isSolid_code rfl (getLast?_append_eq rfl) (by decide)

theorem isSolid_printEmpty : (code (printEmpty tag properties)).isSolid = true :=
  isSolid_code rfl (getLast?_append_eq rfl) (by decide)

theorem isSolid_printComment (value : Text) : (code (printComment value)).isSolid = true :=
  isSolid_code rfl (getLast?_append_eq rfl) (by decide)

/-- What is written in front of a socket is solid. -/
theorem isSolid_socketHead (content : Content Node) :
    (code (socketHead name target content)).isSolid = true := by
  cases content with
  | proxied => exact isSolid_code rfl (getLast?_append_eq rfl) (by decide)
  | fallback nodes => exact isSolid_code rfl (getLast?_append_eq rfl) (by decide)
  | nested nodes => exact isSolid_code rfl (getLast?_append_eq rfl) (by decide)

/-- What is written behind a socket is solid. -/
theorem isSolid_socketTail (content : Content Node) :
    (code (socketTail target content)).isSolid = true := by
  have hclosed : (text "</" ++ target.tag ++ text ">\x7d").getLast? = some '\x7d' :=
    getLast?_append_eq rfl
  have hbrace : ('\x7d' :: (text "</" ++ target.tag ++ text ">\x7d")).getLast? = some '\x7d' := by
    rw [List.getLast?_cons, hclosed]
    rfl
  cases content with
  | proxied => exact isSolid_code rfl hbrace (by decide)
  | fallback nodes => exact isSolid_code rfl (getLast?_append_eq hbrace) (by decide)
  | nested nodes => exact isSolid_code rfl (getLast?_append_eq hclosed) (by decide)

end Code

theorem all_isSolid_between {first last : Text} {inner : List Part}
    (hfirst : (code first).isSolid = true) (hlast : (code last).isSolid = true)
    (hinner : inner.all Part.isSolid = true) :
    (Part.between first inner last).all Part.isSolid = true := by
  simp only [Part.between, List.all_cons, List.all_append, hfirst, hlast, hinner, List.all_nil,
    Bool.and_self]

mutual

/-- All code among the parts of a node is solid. -/
theorem all_isSolid_parts : ∀ n : Node, n.parts.all Part.isSolid = true
  | .text value => rfl
  | .comment value => by simp [Node.parts, isSolid_printComment]
  | .element tag properties [] => by simp [Node.parts, isSolid_printEmpty]
  | .component tag properties [] => by simp [Node.parts, isSolid_printEmpty]
  | .element tag properties (n :: ns) =>
    all_isSolid_between (isSolid_openTag tag properties) (isSolid_closeTag tag)
      (all_isSolid_partsAll (n :: ns))
  | .component tag properties (n :: ns) =>
    all_isSolid_between (isSolid_openTag tag properties) (isSolid_closeTag tag)
      (all_isSolid_partsAll (n :: ns))
  | .socket name target _ .proxied =>
    all_isSolid_between (isSolid_socketHead name target _) (isSolid_socketTail target _) rfl
  | .socket name target _ (.fallback nodes) =>
    all_isSolid_between (isSolid_socketHead name target _) (isSolid_socketTail target _)
      (all_isSolid_partsAll nodes)
  | .socket name target _ (.nested nodes) =>
    all_isSolid_between (isSolid_socketHead name target _) (isSolid_socketTail target _)
      (all_isSolid_partsAll nodes)

theorem all_isSolid_partsAll : ∀ ns : List Node, (Node.partsAll ns).all Part.isSolid = true
  | [] => rfl
  | n :: ns => by
      rw [Node.partsAll, List.all_append, all_isSolid_parts n, all_isSolid_partsAll ns, Bool.and_self]

end

/-- The lines of parts are written as the lines of a block. -/
theorem map_textOf_lineList (depth : Nat) (nodes : List Node) :
    (lineList depth nodes).map textOf = blockList depth nodes := by
  rw [lineList, blockList]
  split
  · rw [List.map_singleton, textOf_cons, textOf_trimmed (all_isSolid_partsAll nodes),
      textOf_partsAll]
    rfl
  · exact map_textOf_linesAll depth nodes

/-- The lines of parts are the lines of the printed template. -/
theorem join_printedLines (nodes : List Node) :
    List.intercalate ['\n'] ((printedLines nodes).map textOf) = print nodes := by
  unfold printedLines
  split
  · rw [print, List.map_singleton, textOf_cons, textOf_nil, List.append_nil]
    rfl
  · rw [print, map_textOf_lines]
  · rw [print, map_textOf_lines]
  · next hnil helement hcomponent =>
    rw [map_textOf_enclosed, map_textOf_lineList, print]
    · exact hnil
    · exact helement
    · exact hcomponent

end Viewloom.Template
