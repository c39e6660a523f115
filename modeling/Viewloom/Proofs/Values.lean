import Viewloom.Proofs.Emission

/-!
# Values of emitted attributes

A value of an attribute is escaped and printed in quotes, and then all lines of the printed template are
indented, also those in values. So a value is read back as it was exactly if it holds no line end.
-/

namespace Viewloom

namespace Script

variable {reference : Text → Option Text} {width : Nat} {s : Text}

/-! ## References to characters -/

/-- The name of the reference that begins with a character, and what it stands for. -/
def referenceAt (reference : Text → Option Text) (d : Char) (s : Text) : Option (Text × Text) :=
  if d = '&' then
    (Text.splitOnce [';'] s).bind fun found =>
      (reference found.1).map fun value => (found.1, value)
  else none

/-- Replaces the references in a text behind some characters that are passed over. -/
def decodeBehind (reference : Text → Option Text) : Nat → Text → Text
  | _, [] => []
  | n + 1, _ :: s => decodeBehind reference n s
  | 0, d :: s =>
    match referenceAt reference d s with
    | some (name, value) => value ++ decodeBehind reference (name.length + 1) s
    | none => d :: decodeBehind reference 0 s

/-- Replaces the references in a text by what they stand for. What is no reference stays. -/
def decode (reference : Text → Option Text) (s : Text) : Text := decodeBehind reference 0 s

/-- What is behind a reference is decoded from there. -/
theorem decodeBehind_append (reference : Text → Option Text) (name s : Text) :
    decodeBehind reference name.length (name ++ s) = decode reference s := by
  induction name with
  | nil => rfl
  | cons d name ih => exact ih

/-- A reference is replaced by what it stands for. -/
theorem decode_reference {name value : Text} (hname : reference name = some value)
    (hsplit : Text.splitOnce [';'] (name ++ ';' :: s) = some (name, s)) :
    decode reference ('&' :: (name ++ ';' :: s)) = value ++ decode reference s := by
  have hreference : referenceAt reference '&' (name ++ ';' :: s) = some (name, value) := by
    simp [referenceAt, hsplit, hname]
  have hbehind := decodeBehind_append reference (name ++ [';']) s
  rw [List.length_append, List.append_assoc] at hbehind
  rw [decode, decodeBehind, hreference]
  exact congrArg (value ++ ·) hbehind

/-- An escaped character is decoded to the character. -/
theorem decode_escapeAttributeChar (hamp : reference (text "amp") = some ['&'])
    (hquot : reference (text "quot") = some ['"']) (d : Char) (s : Text) :
    decode reference (Markup.escapeAttributeChar d ++ s) = d :: decode reference s := by
  unfold Markup.escapeAttributeChar
  split
  · next hd =>
      rw [hd]
      exact decode_reference hamp rfl
  split
  · next hd =>
      rw [hd]
      exact decode_reference hquot rfl
  · next hd _ =>
      have hreference : referenceAt reference d s = none := if_neg hd
      rw [List.singleton_append, decode, decodeBehind, hreference]
      rfl

/-- An escaped value stands for the value. -/
theorem decode_escapeAttribute (hamp : reference (text "amp") = some ['&'])
    (hquot : reference (text "quot") = some ['"']) (value : Text) :
    decode reference (Markup.escapeAttribute value) = value := by
  induction value with
  | nil => rfl
  | cons d value ih => rw [escapeAttribute_cons, decode_escapeAttributeChar hamp hquot, ih]

/-- What a quoted value stands for. -/
def unquote (reference : Text → Option Text) (source : Text) : Text :=
  decode reference (source.drop 1).dropLast

/-- A value between quotes is decoded without them. -/
theorem unquote_inQuotes (value : Text) :
    unquote reference (inQuotes value) = decode reference value := by
  rw [unquote, inQuotes, List.drop_one, List.tail_cons, List.dropLast_concat]

/-- The values of the attributes in a script that are written in quotes, in the order of the script. -/
def Tree.attributeValues (reference : Text → Option Text) (t : Tree) : List Text :=
  t.quotes.map (unquote reference)

/-! ## Values that stay as they are -/

theorem mem_of_beginsBreak (h : beginsBreak s = true) : '\n' ∈ s := by
  cases s with
  | nil => cases h
  | cons d s =>
      simp only [beginsBreak, Bool.or_eq_true, Bool.and_eq_true, beq_iff_eq] at h
      rcases h with rfl | ⟨-, hs⟩
      · exact List.mem_cons_self
      · exact List.mem_cons_of_mem d (List.mem_of_head? hs)

/-- A text without line breaks hangs as it is. -/
theorem hang_eq_self (hs : '\n' ∉ s) : hang width s = s := by
  induction s with
  | nil => rfl
  | cons d s ih =>
      rw [List.mem_cons, not_or] at hs
      rw [hang_other (Ne.symm hs.1) fun _ hhead => hs.2 (List.mem_of_head? hhead), ih hs.2]

/-- The blanks of a text stay, and there are more of them if a line ends in the text. -/
theorem count_le_count_hang (hwidth : width ≠ 0) (s : Text) :
    s.count ' ' ≤ (hang width s).count ' ' ∧
      ('\n' ∈ s → s.count ' ' < (hang width s).count ' ') := by
  induction s with
  | nil => exact ⟨Nat.le_refl 0, fun h => by cases h⟩
  | cons d s ih =>
      by_cases hnewline : d = '\n'
      · subst hnewline
        have hmore : s.count ' ' < (hang width ('\n' :: s)).count ' ' := by
          rw [hang_newline, List.count_cons_of_ne (by decide), List.count_append]
          by_cases hs : '\n' ∈ s
          · exact Nat.lt_add_left _ (ih.2 hs)
          · have hblanks : hangingBlanks width s = List.replicate width ' ' :=
              if_neg fun h => hs (mem_of_beginsBreak h)
            rw [hblanks, List.count_replicate_self]
            have hcount := ih.1
            omega
        have hhere : ('\n' :: s).count ' ' = s.count ' ' := List.count_cons_of_ne (by decide)
        rw [hhere]
        exact ⟨Nat.le_of_lt hmore, fun _ => hmore⟩
      by_cases hreturn : d = '\r' ∧ s.head? = some '\n'
      · obtain ⟨rfl, hs⟩ := hreturn
        rw [hang_return hs, List.count_cons_of_ne (by decide)]
        exact ⟨ih.1, fun _ => ih.2 (List.mem_of_head? hs)⟩
      · rw [hang_other hnewline fun heq hs => hreturn ⟨heq, hs⟩, List.count_cons, List.count_cons]
        refine ⟨Nat.add_le_add_right ih.1 _, fun h => Nat.add_lt_add_right (ih.2 ?_) _⟩
        exact (List.mem_cons.1 h).resolve_left (Ne.symm hnewline)

/-- A text is laid out as it is exactly if no line ends in it. -/
theorem hang_eq_self_iff (hwidth : width ≠ 0) : hang width s = s ↔ '\n' ∉ s := by
  refine ⟨fun heq hs => ?_, hang_eq_self⟩
  have hmore := (count_le_count_hang hwidth s).2 hs
  rw [heq] at hmore
  exact Nat.lt_irrefl _ hmore

end Script

namespace Module

open Script (WritesSoundly hang)
open Template.Node (staticValues)

variable {label source : Text} {v d : View} {reference : Text → Option Text}

/-- The attributes in quotes of a module that is accepted hold the static values of the template in order,
laid out with the lines of the template. So they are those values exactly if no line ends in one. -/
theorem attributeValues_compose (h : View.compile label source = .ok v) (hd : d ∈ v.descendants)
    (hsound : WritesSoundly false d) (directory : Text)
    (hcheck : check d.className (compose d directory) = .ok ())
    (hamp : reference (text "amp") = some ['&']) (hquot : reference (text "quot") = some ['"']) :
    ∃ t, treeOf d.className (compose d directory) = .ok t ∧
      t.attributeValues reference = (staticValues d.nodes).map (hang 6) ∧
      (t.attributeValues reference = staticValues d.nodes ↔
        ∀ value ∈ staticValues d.nodes, '\n' ∉ value) := by
  have htells := Script.tells_compose (View.isNamed_of_mem_descendants h hd) hsound directory
  unfold Script.Tells at htells
  unfold check at hcheck
  cases htree : treeOf d.className (compose d directory) with
  | error e => simp [htree] at hcheck
  | ok t =>
      have hparse : Script.parse (compose d directory) = some t := by
        unfold treeOf at htree
        split at htree
        · next ht => rw [ht, Except.ok.inj htree]
        · cases htree
      simp only [hparse] at htells
      have hvalues : t.attributeValues reference = (staticValues d.nodes).map (hang 6) := by
        rw [Script.Tree.attributeValues, htells.quotes, Script.sources_mentions, List.map_map]
        apply List.map_congr_left
        intro value _
        rw [Function.comp_apply, Script.unquote_inQuotes, Script.decode_escapeAttribute hamp hquot]
      have hself : (staticValues d.nodes).map (hang 6) = (staticValues d.nodes).map id ↔
          ∀ value ∈ staticValues d.nodes, hang 6 value = value := List.map_inj_left
      rw [List.map_id] at hself
      refine ⟨t, rfl, hvalues, ?_⟩
      simp only [hvalues, hself, Script.hang_eq_self_iff (show 6 ≠ 0 by decide)]

/-- A page with a quotation mark, a reference and a line end in the values of its attributes. -/
def titledPage : Text :=
  text "<main title='a\nb' lang='\x26quot;\x26'><p class='c' af-sock='s' id='e'>f</p></main>"

/-- The references to the signs that are escaped, and some others. -/
def signReference (name : Text) : Option Text :=
  List.lookup name [(text "amp", ['&']), (text "quot", ['"']), (text "lt", ['<']), (text "gt", ['>'])]

/-- The line end in a title is followed by the blanks of its line in the module, and the other values are as
they were. -/
theorem attributeValues_compose_titledPage : ∃ v, View.compile (text "page") titledPage = .ok v ∧
    ∀ d ∈ v.descendants, ∃ t, treeOf d.className (compose d (text "./c/")) = .ok t ∧
      t.attributeValues signReference =
        [text "a\n      b", ['"', '&'], text "__af-c", ['e']] := by
  have hall : (View.compile (text "page") titledPage).toOption.any (fun v => decide
      (∀ d ∈ v.descendants, WritesSoundly true d ∧ (staticValues d.nodes).map (hang 6) =
        [text "a\n      b", ['"', '&'], text "__af-c", ['e']])) = true := by decide +kernel
  obtain ⟨v, hv, hall⟩ := exists_of_any hall
  refine ⟨v, hv, fun d hd => ?_⟩
  obtain ⟨hsound, hvalues⟩ := hall d hd
  have hscript := Script.isScript_compose (View.isNamed_of_mem_descendants hv hd) hsound (text "./c/")
  have hamp : signReference (text "amp") = some ['&'] := rfl
  have hquot : signReference (text "quot") = some ['"'] := rfl
  obtain ⟨t, ht, hread, -⟩ := attributeValues_compose hv hd hsound.of_true _ hscript.check_eq hamp hquot
  exact ⟨t, ht, hread.trans hvalues⟩

end Module

end Viewloom
