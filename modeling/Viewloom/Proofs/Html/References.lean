import Mathlib.Data.List.Infix
import Viewloom.Html.CharRef

/-!
# Written references

The references that stand for the characters of markup are read as these characters, whatever follows
them.
-/

namespace Viewloom.Html

variable {letter : Char} {name value : Text}

/-- Whether one of two texts begins the other. -/
def areNested (s t : Text) : Bool := t.isPrefixOf s || s.isPrefixOf t

/-- A name that may be written with or without a semicolon, and that no other name of the table begins
or goes on from behind the semicolon. -/
structure IsEntity (letter : Char) (name value : Text) : Prop where
  alpha : letter.isAlpha = true
  nested : (entitiesOf letter).filter (fun entity => areNested entity.1 (name ++ [';'])) =
    [(name, value), (name ++ [';'], value)]

/-- Where a name begins a text, it and any beginning of the text are nested. -/
theorem areNested_of_isPrefixOf {s t rest : Text} (h : s.isPrefixOf (t ++ rest) = true) :
    areNested s t = true := by
  rw [ List.isPrefixOf_iff_prefix] at h
  rw [areNested, Bool.or_eq_true, List.isPrefixOf_iff_prefix, List.isPrefixOf_iff_prefix]
  exact (List.prefix_or_prefix_of_prefix h (List.prefix_append t rest)).symm

/-- A known name with its semicolon is read in full, whatever follows. -/
theorem IsEntity.longestName_eq (h : IsEntity letter name value) (rest : Text) :
    longestName (letter :: (name ++ ';' :: rest)) = some (letter :: (name ++ [';']), value) := by
  have hrest : name ++ ';' :: rest = (name ++ [';']) ++ rest := by simp
  have hfilter : (entitiesOf letter).filter
      (fun entity => entity.1.isPrefixOf (name ++ ';' :: rest)) =
        [(name, value), (name ++ [';'], value)] := by
    have hsub : ∀ entity : Text × Text, (entity.1.isPrefixOf (name ++ ';' :: rest) &&
        areNested entity.1 (name ++ [';'])) = entity.1.isPrefixOf (name ++ ';' :: rest) := by
      intro entity
      cases hstarts : entity.1.isPrefixOf (name ++ ';' :: rest) with
      | false => rfl
      | true => exact areNested_of_isPrefixOf (hrest ▸ hstarts)
    have hname : name.isPrefixOf (name ++ ';' :: rest) = true :=
      List.isPrefixOf_iff_prefix.2 (List.prefix_append ..)
    have hclosed : (name ++ [';']).isPrefixOf (name ++ ';' :: rest) = true := by
      rw [hrest]
      exact List.isPrefixOf_iff_prefix.2 (List.prefix_append ..)
    rw [← List.filter_congr fun entity _ => hsub entity, ← List.filter_filter, h.nested]
    simp [hname, hclosed]
  have hlonger : name.length < (name ++ [';']).length := by simp
  rw [longestName, if_pos h.alpha, hfilter]
  simp only [List.foldl_cons, List.foldl_nil, longerName, if_pos hlonger, Option.map_some]

/-- A reference that ends in a semicolon is read in texts and in attribute values alike. -/
theorem IsEntity.charReference_eq (h : IsEntity letter name value) (inAttribute : Bool)
    (rest : Text) :
    charReference inAttribute (letter :: (name ++ ';' :: rest)) = some (value, name.length + 2) := by
  have hne : letter ≠ '#' := by
    rintro rfl
    exact absurd h.alpha (by decide)
  have hnamed : charReference inAttribute (letter :: (name ++ ';' :: rest)) =
      namedReference inAttribute (letter :: (name ++ ';' :: rest)) := by
    unfold charReference
    split
    · next heq => exact absurd (List.cons.inj heq).1 hne
    · next heq => exact absurd (List.cons.inj heq).1 hne
    · next heq => exact absurd (List.cons.inj heq).1 hne
    · rfl
  have hlast : (letter :: (name ++ [';'])).getLast? = some ';' := by
    rw [← List.cons_append]
    exact List.getLast?_concat
  rw [hnamed, namedReference, h.longestName_eq]
  simp [hlast]

theorem isEntity_amp : IsEntity 'a' (text "mp") ['&'] := ⟨by decide, by decide +kernel⟩

theorem isEntity_lt : IsEntity 'l' (text "t") ['<'] := ⟨by decide, by decide +kernel⟩

theorem isEntity_gt : IsEntity 'g' (text "t") ['>'] := ⟨by decide, by decide +kernel⟩

theorem isEntity_quot : IsEntity 'q' (text "uot") ['"'] := ⟨by decide, by decide +kernel⟩

end Viewloom.Html
