import Viewloom.Proofs.Forest
import Viewloom.Proofs.Html.Attributes

/-!
# Attributes of one name

Of two attributes of one name a tag keeps the first, and construction adds only names that an element
does not have yet. So no name is repeated, unless foreign content spells it differently.
-/

namespace Viewloom

namespace Attribute

variable {name : Text} {attributes : List Attribute}

/-- At most one attribute has a name. -/
def Unrepeated (name : Text) (attributes : List Attribute) : Prop :=
  attributes.countP (fun a => a.name == name) ≤ 1

theorem Unrepeated.sublist (h : Unrepeated name attributes) {attributes' : List Attribute}
    (hsub : attributes'.Sublist attributes) : Unrepeated name attributes' :=
  Nat.le_trans hsub.countP_le h

theorem countP_eq_zero_iff :
    attributes.countP (fun a => a.name == name) = 0 ↔ get? name attributes = none := by
  simp [List.countP_eq_zero, get?_eq_none_iff]

/-- Erasing the only attribute of a name leaves none. -/
theorem Unrepeated.get?_erase (h : Unrepeated name attributes) :
    get? name (erase name attributes) = none := by
  induction attributes with
  | nil => rfl
  | cons a as ih =>
      rw [Unrepeated, List.countP_cons] at h
      by_cases ha : a.name = name
      · rw [erase, if_pos ha, ← countP_eq_zero_iff]
        simp only [ha, beq_self_eq_true, if_true] at h
        omega
      · rw [erase, if_neg ha, get?, if_neg ha]
        exact ih (by simpa [Unrepeated, ha] using h)

theorem unrepeated_congr {attributes' : List Attribute}
    (h : attributes'.map Attribute.name = attributes.map Attribute.name) :
    Unrepeated name attributes' ↔ Unrepeated name attributes := by
  have hcount : ∀ as : List Attribute,
      as.countP (fun a => a.name == name) = (as.map Attribute.name).countP (· == name) := by
    intro as
    rw [List.countP_map]
    rfl
  rw [Unrepeated, Unrepeated, hcount, hcount, h]

/-- Scoping does not repeat an attribute. -/
theorem Unrepeated.scope (h : Unrepeated name attributes) :
    Unrepeated name (Markup.scopeAttributes attributes) := by
  unfold Markup.scopeAttributes
  split
  · next value hvalue =>
    exact (unrepeated_congr (map_name_set (by simp [has, hvalue]))).2 h
  · exact h

end Attribute

namespace Html

open Attribute (Unrepeated)

/-- No name is changed into one that a table does not hold. -/
theorem countP_adjustAttributes {table : List (Text × Text)} {name : Text}
    (h : ∀ entry ∈ table, entry.2 ≠ name) (attributes : List Attribute) :
    (adjustAttributes table attributes).countP (fun a => a.name == name) ≤
      attributes.countP (fun a => a.name == name) := by
  rw [adjustAttributes, List.countP_map]
  refine List.countP_mono_left fun a _ ha => ?_
  cases hlookup : table.lookup a.name with
  | none => simpa [hlookup] using ha
  | some adjusted =>
      obtain ⟨l₁, l₂, rfl, -⟩ := List.lookup_eq_some_iff.1 hlookup
      have hne : adjusted ≠ name := h (a.name, adjusted) (by simp)
      simp [hlookup, hne] at ha

/-- Attributes of a name that foreign content does not spell differently stay apart. -/
theorem admits_unrepeated (name : Text)
    (hspace : ∀ entry ∈ spaceAttributes ++ svgAttributes ++ mathAttributes, entry.2 ≠ name) :
    Admits (Unrepeated name) where
  nil := by simp [Unrepeated]
  cons a attributes h := by
    rw [Unrepeated, consAttribute, List.countP_cons]
    by_cases ha : a.name = name
    · have hfilter : (attributes.filter fun b => b.name != a.name).countP
          (fun b => b.name == name) = 0 := by
        simp [List.countP_eq_zero, ha]
      rw [hfilter]
      split <;> omega
    · have hfilter := (List.filter_sublist (p := fun b => b.name != a.name)
        (l := attributes)).countP_le (p := fun b => b.name == name)
      simpa [ha] using Nat.le_trans hfilter h
  missing {attributes more} h hmore := by
    rw [Unrepeated, List.countP_append]
    by_cases hhas : Attribute.get? name attributes = none
    · rw [Attribute.countP_eq_zero_iff.2 hhas, Nat.zero_add]
      exact Nat.le_trans List.filter_sublist.countP_le hmore
    · have hmissing : (more.filter fun a => !Attribute.has a.name attributes).countP
          (fun a => a.name == name) = 0 := by
        simp only [List.countP_eq_zero, List.mem_filter, Bool.not_eq_true', beq_iff_eq]
        rintro a ⟨-, ha⟩ rfl
        exact hhas (by simpa [Attribute.has] using ha)
      rw [hmissing]
      exact h
  foreign space attributes h := by
    cases space with
    | html => exact h
    | svg =>
        refine Nat.le_trans (countP_adjustAttributes (fun entry hentry => hspace entry ?_) _) h
        exact List.mem_append_left _ hentry
    | mathml =>
        refine Nat.le_trans (countP_adjustAttributes (fun entry hentry => hspace entry ?_) _) h
        rcases List.mem_append.1 hentry with hentry | hentry
        · exact List.mem_append_left _ (List.mem_append_left _ hentry)
        · exact List.mem_append_right _ hentry

end Html

end Viewloom
