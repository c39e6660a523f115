import Viewloom.Text.Basic

/-!
# Order of texts

Texts are compared by the code points of their first difference; a text stands before those that it
begins. Main statement: any two different texts are in order, and the order is transitive.
-/

namespace Viewloom.Text

/-- Whether a text stands before a different one. -/
def precedes : Text → Text → Bool
  | _, [] => false
  | [], _ :: _ => true
  | c :: s, d :: t => if c = d then precedes s t else decide (c.toNat < d.toNat)

/-- Texts are ordered by their first difference. -/
theorem precedes_cons_iff {c d : Char} {s t : Text} :
    precedes (c :: s) (d :: t) = true ↔ c.toNat < d.toNat ∨ c = d ∧ precedes s t = true := by
  by_cases h : c = d
  · subst h
    simp [precedes]
  · simp [precedes, h]

/-- The order of texts is transitive. -/
theorem precedes_trans {s t u : Text} (hst : precedes s t = true) (htu : precedes t u = true) :
    precedes s u = true := by
  induction s generalizing t u with
  | nil =>
    cases u with
    | nil => simp [precedes] at htu
    | cons e u => rfl
  | cons c s ih =>
    cases t with
    | nil => simp [precedes] at hst
    | cons d t =>
      cases u with
      | nil => simp [precedes] at htu
      | cons e u =>
        rw [precedes_cons_iff] at hst htu ⊢
        rcases hst with hcd | ⟨rfl, hst⟩
        · rcases htu with hde | ⟨rfl, _⟩
          · exact Or.inl (Nat.lt_trans hcd hde)
          · exact Or.inl hcd
        · rcases htu with hce | ⟨rfl, htu⟩
          · exact Or.inl hce
          · exact Or.inr ⟨rfl, ih hst htu⟩

/-- Of two texts that differ one stands before the other. -/
theorem precedes_of_ne {s t : Text} (hst : precedes s t = false) (h : s ≠ t) :
    precedes t s = true := by
  induction s generalizing t with
  | nil =>
    cases t with
    | nil => exact (h rfl).elim
    | cons d t => simp [precedes] at hst
  | cons c s ih =>
    cases t with
    | nil => rfl
    | cons d t =>
      rw [precedes_cons_iff]
      by_cases hcd : c = d
      · subst hcd
        refine Or.inr ⟨rfl, ih ?_ ?_⟩
        · simpa [precedes] using hst
        · simpa using h
      · have hne : c.toNat ≠ d.toNat := fun he => hcd (Char.toNat_inj.1 he)
        have hle : ¬ c.toNat < d.toNat := by simpa [precedes, hcd] using hst
        exact Or.inl (by omega)

end Viewloom.Text
