import Mathlib.Data.List.Basic
import Viewloom.Text.Basic

/-!
# Outlines

The outline of a page or a template is the shape of its elements. Some of them have a label, and the
labels are listed in pre-order, each with its place.
-/

namespace Viewloom

/-- A tree of which only some nodes have a label. -/
inductive Outline (α : Type) where
  | node (label : Option α) (children : List (Outline α))

/-- A label at a place, which is a path of positions among siblings. -/
structure Spot (α : Type) where
  place : List Nat
  value : α
  deriving DecidableEq, Repr

variable {α : Type}

namespace Spot

/-- A spot of the first of several trees. -/
def first (s : Spot α) : Spot α := ⟨0 :: s.place, s.value⟩

/-- A spot behind one more tree. -/
def next (s : Spot α) : Spot α := ⟨s.place.modifyHead (· + 1), s.value⟩

end Spot

namespace Outline

mutual

/-- The labels of a tree in pre-order. -/
def spots : Outline α → List (Spot α)
  | node label children => label.toList.map (Spot.mk []) ++ spotsAll children

def spotsAll : List (Outline α) → List (Spot α)
  | [] => []
  | t :: ts => (spots t).map Spot.first ++ (spotsAll ts).map Spot.next

end

/-- No place is that of the whole forest. -/
theorem place_ne_nil {ts : List (Outline α)} {s : Spot α} (h : s ∈ spotsAll ts) : s.place ≠ [] := by
  induction ts generalizing s with
  | nil => simp [spotsAll] at h
  | cons t ts ih =>
      simp only [spotsAll, List.mem_append, List.mem_map] at h
      rcases h with ⟨u, -, rfl⟩ | ⟨u, hu, rfl⟩
      · simp [Spot.first]
      · have hplace := ih hu
        cases hu' : u.place with
        | nil => exact absurd hu' hplace
        | cons i place => simp [Spot.next, hu']

theorem first_injective : Function.Injective (@Spot.first α) := by
  rintro ⟨p, v⟩ ⟨q, w⟩ h
  simpa [Spot.first] using h

/-- Whether a spot belongs to the first of several trees. -/
def isFirst (s : Spot α) : Bool := s.place.head? == some 0

theorem isFirst_next {ts : List (Outline α)} {s : Spot α} (h : s ∈ spotsAll ts) :
    isFirst s.next = false := by
  cases hs : s.place with
  | nil => exact absurd hs (place_ne_nil h)
  | cons i place => simp [isFirst, Spot.next, hs]

theorem next_injective : Function.Injective (@Spot.next α) := by
  rintro ⟨_ | ⟨i, p⟩, v⟩ ⟨_ | ⟨j, q⟩, w⟩ h <;> simp_all [Spot.next]

/-- Lists of labels come apart tree by tree. -/
theorem spotsAll_cons_eq_iff {t t' : Outline α} {ts ts' : List (Outline α)} :
    spotsAll (t :: ts) = spotsAll (t' :: ts') ↔ spots t = spots t' ∧ spotsAll ts = spotsAll ts' := by
  have hfilter : ∀ (t : Outline α) (ts : List (Outline α)),
      (spotsAll (t :: ts)).filter isFirst = (spots t).map Spot.first := by
    intro t ts
    have hfirst : ((spots t).map Spot.first).filter isFirst = (spots t).map Spot.first := by
      rw [List.filter_eq_self]
      intro s hs
      obtain ⟨u, -, rfl⟩ := List.mem_map.1 hs
      rfl
    have hnext : ((spotsAll ts).map Spot.next).filter isFirst = [] := by
      rw [List.filter_eq_nil_iff]
      intro s hs
      obtain ⟨u, hu, rfl⟩ := List.mem_map.1 hs
      simp [isFirst_next hu]
    rw [spotsAll, List.filter_append, hfirst, hnext, List.append_nil]
  constructor
  · intro h
    have hhead : (spots t).map Spot.first = (spots t').map Spot.first := by
      rw [← hfilter t ts, ← hfilter t' ts', h]
    rw [spotsAll, spotsAll, hhead] at h
    exact ⟨List.map_injective_iff.2 first_injective hhead,
      List.map_injective_iff.2 next_injective (List.append_cancel_left h)⟩
  · rintro ⟨h₁, h₂⟩
    rw [spotsAll, spotsAll, h₁, h₂]

/-- The label of a tree and the labels below it come apart. -/
theorem spots_eq_iff {label label' : Option α} {ts ts' : List (Outline α)} :
    spots (.node label ts) = spots (.node label' ts') ↔
      label = label' ∧ spotsAll ts = spotsAll ts' := by
  have hfilter : ∀ (label : Option α) (ts : List (Outline α)),
      (spots (.node label ts)).filter (fun s => s.place.isEmpty) =
        label.toList.map (Spot.mk []) := by
    intro label ts
    have hbelow : (spotsAll ts).filter (fun s => s.place.isEmpty) = [] := by
      rw [List.filter_eq_nil_iff]
      intro s hs
      simp [place_ne_nil hs]
    rw [spots, List.filter_append, hbelow, List.append_nil]
    cases label <;> rfl
  constructor
  · intro h
    have hlabel : label.toList.map (Spot.mk []) = label'.toList.map (Spot.mk []) := by
      rw [← hfilter label ts, ← hfilter label' ts', h]
    rw [spots, spots, hlabel] at h
    refine ⟨?_, List.append_cancel_left h⟩
    cases label <;> cases label' <;> simp_all
  · rintro ⟨rfl, h⟩
    rw [spots, spots, h]

/-- The labels of trees in pre-order, without their places. -/
def values (ts : List (Outline α)) : List α := (spotsAll ts).map Spot.value

@[simp]
theorem values_nil : values ([] : List (Outline α)) = [] := rfl

theorem values_cons (label : Option α) (children ts : List (Outline α)) :
    values (.node label children :: ts) = label.toList ++ values children ++ values ts := by
  simp [values, spotsAll, spots, Function.comp_def, Spot.first, Spot.next]

theorem values_append (ts us : List (Outline α)) : values (ts ++ us) = values ts ++ values us := by
  induction ts with
  | nil => rfl
  | cons t ts ih =>
      obtain ⟨label, children⟩ := t
      simp only [List.cons_append, values_cons, ih, List.append_assoc]

end Outline

end Viewloom
