import Viewloom.Text.Order

/-!
# Sorted maps

Values under text keys, in ascending order of their keys, each key once. The order is that of code
points.
-/

namespace Viewloom

namespace SortedMap

variable {α : Type}

/-- Inserts an entry before the greater ones, in place of one of its own key. -/
def insertEntry (key : Text) (value : α) : List (Text × α) → List (Text × α)
  | [] => [(key, value)]
  | (k, v) :: entries =>
    if Text.precedes key k then (key, value) :: (k, v) :: entries
    else if key = k then (key, value) :: entries
    else (k, v) :: insertEntry key value entries

/-- Whether every key stands in front of greater ones only. -/
def IsSorted (entries : List (Text × α)) : Prop := entries.Pairwise fun a b => Text.precedes a.1 b.1 = true

/-- Inserting an entry adds no other. -/
theorem mem_insertEntry {key : Text} {value : α} {entry : Text × α} {entries : List (Text × α)}
    (h : entry ∈ insertEntry key value entries) : entry = (key, value) ∨ entry ∈ entries := by
  induction entries with
  | nil => simpa [insertEntry] using h
  | cons e entries ih =>
    obtain ⟨k, v⟩ := e
    simp only [insertEntry] at h
    split at h
    · simpa using h
    · split at h
      · simp only [List.mem_cons] at h ⊢
        exact h.imp id Or.inr
      · simp only [List.mem_cons] at h ⊢
        rcases h with h | h
        · exact Or.inr (Or.inl h)
        · exact (ih h).imp id Or.inr

/-- Inserting an entry keeps the keys in order. -/
theorem isSorted_insertEntry {key : Text} {value : α} {entries : List (Text × α)}
    (h : IsSorted entries) : IsSorted (insertEntry key value entries) := by
  induction entries with
  | nil => simp [insertEntry, IsSorted]
  | cons e entries ih =>
    obtain ⟨k, v⟩ := e
    simp only [IsSorted, List.pairwise_cons] at h
    simp only [insertEntry]
    split
    · next hlt =>
      refine List.pairwise_cons.2 ⟨fun a ha => ?_, List.pairwise_cons.2 h⟩
      rcases List.mem_cons.1 ha with rfl | ha
      · exact hlt
      · exact Text.precedes_trans hlt (h.1 a ha)
    · split
      · next heq =>
        subst heq
        exact List.pairwise_cons.2 h
      · next hlt hne =>
        refine List.pairwise_cons.2 ⟨fun a ha => ?_, ih h.2⟩
        rcases mem_insertEntry ha with rfl | ha
        · exact Text.precedes_of_ne (by simpa using hlt) hne
        · exact h.1 a ha

end SortedMap

/-- A map whose entries stand in the order of their keys, each once. -/
structure SortedMap (α : Type) where
  entries : List (Text × α)
  isSorted : SortedMap.IsSorted entries

namespace SortedMap

variable {α : Type}

def empty : SortedMap α := ⟨[], List.Pairwise.nil⟩

/-- Adds an entry, in the place of one with the same key. -/
def insert (m : SortedMap α) (key : Text) (value : α) : SortedMap α :=
  ⟨insertEntry key value m.entries, isSorted_insertEntry m.isSorted⟩

/-- Of several values for one key the last one stays. -/
def ofList (entries : List (Text × α)) : SortedMap α :=
  entries.foldl (fun m entry => m.insert entry.1 entry.2) empty

/-- The value of the first entry with a key. -/
def findEntry (key : Text) : List (Text × α) → Option α
  | [] => none
  | (k, v) :: entries => if key = k then some v else findEntry key entries

def get? (m : SortedMap α) (key : Text) : Option α := findEntry key m.entries

def contains (m : SortedMap α) (key : Text) : Bool := (m.get? key).isSome

/-- An inserted entry is found by its key and hides no other. -/
theorem findEntry_insertEntry (key k : Text) (value : α) (entries : List (Text × α)) :
    findEntry k (insertEntry key value entries) =
      if k = key then some value else findEntry k entries := by
  induction entries with
  | nil => simp [insertEntry, findEntry]
  | cons e entries ih =>
    obtain ⟨k', v⟩ := e
    simp only [insertEntry]
    split
    · simp [findEntry]
    · split
      · next heq =>
        subst heq
        by_cases h : k = key <;> simp [findEntry, h]
      · next hne =>
        by_cases h : k = k'
        · subst h
          simp [findEntry, Ne.symm hne]
        · simp [findEntry, h, ih]

/-- Inserting a value changes what is found for its key, and nothing else. -/
@[simp]
theorem get?_insert (m : SortedMap α) (key k : Text) (value : α) :
    (m.insert key value).get? k = if k = key then some value else m.get? k :=
  findEntry_insertEntry key k value m.entries

end SortedMap

end Viewloom
