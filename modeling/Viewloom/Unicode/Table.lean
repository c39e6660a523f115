/-!
# Tables of code points

A character property is an ascending list of ranges. A search stops at the first range that begins
behind the code point.
-/

namespace Viewloom.Unicode

/-- Membership in an ascending list of ranges, both ends included. -/
def inRanges : List (Nat × Nat) → Nat → Bool
  | [], _ => false
  | (first, last) :: ranges, n =>
    if n < first then false else if n ≤ last then true else inRanges ranges n

/-- Membership in an ascending list of runs: first, last, distance of neighbours. -/
def inRuns : List (Nat × Nat × Nat) → Nat → Bool
  | [], _ => false
  | (first, last, step) :: runs, n =>
    if n < first then false
    else if n ≤ last then (n - first) % step == 0
    else inRuns runs n

/-- The distance that the run of a code point assigns to it. -/
def shiftOf : List (Nat × Nat × Nat × Int) → Nat → Option Int
  | [], _ => none
  | (first, last, step, shift) :: runs, n =>
    if n < first then none
    else if n ≤ last then if (n - first) % step == 0 then some shift else none
    else shiftOf runs n

/-- A code point in some ranges is in one of them. -/
theorem exists_range_of_inRanges {ranges : List (Nat × Nat)} {n : Nat}
    (h : inRanges ranges n = true) : ∃ r ∈ ranges, r.1 ≤ n ∧ n ≤ r.2 := by
  induction ranges with
  | nil => simp [inRanges] at h
  | cons r ranges ih =>
    obtain ⟨first, last⟩ := r
    simp only [inRanges] at h
    split at h
    · simp at h
    · split at h
      · exact ⟨(first, last), by simp, by simp; omega⟩
      · obtain ⟨r, hr, hn⟩ := ih h
        exact ⟨r, by simp [hr], hn⟩

end Viewloom.Unicode
