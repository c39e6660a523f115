import Viewloom.Proofs.Agreement

/-!
# Making directories that are there

If a path leads to a directory, so does every beginning of it. So making the directories along the path
changes nothing.
-/

namespace Viewloom.FileTree

variable {t : FileTree} {p gone : Path} {names place : List Text} {piece : Text}

/-! ## Lengths -/

theorem byteLength_append (s t : Text) : byteLength (s ++ t) = byteLength s + byteLength t := by
  induction s with
  | nil => simp [byteLength]
  | cons c s ih => rw [List.cons_append, byteLength, byteLength, ih, Nat.add_assoc]

/-- The bytes of pieces, each with a slash. -/
def piecesLength : List Text → Nat
  | [] => 0
  | piece :: pieces => byteLength piece + 1 + piecesLength pieces

/-- Fewer pieces are not longer. -/
theorem piecesLength_filter_le (test : Text → Bool) (pieces : List Text) :
    piecesLength (pieces.filter test) ≤ piecesLength pieces := by
  induction pieces with
  | nil => exact Nat.le_refl 0
  | cons piece pieces ih =>
      rw [List.filter_cons]
      split
      · exact Nat.add_le_add_left ih _
      · exact Nat.le_trans ih (Nat.le_add_left _ _)

/-- The pieces of a path, each with its separator, are as long as the path. -/
theorem piecesLength_splitOnP (p : Path) :
    piecesLength (List.splitOnP (· == '/') p) = byteLength p + 1 := by
  induction p with
  | nil => rfl
  | cons c p ih =>
      by_cases hc : c = '/'
      · subst hc
        have hsplit : List.splitOnP (· == '/') ('/' :: p) = [] :: List.splitOnP (· == '/') p := by
          rw [List.splitOnP_cons_eq_if_modifyHead, if_pos (by decide)]
        have hone : '/'.utf8Size = 1 := by decide
        rw [hsplit, piecesLength, ih, byteLength, byteLength, hone]
        omega
      · obtain ⟨piece, pieces, hsplit⟩ :=
          List.exists_cons_of_ne_nil (List.splitOnP_ne_nil (· == '/') p)
        rw [hsplit, piecesLength] at ih
        rw [List.splitOnP_cons_eq_if_modifyHead, if_neg (by simpa using hc), hsplit,
          List.modifyHead_cons, piecesLength, byteLength, byteLength]
        omega

/-- A path holds the bytes of its pieces, and those of a blank one at its beginning. -/
theorem piecesLength_of_blank {first : Text} {rest : List Text}
    (hsplit : List.splitOnP (· == '/') p = first :: rest) (hblank : first = [] ∨ first = ['.']) :
    byteLength first + 1 + piecesLength (Path.pieces p) ≤ byteLength p + 1 := by
  have hfilter : Path.pieces p = rest.filter fun s => s != [] && s != ['.'] := by
    rw [Path.pieces, hsplit, List.filter_cons_of_neg (by rcases hblank with rfl | rfl <;> simp)]
  rw [← piecesLength_splitOnP p, hsplit, piecesLength, hfilter]
  exact Nat.add_le_add_left (piecesLength_filter_le _ rest) _

/-- A path that is not refused is shorter than the limit. -/
theorem byteLength_lt_of_refuse (h : refuse p = none) : byteLength p < pathLimit := by
  rw [refuse, if_neg (by simpa using nul_not_mem_of_refuse h)] at h
  split at h
  · cases h
  split at h
  · cases h
  · next hlength => exact Nat.not_le.1 hlength

/-- A path behind a directory consists of both and the separator. -/
theorem mem_of_mem_join {base : Path} {c : Char} (h : c ∈ Path.join base p) :
    c ∈ base ∨ c = '/' ∨ c ∈ p := by
  rw [Path.join] at h
  split at h
  · exact .inr (.inr h)
  split at h
  · exact (List.mem_append.1 h).imp_right .inr
  · exact (List.mem_append.1 h).imp_right List.mem_cons.1

/-- The bytes in front of what is joined to a path. -/
def lengthBefore (gone : Path) : Nat := byteLength (Path.join gone [])

theorem byteLength_join (hslash : '/' ∉ piece) (gone : Path) :
    byteLength (Path.join gone piece) = lengthBefore gone + byteLength piece := by
  rw [join_eq_append hslash, byteLength_append, lengthBefore]

theorem lengthBefore_join (hne : piece ≠ []) (hslash : '/' ∉ piece) (gone : Path) :
    lengthBefore (Path.join gone piece) = byteLength (Path.join gone piece) + 1 := by
  have hlast := getLast?_join_ne hne hslash gone
  have hjoin : Path.join gone piece ≠ [] := by
    rw [join_eq_append hslash]
    simp [hne]
  have hone : '/'.utf8Size = 1 := by decide
  rw [lengthBefore, Path.join, if_neg (by simp [hjoin, Path.isAbsolute]), if_neg (by simpa using hlast),
    byteLength_append, byteLength, byteLength, hone]

/-! ## Making -/

/-- A path that leads to a place leads to no place that is still to be made. -/
theorem makeDirectory_ne_ok (hne : piece ≠ []) (hslash : '/' ∉ piece)
    (hlocate : t.locate (Path.join gone piece) = .ok place) (t' : FileTree) :
    t.makeDirectory (Path.join gone piece) ≠ .ok t' := by
  intro hmake
  obtain ⟨names, last, hnew, hisNew, hnone, -⟩ := makeDirectory_eq_ok hmake
  rw [dropWhileEnd_join hne hslash] at hnew
  obtain ⟨-, hwalk, -, hlast, -⟩ := locateNew_eq_ok_iff.1 hnew
  obtain ⟨before, hsteps, -⟩ := exists_steps_join gone
  rw [locate_eq_ok_iff, hsteps piece hslash] at hlocate
  rw [hsteps piece hslash, List.dropLast_concat] at hwalk
  rw [hsteps piece hslash, List.getLast?_concat, Option.getD_some] at hlast
  obtain ⟨middle, hmiddle, hone⟩ := walk_append_eq_ok_iff.1 hlocate.2
  obtain rfl := Except.ok.inj (hwalk.symm.trans hmiddle)
  subst hlast
  have hsome := ((walk_singleton_eq_ok_iff ⟨hisNew, hslash⟩).1 hone).2.2.1
  rw [hnone] at hsome
  cases hsome

/-- Making directories along a path that stands changes nothing. -/
theorem makeAlong_of_walk {pieces : List Text}
    (hpieces : ∀ piece ∈ pieces, piece ≠ [] ∧ '/' ∉ piece ∧ Char.ofNat 0 ∉ piece)
    (hgone : gone ≠ [] ∧ t.walk [] (steps gone) = .ok names ∨ gone = [] ∧ names = [])
    (hnul : Char.ofNat 0 ∉ gone) (hlength : lengthBefore gone + piecesLength pieces ≤ pathLimit)
    (hwalk : t.walk names pieces = .ok place) (hplace : t.entryAt? place = some .directory) :
    t.makeAlong gone pieces = .ok t := by
  -- The induction follows the pieces; the way that is gone grows and leads to a directory each time.
  induction pieces generalizing gone names with
  | nil => rfl
  | cons piece pieces ih =>
      rw [List.forall_mem_cons] at hpieces
      obtain ⟨⟨hne, hslash, hnul'⟩, hpieces⟩ := hpieces
      obtain ⟨before, hsteps, hbefore⟩ := exists_walk_before hgone
      rw [← List.singleton_append, walk_append_eq_ok_iff] at hwalk
      obtain ⟨middle, hone, hwalk⟩ := hwalk
      have hmiddle : t.entryAt? middle = some .directory := by
        cases pieces with
        | nil => exact Except.ok.inj hwalk ▸ hplace
        | cons next pieces => exact directory_of_walk hwalk (by simp)
      rw [piecesLength] at hlength
      have hbytes := byteLength_join hslash gone
      have hjoin : Path.join gone piece ≠ [] := by
        rw [join_eq_append hslash]
        simp [hne]
      have hnuljoin : Char.ofNat 0 ∉ Path.join gone piece := by
        intro hmem
        rcases mem_of_mem_join hmem with hmem | hmem | hmem
        · exact hnul hmem
        · exact absurd hmem (by decide)
        · exact hnul' hmem
      have hjoinwalk : t.walk [] (steps (Path.join gone piece)) = .ok middle := by
        rw [hsteps piece hslash]
        exact walk_append_eq_ok_iff.2 ⟨names, hbefore, hone⟩
      have hrefuse : refuse (Path.join gone piece) = none := by
        rw [refuse, if_neg (by simpa using hnuljoin), if_neg hjoin, if_neg (by omega)]
      have hlocate := locate_eq_ok_iff.2 ⟨hrefuse, hjoinwalk⟩
      rw [makeAlong]
      split
      · next t' hmake => exact absurd hmake (makeDirectory_ne_ok hne hslash hlocate t')
      · rw [if_pos (hasDirectory_iff.2 ⟨middle, hlocate, hmiddle⟩)]
        refine ih hpieces (.inl ⟨hjoin, hjoinwalk⟩) hnuljoin ?_ hwalk
        rw [lengthBefore_join hne hslash]
        omega

/-- Steps that lead nowhere can be left out. -/
theorem walk_filter {steps : List Text} (h : t.walk names steps = .ok place) :
    t.walk names (steps.filter fun s => s != [] && s != ['.']) = .ok place := by
  induction steps generalizing names with
  | nil => exact h
  | cons step steps ih =>
      rw [walk_cons_eq_ok_iff] at h
      by_cases hblank : step = [] ∨ step = ['.']
      · rw [if_pos hblank] at h
        rw [List.filter_cons_of_neg (by rcases hblank with rfl | rfl <;> simp)]
        exact ih h.2
      · rw [if_neg hblank] at h
        rw [List.filter_cons_of_pos (by simpa [not_or] using hblank), walk_cons_eq_ok_iff, if_neg hblank]
        refine ⟨h.1, ?_⟩
        split
        · next hparent =>
          rw [if_pos hparent] at h
          exact ih h.2
        · next hparent =>
          rw [if_neg hparent] at h
          exact ⟨h.2.1, h.2.2.1, ih h.2.2.2⟩

/-- Making a directory that is there changes nothing. -/
theorem makeDirectories_of_locate (h : t.locate p = .ok place)
    (hplace : t.entryAt? place = some .directory) : t.makeDirectories p = .ok t := by
  obtain ⟨hrefuse, hwalk⟩ := locate_eq_ok_iff.1 h
  have hbytes := byteLength_lt_of_refuse hrefuse
  have hpieces (piece : Text) (hpiece : piece ∈ Path.pieces p) :
      piece ≠ [] ∧ '/' ∉ piece ∧ Char.ofNat 0 ∉ piece := by
    obtain ⟨hne, hslash⟩ := slash_not_mem_of_mem_pieces hpiece
    refine ⟨hne, hslash, fun hnul => nul_not_mem_of_refuse hrefuse ?_⟩
    exact (Text.mem_of_mem_splitOnP (List.mem_of_mem_filter hpiece) hnul).1
  have hrest : t.walk [] (Path.pieces p) = .ok place := pieces_eq_filter_steps p ▸ walk_filter hwalk
  have htop : t.entryAt? [] = some .directory := by
    cases hsteps : steps p with
    | nil =>
        rw [hsteps] at hwalk
        exact Except.ok.inj hwalk ▸ hplace
    | cons step more => exact directory_of_walk (hsteps ▸ hwalk) (by simp)
  have hzero : lengthBefore [] = 0 := rfl
  rw [makeDirectories, hrefuse, map_toText_components]
  split
  · rfl
  simp only
  -- The way begins at the root, at a point, or at the first piece of the path.
  split
  · next habsolute =>
    obtain ⟨rest, hsplit⟩ := exists_splitOnP_of_isAbsolute habsolute
    have hlength := piecesLength_of_blank hsplit (.inl rfl)
    have hlocate : t.locate ['/'] = .ok [] :=
      locate_eq_ok_iff.2 ⟨by decide, walk_cons_eq_ok_iff.2 ⟨htop, rfl⟩⟩
    have hone : lengthBefore ['/'] = 1 := by decide
    rw [List.singleton_append, makeAlong_root, if_pos (hasDirectory_iff.2 ⟨[], hlocate, htop⟩)]
    refine makeAlong_of_walk hpieces (.inl ⟨by decide, (locate_eq_ok_iff.1 hlocate).2⟩) (by decide) ?_
      hrest hplace
    rw [byteLength] at hlength
    omega
  split
  · next hpoint =>
    obtain ⟨rest, hsplit⟩ : ∃ rest, List.splitOnP (· == '/') p = ['.'] :: rest := by
      rw [Path.startsWithPoint, beq_iff_eq] at hpoint
      exact List.head?_eq_some_iff.1 hpoint
    have hlength := piecesLength_of_blank hsplit (.inr rfl)
    refine makeAlong_of_walk ?_ (.inr ⟨rfl, rfl⟩) (by simp) ?_ ?_ hplace
    · rw [List.singleton_append, List.forall_mem_cons]
      exact ⟨by decide, hpieces⟩
    · rw [List.singleton_append, piecesLength]
      omega
    · rw [List.singleton_append, walk_cons_eq_ok_iff, if_pos (.inr rfl)]
      exact ⟨htop, hrest⟩
  · have hlength : piecesLength (Path.pieces p) ≤ byteLength p + 1 :=
      piecesLength_splitOnP p ▸ piecesLength_filter_le _ _
    refine makeAlong_of_walk hpieces (.inr ⟨rfl, rfl⟩) (by simp) ?_ hrest hplace
    change lengthBefore [] + piecesLength (Path.pieces p) ≤ pathLimit
    omega

end Viewloom.FileTree
