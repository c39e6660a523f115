import Viewloom.Proofs.Trees

/-!
# Operations on trees that agree

Two trees that differ in some files are walked alike along a path that does not lead through one of these
files. So whatever is written or made there has one outcome in both, and they still agree.
-/

namespace Viewloom.FileTree

variable {t t' : FileTree} {p base : Path} {names place : List Text} {places : Set (List Text)}

/-! ## Operations by places -/

/-- A path leads on step by step, and what it does at a step depends on the entry it has come to. -/
theorem walk_cons (t : FileTree) (names : List Text) (step : Text) (more : List Text) :
    walk t names (step :: more) =
      match t.entryAt? names with
      | some .directory =>
        if step = [] ∨ step = ['.'] then walk t names more
        else if step = text ".." then walk t names.dropLast more
        else if nameLimit < byteLength step then .error .nameTooLong
        else if (t.entryAt? (names ++ [step])).isSome then walk t (names ++ [step]) more
        else .error .notFound
      | some (.file _) => .error .notDirectory
      | none => .error .notFound := by
  rw [walk, entryAt?]
  cases hat : t.at? names with
  | none => rfl
  | some u =>
      cases u with
      | file content => rfl
      | directory entries =>
          rw [entryAt?_append, hat, Option.bind_some, entryAt?_directory_cons]
          simp only [Option.map_some, entry]
          cases findEntry step entries <;> simp

/-- Where something new is put depends on the way in front of the last step only. -/
theorem locateNew_eq (t : FileTree) (p : Path) :
    t.locateNew p =
      match refuse p, walk t [] (steps p).dropLast with
      | some cause, _ => .error cause
      | none, .error cause => .error cause
      | none, .ok names =>
        if t.entryAt? names = some .directory then
          if nameLimit < byteLength ((steps p).getLast?.getD []) then .error .nameTooLong
          else .ok (names, (steps p).getLast?.getD [])
        else .error .notDirectory := by
  rw [locateNew]
  cases refuse p with
  | some cause => rfl
  | none =>
      cases walk t [] (steps p).dropLast with
      | error cause => rfl
      | ok names =>
          simp only
          cases hat : t.at? names with
          | none => simp [entryAt?, hat]
          | some u => cases u <;> simp [entryAt?, hat, entry]

/-- Whether a file is written depends on its place and on what stands there. -/
theorem write_eq (t : FileTree) (p : Path) (content : Option Text) :
    t.write p content =
      match t.locateNew p with
      | .error cause => .error cause
      | .ok (names, last) =>
        if isNew last = false then .error .isDirectory
        else if t.entryAt? (names ++ [last]) = some .directory then .error .isDirectory
        else .ok (t.modify (putEntry last (file content)) names) := by
  rw [write]
  cases t.locateNew p with
  | error cause => rfl
  | ok found =>
      obtain ⟨names, last⟩ := found
      simp only
      cases hat : t.at? (names ++ [last]) with
      | none => simp [entryAt?, hat]
      | some u => cases u <;> simp [entryAt?, hat, entry]

/-- Whether a directory is made depends on its place and on what stands there. -/
theorem makeDirectory_eq (t : FileTree) (p : Path) :
    t.makeDirectory p =
      match t.locateNew (Text.dropWhileEnd (· == '/') p) with
      | .error cause => .error cause
      | .ok (names, last) =>
        if isNew last = false then .error .alreadyExists
        else if (t.entryAt? (names ++ [last])).isSome then .error .alreadyExists
        else .ok (t.modify (putEntry last empty) names) := by
  rw [makeDirectory]
  cases t.locateNew (Text.dropWhileEnd (· == '/') p) with
  | error cause => rfl
  | ok found =>
      obtain ⟨names, last⟩ := found
      simp only
      cases hat : t.at? (names ++ [last]) <;> simp [entryAt?, hat]

/-- A path leads to a directory exactly if its place holds one. -/
theorem hasDirectory_iff :
    t.hasDirectory p = true ↔ ∃ place, t.locate p = .ok place ∧ t.entryAt? place = some .directory := by
  rw [hasDirectory, look]
  cases t.locate p with
  | error cause => simp
  | ok place =>
      cases hat : t.at? place with
      | none => simp [entryAt?, hat]
      | some u => cases u <;> simp [entryAt?, hat, isDirectory, entry]

/-! ## Where steps lead -/

/-- Where a step leads on, if it can be gone. -/
def advance (names : List Text) (step : Text) : List Text :=
  if step = [] ∨ step = ['.'] then names else if step = text ".." then names.dropLast else names ++ [step]

/-- Where steps lead, if they can be gone. -/
def trail (names steps : List Text) : List Text := steps.foldl advance names

theorem trail_append (names steps more : List Text) :
    trail names (steps ++ more) = trail (trail names steps) more := List.foldl_append

theorem advance_of_isNew {step : Text} (h : isNew step = true) (names : List Text) :
    advance names step = names ++ [step] := by
  simp only [isNew, Bool.and_eq_true, bne_iff_ne] at h
  rw [advance, if_neg (by simp [h]), if_neg h.2]

/-- A path that can be walked leads where its steps lead on paper. -/
theorem eq_trail_of_walk {steps : List Text} (h : walk t names steps = .ok place) :
    place = trail names steps := by
  induction steps generalizing names with
  | nil => exact (Except.ok.inj h).symm
  | cons step steps ih =>
      rw [walk_cons_eq_ok_iff] at h
      rw [trail, List.foldl_cons, advance]
      split
      · next hblank =>
        rw [if_pos hblank] at h
        exact ih h.2
      · next hblank =>
        rw [if_neg hblank] at h
        split
        · next hparent =>
          rw [if_pos hparent] at h
          exact ih h.2
        · next hparent =>
          rw [if_neg hparent] at h
          exact ih h.2.2.2

/-- Steps that do not lead to or through any of the places. -/
def Avoids (places : Set (List Text)) : List Text → List Text → Prop
  | names, [] => names ∉ places
  | names, step :: steps => names ∉ places ∧ Avoids places (advance names step) steps

theorem Avoids.start {steps : List Text} (h : Avoids places names steps) : names ∉ places := by
  cases steps with
  | nil => exact h
  | cons step steps => exact h.1

theorem avoids_append_iff {steps more : List Text} : Avoids places names (steps ++ more) ↔
    Avoids places names steps ∧ Avoids places (trail names steps) more := by
  induction steps generalizing names with
  | nil => exact ⟨fun h => ⟨h.start, h⟩, fun h => h.2⟩
  | cons step steps ih =>
      rw [List.cons_append, Avoids, Avoids, ih, and_assoc]
      rfl

theorem Avoids.dropLast {steps : List Text} (h : Avoids places names steps) :
    Avoids places names steps.dropLast := by
  obtain ⟨more, hmore⟩ := List.dropLast_prefix steps
  exact (avoids_append_iff.1 (hmore.symm ▸ h)).1

/-- Steps that lead nowhere can be left out. -/
theorem Avoids.filter {steps : List Text} (h : Avoids places names steps) :
    Avoids places names (steps.filter fun s => s != [] && s != ['.']) := by
  induction steps generalizing names with
  | nil => exact h
  | cons step steps ih =>
      by_cases hblank : step = [] ∨ step = ['.']
      · have hstay : advance names step = names := by rw [advance, if_pos hblank]
        rw [List.filter_cons_of_neg (by rcases hblank with rfl | rfl <;> simp)]
        exact ih (hstay ▸ h.2)
      · rw [List.filter_cons_of_pos (by simpa [not_or] using hblank)]
        exact ⟨h.1, ih h.2⟩

/-! ## Joined paths -/

/-- In front of a name, a joined path leads where the path does that it has been joined to. -/
theorem exists_trail_before (places : Set (List Text)) (base : Path) :
    ∃ before, (∀ name, '/' ∉ name → steps (Path.join base name) = before ++ [name]) ∧
      trail [] before = trail [] (steps base) ∧
        (Avoids places [] (steps base) → Avoids places [] before) := by
  obtain ⟨before, hbefore, hsteps⟩ := exists_steps_join base
  refine ⟨before, hbefore, ?_⟩
  rcases hsteps with ⟨-, hsteps | hsteps⟩ | ⟨rfl, rfl⟩
  · exact ⟨hsteps ▸ rfl, fun h => hsteps ▸ h⟩
  · rw [hsteps, trail_append, avoids_append_iff]
    exact ⟨rfl, And.left⟩
  · exact ⟨rfl, Avoids.start⟩

/-- A joined path avoids places if the path does that it has been joined to, and the name behind it. -/
theorem avoids_join {name : Text} (hslash : '/' ∉ name) (hbase : Avoids places [] (steps base))
    (hname : Avoids places (trail [] (steps base)) [name]) :
    Avoids places [] (steps (Path.join base name)) := by
  obtain ⟨before, hbefore, htrail, havoids⟩ := exists_trail_before places base
  rw [hbefore name hslash, avoids_append_iff, htrail]
  exact ⟨havoids hbase, hname⟩

/-- A path behind a directory avoids what the way to the directory avoids. -/
theorem avoids_dropLast_join {name : Text} (hslash : '/' ∉ name) (hbase : Avoids places [] (steps base)) :
    Avoids places [] (steps (Path.join base name)).dropLast := by
  obtain ⟨before, hbefore, -, havoids⟩ := exists_trail_before places base
  rw [hbefore name hslash, List.dropLast_concat]
  exact havoids hbase

/-- A path behind a directory leads where its last name leads from there. -/
theorem trail_join {name : Text} (hslash : '/' ∉ name) (base : Path) :
    trail [] (steps (Path.join base name)) = advance (trail [] (steps base)) name := by
  obtain ⟨before, hbefore, htrail, -⟩ := exists_trail_before ∅ base
  rw [hbefore name hslash, trail_append, htrail]
  rfl

/-- What is joined to a path stands behind a text that does not depend on it. -/
theorem join_eq_append {piece : Text} (hslash : '/' ∉ piece) (gone : Path) :
    Path.join gone piece = Path.join gone [] ++ piece := by
  have hempty : Path.isAbsolute [] = false := rfl
  rw [Path.join, Path.join, Path.isAbsolute_eq_false hslash, hempty]
  simp only [Bool.false_or]
  split
  · simp_all
  split <;> simp

theorem getLast?_join_ne {piece : Text} (hne : piece ≠ []) (hslash : '/' ∉ piece) (gone : Path) :
    (Path.join gone piece).getLast? ≠ some '/' := by
  rw [join_eq_append hslash, List.getLast?_append_of_ne_nil _ hne]
  exact fun hlast => hslash (List.mem_of_getLast? hlast)

theorem dropWhileEnd_join {piece : Text} (hne : piece ≠ []) (hslash : '/' ∉ piece) (gone : Path) :
    Text.dropWhileEnd (· == '/') (Path.join gone piece) = Path.join gone piece := by
  have hlast := getLast?_join_ne hne hslash gone
  rw [Text.dropWhileEnd]
  rw [← List.head?_reverse] at hlast
  cases hcase : (Path.join gone piece).reverse with
  | nil => rw [List.dropWhile_nil, ← hcase, List.reverse_reverse]
  | cons c s =>
      rw [hcase, List.head?_cons] at hlast
      rw [List.dropWhile_cons_of_neg (by simpa using hlast), ← hcase, List.reverse_reverse]

/-- The texts of components are the pieces that count, behind what tells where the path begins. -/
theorem map_toText_components (p : Path) : p.components.map Path.Component.toText =
    (if p.isAbsolute then [['/']] else if p.startsWithPoint then [['.']] else []) ++ Path.pieces p := by
  have hpieces : ((Path.pieces p).map Path.Component.ofPiece).map Path.Component.toText = Path.pieces p := by
    rw [List.map_map]
    refine List.map_id'' (fun piece => ?_) _
    rw [Function.comp_apply, Path.Component.ofPiece]
    split
    · next hparent => exact hparent.symm
    · split
      · next hcurrent => exact hcurrent.symm
      · rfl
  rw [Path.components, List.map_append, hpieces]
  split
  · rfl
  split <;> rfl

/-- The pieces of a path are its steps, but for empty ones and points. -/
theorem pieces_eq_filter_steps (p : Path) :
    Path.pieces p = (steps p).filter fun s => s != [] && s != ['.'] := by
  rw [Path.pieces, steps]
  split
  · next habsolute =>
    obtain ⟨rest, hsplit⟩ := exists_splitOnP_of_isAbsolute habsolute
    rw [hsplit]
    rfl
  · rfl

theorem slash_not_mem_of_mem_pieces {piece : Text} (h : piece ∈ Path.pieces p) :
    piece ≠ [] ∧ '/' ∉ piece := by
  obtain ⟨hmem, hnotblank⟩ := List.mem_filter.1 h
  simp only [Bool.and_eq_true, bne_iff_ne] at hnotblank
  refine ⟨hnotblank.1, fun hslash => ?_⟩
  simpa using (Text.mem_of_mem_splitOnP hmem hslash).2

/-- The root is not made but looked for. -/
theorem makeAlong_root (t : FileTree) (pieces : List Text) : t.makeAlong [] (['/'] :: pieces) =
    if t.hasDirectory ['/'] then t.makeAlong ['/'] pieces else .error .notFound := by
  have hroot : t.makeDirectory ['/'] = .error .notFound := rfl
  have hstart : Path.join [] ['/'] = ['/'] := rfl
  rw [makeAlong, hstart, hroot]
  simp

/-! ## Equal walks -/

/-- A walk does not tell trees apart that agree along it. -/
theorem AgreeOff.walk_eq (h : AgreeOff places t t') {steps : List Text}
    (hsteps : Avoids places names steps) : t.walk names steps = t'.walk names steps := by
  induction steps generalizing names with
  | nil => rfl
  | cons step steps ih =>
      have hmore := ih hsteps.2
      have hnext := hsteps.2.start
      rw [walk_cons, walk_cons, h.entry names hsteps.1]
      rw [advance] at hmore hnext
      split at hmore
      · next hblank => simp only [if_pos hblank, hmore]
      · next hblank =>
        rw [if_neg hblank] at hnext
        split at hmore
        · next hparent => simp only [if_neg hblank, if_pos hparent, hmore]
        · next hparent =>
          rw [if_neg hparent] at hnext
          simp only [if_neg hblank, if_neg hparent, hmore, h.entry _ hnext]

/-- Trees that agree along a path have the same place for something new. -/
theorem AgreeOff.locateNew_eq (h : AgreeOff places t t') (hp : Avoids places [] (steps p).dropLast) :
    t.locateNew p = t'.locateNew p := by
  rw [FileTree.locateNew_eq, FileTree.locateNew_eq, h.walk_eq hp]
  simp only [h.directory]

/-- The place of something new is none of those that are avoided. -/
theorem not_mem_of_locateNew (hp : Avoids places [] (steps p)) {last : Text}
    (h : t.locateNew p = .ok (names, last)) (hnew : isNew last = true) : names ++ [last] ∉ places := by
  obtain ⟨-, hwalk, -, -, -⟩ := locateNew_eq_ok_iff.1 h
  rw [steps_eq_of_locateNew h hnew, avoids_append_iff, ← eq_trail_of_walk hwalk] at hp
  exact advance_of_isNew hnew names ▸ hp.2.2

theorem AgreeOff.hasDirectory_eq (h : AgreeOff places t t') (hp : Avoids places [] (steps p)) :
    t.hasDirectory p = t'.hasDirectory p := by
  have hlocate : t.locate p = t'.locate p := by
    rw [FileTree.locate, FileTree.locate, h.walk_eq hp]
  rw [Bool.eq_iff_iff, hasDirectory_iff, hasDirectory_iff, hlocate]
  simp only [h.directory]

/-! ## Equal outcomes -/

/-- Two operations are refused for one cause, or give trees that agree. -/
inductive Alike (places : Set (List Text)) :
    Except FileError FileTree → Except FileError FileTree → Prop
  | ok {t t' : FileTree} (h : AgreeOff places t t') : Alike places (.ok t) (.ok t')
  | error (cause : FileError) : Alike places (.error cause) (.error cause)

theorem Alike.cases {outcome outcome' : Except FileError FileTree} (h : Alike places outcome outcome') :
    (∃ t t', outcome = .ok t ∧ outcome' = .ok t' ∧ AgreeOff places t t') ∨
      ∃ cause, outcome = .error cause ∧ outcome' = .error cause := by
  cases h with
  | ok hagree => exact .inl ⟨_, _, rfl, rfl, hagree⟩
  | error cause => exact .inr ⟨cause, rfl, rfl⟩

/-- Trees agree still when one file or empty directory is put into both. -/
theorem AgreeOff.putEntry (h : AgreeOff places t t') {u : FileTree} {last : Text}
    (hleaf : ∀ n ns, u.entryAt? (n :: ns) = none) (hnames : t.entryAt? names = some .directory)
    (hlast : t.entryAt? (names ++ [last]) ≠ some .directory) :
    AgreeOff places (t.modify (FileTree.putEntry last u) names)
      (t'.modify (FileTree.putEntry last u) names) := by
  have hentry := entryAt?_modify_putEntry hleaf hnames hlast
  have hentry' := entryAt?_modify_putEntry hleaf ((h.directory _).1 hnames)
    (mt (h.directory _).2 hlast)
  constructor
  · intro place
    rw [hentry, hentry']
    split
    · rfl
    · exact h.directory place
  · intro place hplace
    rw [hentry, hentry', h.entry place hplace]

/-- A file is written to both of two trees that agree along its path, or to neither. -/
theorem AgreeOff.write (h : AgreeOff places t t') (hp : Avoids places [] (steps p).dropLast)
    (content : Option Text) : Alike places (t.write p content) (t'.write p content) := by
  rw [write_eq, write_eq, ← h.locateNew_eq hp]
  cases hlocate : t.locateNew p with
  | error cause => exact .error cause
  | ok found =>
      obtain ⟨names, last⟩ := found
      obtain ⟨-, -, hdirectory, -, -⟩ := locateNew_eq_ok_iff.1 hlocate
      simp only
      split
      · exact .error _
      · simp only [h.directory (names ++ [last])]
        split
        · exact .error _
        · next hlast => exact .ok (h.putEntry (fun _ _ => rfl) hdirectory (mt (h.directory _).1 hlast))

/-- A directory is made in both of two trees that agree along its path, or in neither. -/
theorem AgreeOff.makeDirectory (h : AgreeOff places t t')
    (hp : Avoids places [] (steps (Text.dropWhileEnd (· == '/') p))) :
    Alike places (t.makeDirectory p) (t'.makeDirectory p) := by
  rw [makeDirectory_eq, makeDirectory_eq, ← h.locateNew_eq hp.dropLast]
  cases hlocate : t.locateNew (Text.dropWhileEnd (· == '/') p) with
  | error cause => exact .error cause
  | ok found =>
      obtain ⟨names, last⟩ := found
      obtain ⟨-, -, hdirectory, -, -⟩ := locateNew_eq_ok_iff.1 hlocate
      simp only
      split
      · exact .error _
      · next hnew =>
        have hentry := h.entry _ (not_mem_of_locateNew hp hlocate (by simpa using hnew))
        simp only [← hentry]
        split
        · exact .error _
        · next hnone =>
          have hlast : t.entryAt? (names ++ [last]) ≠ some .directory := by
            intro hlast
            rw [hlast] at hnone
            exact hnone rfl
          exact .ok (h.putEntry (fun _ _ => rfl) hdirectory hlast)

/-- Directories along a path are made in both of two trees that agree along it, or in neither. -/
theorem AgreeOff.makeAlong (h : AgreeOff places t t') {gone : Path} (hgone : Avoids places [] (steps gone))
    {pieces : List Text} (hpieces : ∀ piece ∈ pieces, piece ≠ [] ∧ '/' ∉ piece)
    (hrest : Avoids places (trail [] (steps gone)) pieces) :
    Alike places (t.makeAlong gone pieces) (t'.makeAlong gone pieces) := by
  induction pieces generalizing t t' gone with
  | nil => exact .ok h
  | cons piece more ih =>
      rw [List.forall_mem_cons] at hpieces
      obtain ⟨⟨hne, hslash⟩, hmore⟩ := hpieces
      have hhere := avoids_join hslash hgone ⟨hrest.1, hrest.2.start⟩
      have hthere := trail_join hslash gone ▸ hrest.2
      rw [FileTree.makeAlong, FileTree.makeAlong, h.hasDirectory_eq hhere]
      rcases (h.makeDirectory ((dropWhileEnd_join hne hslash gone).symm ▸ hhere)).cases with
        ⟨u, u', hone, hone', hagree⟩ | ⟨cause, hone, hone'⟩
      · rw [hone, hone']
        exact ih hagree hhere hmore hthere
      · rw [hone, hone']
        simp only
        split
        · exact ih h hhere hmore hthere
        · split <;> exact .error _

/-- A directory is made with all that are above it in both of two trees that agree along its path,
or in neither. -/
theorem AgreeOff.makeDirectories (h : AgreeOff places t t') (hp : Avoids places [] (steps p)) :
    Alike places (t.makeDirectories p) (t'.makeDirectories p) := by
  have hpieces (piece : Text) (hpiece : piece ∈ Path.pieces p) := slash_not_mem_of_mem_pieces hpiece
  have hrest : Avoids places [] (Path.pieces p) := pieces_eq_filter_steps p ▸ hp.filter
  have hempty : Avoids places [] (steps []) := ⟨hp.start, hp.start⟩
  rw [FileTree.makeDirectories, FileTree.makeDirectories, map_toText_components]
  split
  · exact .ok h
  split
  · exact .error _
  split
  · have hroot : Avoids places [] (steps ['/']) := ⟨hp.start, hp.start⟩
    rw [List.singleton_append, makeAlong_root, makeAlong_root, h.hasDirectory_eq hroot]
    split
    · exact h.makeAlong hroot hpieces hrest
    · exact .error _
  split
  · refine h.makeAlong hempty ?_ ⟨hp.start, hrest⟩
    rw [List.singleton_append, List.forall_mem_cons]
    exact ⟨by decide, hpieces⟩
  · exact h.makeAlong hempty hpieces hrest

end Viewloom.FileTree
