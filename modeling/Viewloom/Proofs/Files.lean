import Viewloom.FileTree

/-!
# What writing changes

A file that is written stands at the end of its path, and no other place of the tree changes. So texts
that are written under different names of one directory can all be read back.
-/

namespace Viewloom.Path

variable {p : Path}

/-! ## Paths without a slash -/

theorem isAbsolute_eq_false (h : '/' ∉ p) : p.isAbsolute = false := by
  rw [isAbsolute, ← Bool.not_eq_true, beq_iff_eq]
  exact fun hhead => h (List.mem_of_head? hhead)

theorem splitOnP_of_slash_not_mem (h : '/' ∉ p) : List.splitOnP (· == '/') p = [p] :=
  List.splitOnP_eq_singleton fun c hc => by
    rw [beq_eq_false_iff_ne]
    rintro rfl
    exact h hc

end Viewloom.Path

namespace Viewloom.FileTree

/-! ## Places -/

/-- What stands at a place, without what is in it. -/
inductive Entry where
  | directory
  | file (content : Option Text)
  deriving DecidableEq, Repr

/-- What stands at a place, without what is below it. -/
def entry : FileTree → Entry
  | directory _ => .directory
  | file content => .file content

/-- What stands at the place that names lead to. -/
def entryAt? (t : FileTree) (place : List Text) : Option Entry := (t.at? place).map entry

@[simp]
theorem entryAt?_nil (t : FileTree) : t.entryAt? [] = some t.entry := by
  cases t <;> rfl

@[simp]
theorem entryAt?_file_cons (content : Option Text) (name : Text) (place : List Text) :
    (file content).entryAt? (name :: place) = none := rfl

theorem entryAt?_directory_cons (entries : List (Text × FileTree)) (name : Text) (place : List Text) :
    (directory entries).entryAt? (name :: place) =
      (findEntry name entries).bind fun t => t.entryAt? place := by
  rw [entryAt?, at?]
  cases findEntry name entries <;> rfl

/-- What stands at a path is found from any place on the way. -/
theorem entryAt?_append (t : FileTree) (place more : List Text) :
    t.entryAt? (place ++ more) = (t.at? place).bind fun u => u.entryAt? more := by
  induction place generalizing t with
  | nil => cases t <;> rfl
  | cons name place ih =>
      cases t with
      | file content => rfl
      | directory entries =>
          rw [List.cons_append, entryAt?_directory_cons, at?]
          cases findEntry name entries with
          | none => rfl
          | some u => exact ih u

theorem entryAt?_eq_directory_iff {t : FileTree} {place : List Text} :
    t.entryAt? place = some .directory ↔ ∃ entries, t.at? place = some (directory entries) := by
  rw [entryAt?]
  cases t.at? place with
  | none => simp
  | some u => cases u <;> simp [entry]

theorem entryAt?_eq_file_iff {t : FileTree} {place : List Text} {content : Option Text} :
    t.entryAt? place = some (.file content) ↔ t.at? place = some (file content) := by
  rw [entryAt?]
  cases t.at? place with
  | none => simp
  | some u => cases u <;> simp [entry]

/-- Changing the entries of a directory changes nothing but what is below that directory. -/
theorem entryAt?_modify_of {t : FileTree} {names : List Text} {entries : List (Text × FileTree)}
    (f : List (Text × FileTree) → List (Text × FileTree)) (hat : t.at? names = some (directory entries))
    (place : List Text) :
    (t.modify f names).entryAt? place =
      if names <+: place then (directory (f entries)).entryAt? (place.drop names.length)
      else t.entryAt? place := by
  induction names generalizing t place with
  | nil =>
      obtain rfl := Option.some.inj hat
      simp [modify]
  | cons name names ih =>
      cases t with
      | file c => cases hat
      | directory es =>
          rw [at?] at hat
          rw [modify]
          cases hfind : findEntry name es with
          | none => simp [hfind] at hat
          | some u =>
              simp only [hfind] at hat
              cases place with
              | nil => simp [entry]
              | cons n ns =>
                  rw [entryAt?_directory_cons, findEntry_putEntry, entryAt?_directory_cons]
                  by_cases hn : name = n
                  · subst hn
                    simp [hfind, ih hat]
                  · simp [hn]

/-- Putting a file or an empty directory into a directory changes one place only, unless a directory
has been there. -/
theorem entryAt?_modify_putEntry {t u : FileTree} {names : List Text} {last : Text}
    (hleaf : ∀ n ns, u.entryAt? (n :: ns) = none) (hnames : t.entryAt? names = some .directory)
    (hlast : t.entryAt? (names ++ [last]) ≠ some .directory) (place : List Text) :
    (t.modify (putEntry last u) names).entryAt? place =
      if place = names ++ [last] then some u.entry else t.entryAt? place := by
  obtain ⟨entries, hat⟩ := entryAt?_eq_directory_iff.1 hnames
  rw [entryAt?_modify_of _ hat]
  split
  · next hprefix =>
    obtain ⟨more, rfl⟩ := hprefix
    rw [entryAt?_append, hat, Option.bind_some, entryAt?_directory_cons] at hlast
    rw [List.drop_left, entryAt?_append, hat, Option.bind_some]
    simp only [List.append_right_inj]
    cases more with
    | nil => simp [entry]
    | cons n ns =>
        rw [entryAt?_directory_cons, findEntry_putEntry, entryAt?_directory_cons]
        by_cases hn : last = n
        · subst hn
          cases ns with
          | nil => simp
          | cons m ms =>
              -- What was there before is a file or nothing, so nothing was below it either.
              cases hfind : findEntry last entries with
              | none => simp [hleaf]
              | some v =>
                  cases v with
                  | file c => simp [hleaf]
                  | directory es => simp [hfind, entry] at hlast
        · simp [hn, Ne.symm hn]
  · next hprefix =>
    rw [if_neg]
    rintro rfl
    exact hprefix (List.prefix_append names [last])

/-- Putting a file into a directory changes the place of that file only, unless a directory is there. -/
theorem entryAt?_modify {t : FileTree} {names : List Text} {last : Text} (content : Option Text)
    (hnames : t.entryAt? names = some .directory) (hlast : t.entryAt? (names ++ [last]) ≠ some .directory)
    (place : List Text) :
    (t.modify (putEntry last (file content)) names).entryAt? place =
      if place = names ++ [last] then some (.file content) else t.entryAt? place :=
  entryAt?_modify_putEntry (fun _ _ => rfl) hnames hlast place

/-! ## Walking in a greater tree -/

/-- The directories and the occupied places of a tree are still there in another one. -/
structure Extends (t t' : FileTree) : Prop where
  directory : ∀ place, t.entryAt? place = some .directory → t'.entryAt? place = some .directory
  isSome : ∀ place, (t.entryAt? place).isSome → (t'.entryAt? place).isSome

/-- A path can be walked step by step: every name has to stand in a directory. -/
theorem walk_cons_eq_ok_iff {t : FileTree} {names more place : List Text} {step : Text} :
    walk t names (step :: more) = .ok place ↔ t.entryAt? names = some .directory ∧
      if step = [] ∨ step = ['.'] then walk t names more = .ok place
      else if step = text ".." then walk t names.dropLast more = .ok place
      else byteLength step ≤ nameLimit ∧ (t.entryAt? (names ++ [step])).isSome ∧
        walk t (names ++ [step]) more = .ok place := by
  rw [walk]
  cases hat : t.at? names with
  | none => simp [entryAt?, hat]
  | some u =>
      cases u with
      | file content => simp [entryAt?, hat, entry]
      | directory entries =>
          have hstep : t.entryAt? (names ++ [step]) = (findEntry step entries).map entry := by
            rw [entryAt?_append, hat, Option.bind_some, entryAt?_directory_cons]
            cases findEntry step entries <;> simp
          rw [entryAt?_eq_directory_iff.2 ⟨entries, hat⟩, hstep]
          simp only [true_and]
          split
          · rfl
          split
          · rfl
          by_cases hlength : nameLimit < byteLength step
          · simp [hlength, Nat.not_le.2 hlength]
          · cases findEntry step entries <;> simp [hlength, Nat.not_lt.1 hlength]

/-- A walk can be taken in two parts. -/
theorem walk_append_eq_ok_iff {t : FileTree} {names steps more place : List Text} :
    walk t names (steps ++ more) = .ok place ↔
      ∃ middle, walk t names steps = .ok middle ∧ walk t middle more = .ok place := by
  induction steps generalizing names with
  | nil => simp [walk]
  | cons step steps ih =>
      simp only [List.cons_append, walk_cons_eq_ok_iff]
      split
      · simp [ih, and_assoc]
      split
      · simp [ih, and_assoc]
      · simp [ih, and_assoc]

section Extends

variable {t t' : FileTree}

/-- What can be walked in a tree leads to the same place in a greater one. -/
theorem Extends.walk (h : t.Extends t') {names steps place : List Text}
    (hwalk : walk t names steps = .ok place) : walk t' names steps = .ok place := by
  induction steps generalizing names with
  | nil => exact hwalk
  | cons step steps ih =>
      rw [walk_cons_eq_ok_iff] at hwalk ⊢
      obtain ⟨hnames, hwalk⟩ := hwalk
      refine ⟨h.directory _ hnames, ?_⟩
      split
      · next hstep =>
        rw [if_pos hstep] at hwalk
        exact ih hwalk
      · next hstep =>
        rw [if_neg hstep] at hwalk
        split
        · next hparent =>
          rw [if_pos hparent] at hwalk
          exact ih hwalk
        · next hparent =>
          rw [if_neg hparent] at hwalk
          obtain ⟨hlength, hsome, hwalk⟩ := hwalk
          exact ⟨hlength, h.isSome _ hsome, ih hwalk⟩

/-- A path leads to a place if it is not refused and can be walked. -/
theorem locate_eq_ok_iff {p : Path} {place : List Text} :
    t.locate p = .ok place ↔ refuse p = none ∧ walk t [] (steps p) = .ok place := by
  rw [locate]
  cases refuse p <;> simp

/-- In an extended tree, paths lead where they have led. -/
theorem Extends.locate (h : t.Extends t') {p : Path} {place : List Text}
    (hlocate : t.locate p = .ok place) : t'.locate p = .ok place := by
  rw [locate_eq_ok_iff] at hlocate ⊢
  exact ⟨hlocate.1, h.walk hlocate.2⟩

end Extends

/-! ## Reading and writing -/

section Write

variable {t t' : FileTree} {p : Path}

/-- A file can be read exactly if its path leads to a file with a text. -/
theorem read_eq_ok_iff {content : Text} : t.read p = .ok content ↔
    ∃ place, t.locate p = .ok place ∧ t.entryAt? place = some (.file (some content)) := by
  simp only [entryAt?_eq_file_iff]
  rw [read, look]
  cases t.locate p with
  | error cause => simp
  | ok place =>
      cases hat : t.at? place with
      | none => simp [hat]
      | some u => rcases u with ⟨_ | c⟩ | entries <;> simp [hat]

/-- Something new can be put where a directory stands and the name is not too long. -/
theorem locateNew_eq_ok_iff {names : List Text} {last : Text} :
    t.locateNew p = .ok (names, last) ↔ refuse p = none ∧
      walk t [] (steps p).dropLast = .ok names ∧ t.entryAt? names = some .directory ∧
        (steps p).getLast?.getD [] = last ∧ byteLength last ≤ nameLimit := by
  rw [locateNew]
  cases refuse p with
  | some cause => simp
  | none =>
      cases hwalk : FileTree.walk t [] (steps p).dropLast with
      | error cause => simp
      | ok found =>
          simp only [Except.ok.injEq, true_and]
          cases hat : t.at? found with
          | none =>
              simp only [reduceCtorEq, false_iff]
              rintro ⟨rfl, hdirectory, -⟩
              simp [entryAt?, hat] at hdirectory
          | some u =>
              cases u with
              | file content =>
                  simp only [reduceCtorEq, false_iff]
                  rintro ⟨rfl, hdirectory, -⟩
                  simp [entryAt?, hat, entry] at hdirectory
              | directory entries =>
                  have hdirectory := entryAt?_eq_directory_iff.2 ⟨entries, hat⟩
                  by_cases hlength : nameLimit < byteLength ((steps p).getLast?.getD [])
                  · simp only [if_pos hlength, reduceCtorEq, false_iff]
                    rintro ⟨-, -, rfl, hle⟩
                    omega
                  · simp only [if_neg hlength, Except.ok.injEq, Prod.mk.injEq]
                    constructor
                    · rintro ⟨rfl, rfl⟩
                      exact ⟨rfl, hdirectory, rfl, Nat.not_lt.1 hlength⟩
                    · rintro ⟨rfl, -, rfl, -⟩
                      exact ⟨rfl, rfl⟩

/-- A file that is written is put in a directory, in the place of no other directory. -/
theorem write_eq_ok {content : Option Text} (h : t.write p content = .ok t') :
    ∃ names last, t.locateNew p = .ok (names, last) ∧ isNew last = true ∧
      t.entryAt? (names ++ [last]) ≠ some .directory ∧
        t' = t.modify (putEntry last (file content)) names := by
  rw [write] at h
  cases hlocate : t.locateNew p with
  | error cause => simp [hlocate] at h
  | ok found =>
      obtain ⟨names, last⟩ := found
      simp only [hlocate] at h
      split at h
      · cases h
      · next hnew =>
        refine ⟨names, last, rfl, by simpa using hnew, ?_⟩
        split at h
        · cases h
        · next hat =>
          refine ⟨fun hdirectory => ?_, (Except.ok.inj h).symm⟩
          obtain ⟨entries, hentries⟩ := entryAt?_eq_directory_iff.1 hdirectory
          exact hat entries hentries

/-- The last step of a path to something new is its name. -/
theorem steps_eq_of_locateNew {names : List Text} {last : Text} (h : t.locateNew p = .ok (names, last))
    (hnew : isNew last = true) : steps p = (steps p).dropLast ++ [last] := by
  obtain ⟨-, -, -, hlast, -⟩ := locateNew_eq_ok_iff.1 h
  cases hcase : (steps p).getLast? with
  | none =>
      rw [hcase, Option.getD_none] at hlast
      subst hlast
      cases hnew
  | some step =>
      obtain ⟨before, hbefore⟩ := List.getLast?_eq_some_iff.1 hcase
      rw [hcase, Option.getD_some] at hlast
      rw [hbefore, hlast, List.dropLast_concat]

/-- A file that is written stands at the place its path leads to, and all other places are as before. -/
theorem entryAt?_write {content : Option Text} (h : t.write p content = .ok t') :
    ∃ written, t'.locate p = .ok written ∧ t.entryAt? written ≠ some .directory ∧
      ∀ place, t'.entryAt? place =
        if place = written then some (.file content) else t.entryAt? place := by
  obtain ⟨names, last, hlocate, hnew, hlast, rfl⟩ := write_eq_ok h
  obtain ⟨hrefuse, hwalk, hnames, -, hlength⟩ := locateNew_eq_ok_iff.1 hlocate
  have hentry := entryAt?_modify content hnames hlast
  have hextends : t.Extends (t.modify (putEntry last (file content)) names) := by
    constructor
    · intro place hplace
      rw [hentry, if_neg, hplace]
      rintro rfl
      exact hlast hplace
    · intro place hplace
      rw [hentry]
      split
      · rfl
      · exact hplace
  refine ⟨names ++ [last], ?_, hlast, hentry⟩
  have hone : walk (t.modify (putEntry last (file content)) names) names [last] =
      .ok (names ++ [last]) := by
    rw [isNew] at hnew
    simp only [Bool.and_eq_true, bne_iff_ne] at hnew
    rw [walk_cons_eq_ok_iff, if_neg (by simp [hnew]), if_neg hnew.2, hentry (names ++ [last]),
      if_pos rfl]
    exact ⟨hextends.directory _ hnames, hlength, rfl, rfl⟩
  rw [locate_eq_ok_iff, steps_eq_of_locateNew hlocate hnew]
  exact ⟨hrefuse, walk_append_eq_ok_iff.2 ⟨names, hextends.walk hwalk, hone⟩⟩

/-- Writing a file extends a tree. -/
theorem extends_write {content : Option Text} (h : t.write p content = .ok t') : t.Extends t' := by
  obtain ⟨written, -, hwritten, hentry⟩ := entryAt?_write h
  constructor
  · intro place hplace
    rw [hentry, if_neg, hplace]
    rintro rfl
    exact hwritten hplace
  · intro place hplace
    rw [hentry]
    split
    · rfl
    · exact hplace

/-- What is read of a file that has been written is what has been written. -/
theorem read_write {content : Text} (h : t.write p (some content) = .ok t') :
    t'.read p = .ok content := by
  obtain ⟨written, hlocate, -, hentry⟩ := entryAt?_write h
  exact read_eq_ok_iff.2 ⟨written, hlocate, by rw [hentry, if_pos rfl]⟩

end Write

/-! ## Files of one directory -/

/-- Whether a text names an entry of a directory, and is one step. -/
def IsFileName (name : Text) : Prop := isNew name = true ∧ '/' ∉ name

/-- The paths to the files of a directory differ in their last step only. In front of it stand the
steps to the directory, without an empty one at the end. -/
theorem exists_steps_join (base : Path) :
    ∃ before, (∀ name, '/' ∉ name → steps (Path.join base name) = before ++ [name]) ∧
      (base ≠ [] ∧ (steps base = before ∨ steps base = before ++ [[]]) ∨ base = [] ∧ before = []) := by
  by_cases hbase : base = []
  · refine ⟨[], fun name h => ?_, .inr ⟨hbase, rfl⟩⟩
    simp [Path.join, hbase, steps, Path.isAbsolute_eq_false h, Path.splitOnP_of_slash_not_mem h]
  · obtain ⟨s, hs, hsbase⟩ : ∃ s : Text,
        (∀ name, '/' ∉ name → Path.join base name = s ++ '/' :: name) ∧
          (base = s ∨ base = s ++ ['/']) := by
      by_cases hslash : base.getLast? = some '/'
      · obtain ⟨s, hs⟩ := List.getLast?_eq_some_iff.1 hslash
        refine ⟨s, fun name h => ?_, .inr hs⟩
        rw [Path.join, if_neg (by simp [Path.isAbsolute_eq_false h, hbase]), if_pos (by simp [hslash]),
          hs]
        simp
      · refine ⟨base, fun name h => ?_, .inl rfl⟩
        rw [Path.join, if_neg (by simp [Path.isAbsolute_eq_false h, hbase]), if_neg (by simp [hslash])]
    have habsolute (name : Text) : Path.isAbsolute (s ++ '/' :: name) = Path.isAbsolute (s ++ ['/']) := by
      cases s <;> rfl
    have hone := List.length_pos_iff.2 (List.splitOnP_ne_nil (· == '/') s)
    refine ⟨if Path.isAbsolute (s ++ ['/']) then (List.splitOnP (· == '/') s).drop 1
      else List.splitOnP (· == '/') s, fun name h => ?_, .inl ⟨hbase, ?_⟩⟩
    · rw [hs name h, steps, habsolute, List.splitOnP_append_cons _ _ (by simp),
        Path.splitOnP_of_slash_not_mem h]
      split
      · exact List.drop_append_of_le_length hone
      · rfl
    · rcases hsbase with rfl | rfl
      · left
        rw [steps]
        cases base with
        | nil => exact absurd rfl hbase
        | cons c base => rfl
      · right
        rw [steps, List.splitOnP_append_cons _ _ (by simp)]
        split
        · exact List.drop_append_of_le_length hone
        · rfl

section Join

variable {base : Path} {name other : Text}

/-- Different names in a directory have different paths. -/
theorem join_inj (hname : IsFileName name) (hother : IsFileName other)
    (h : Path.join base name = Path.join base other) : name = other := by
  obtain ⟨before, hbefore, -⟩ := exists_steps_join base
  have hsteps : before ++ [name] = before ++ [other] := by
    rw [← hbefore name hname.2, ← hbefore other hother.2, h]
  simpa using hsteps

/-- In front of the name, a path to a file leads where the path to its directory leads. An empty path
leads to the top. -/
theorem exists_walk_before {t : FileTree} {place : List Text}
    (h : base ≠ [] ∧ walk t [] (steps base) = .ok place ∨ base = [] ∧ place = []) :
    ∃ before, (∀ name, '/' ∉ name → steps (Path.join base name) = before ++ [name]) ∧
      walk t [] before = .ok place := by
  obtain ⟨before, hbefore, hsteps⟩ := exists_steps_join base
  refine ⟨before, hbefore, ?_⟩
  rcases h with ⟨hbase, h⟩ | ⟨hbase, rfl⟩
  · rcases hsteps with ⟨-, hsteps | hsteps⟩ | ⟨hempty, -⟩
    · rwa [hsteps] at h
    · rw [hsteps, walk_append_eq_ok_iff] at h
      obtain ⟨middle, hmiddle, hlast⟩ := h
      rw [walk_cons_eq_ok_iff, if_pos (.inl rfl)] at hlast
      exact Except.ok.inj hlast.2 ▸ hmiddle
    · exact absurd hempty hbase
  · rcases hsteps with ⟨hne, -⟩ | ⟨-, rfl⟩
    · exact absurd hbase hne
    · rfl

/-- One step leads to an entry of a directory. -/
theorem walk_singleton_eq_ok_iff {t : FileTree} {names place : List Text} (hname : IsFileName name) :
    walk t names [name] = .ok place ↔ t.entryAt? names = some .directory ∧
      byteLength name ≤ nameLimit ∧ (t.entryAt? (names ++ [name])).isSome ∧ names ++ [name] = place := by
  have hnew := hname.1
  simp only [isNew, Bool.and_eq_true, bne_iff_ne] at hnew
  rw [walk_cons_eq_ok_iff, if_neg (by simp [hnew]), if_neg hnew.2]
  simp [walk]

/-- Different names of one directory lead to different places. -/
theorem locate_join_ne {t : FileTree} {place place' : List Text} (hname : IsFileName name)
    (hother : IsFileName other) (hne : name ≠ other) (h : t.locate (Path.join base name) = .ok place)
    (h' : t.locate (Path.join base other) = .ok place') : place ≠ place' := by
  obtain ⟨before, hbefore, -⟩ := exists_steps_join base
  have hplace {name : Text} {place : List Text} (hname : IsFileName name)
      (h : t.locate (Path.join base name) = .ok place) :
      ∃ names, walk t [] before = .ok names ∧ place = names ++ [name] := by
    rw [locate_eq_ok_iff, hbefore name hname.2, walk_append_eq_ok_iff] at h
    obtain ⟨-, names, hnames, hlast⟩ := h
    exact ⟨names, hnames, ((walk_singleton_eq_ok_iff hname).1 hlast).2.2.2.symm⟩
  obtain ⟨names, hnames, rfl⟩ := hplace hname h
  obtain ⟨names', hnames', rfl⟩ := hplace hother h'
  obtain rfl := Except.ok.inj (hnames.symm.trans hnames')
  simpa using hne

/-- Writing a file keeps those of other names in its directory. -/
theorem read_write_of_ne {t t' : FileTree} {content old : Text} (hname : IsFileName name)
    (hother : IsFileName other) (hne : name ≠ other)
    (h : t.write (Path.join base name) (some content) = .ok t')
    (hread : t.read (Path.join base other) = .ok old) : t'.read (Path.join base other) = .ok old := by
  obtain ⟨written, hwritten, -, hentry⟩ := entryAt?_write h
  obtain ⟨place, hplace, hold⟩ := read_eq_ok_iff.1 hread
  have hplace' := (extends_write h).locate hplace
  refine read_eq_ok_iff.2 ⟨place, hplace', ?_⟩
  rw [hentry, if_neg (locate_join_ne hother hname hne.symm hplace' hwritten), hold]

end Join

/-- A tree has got files with these names and contents in a directory, and is as before elsewhere. -/
structure Receives (base : Path) (files : List (Text × Text)) (t t' : FileTree) : Prop where
  names : ∀ f ∈ files, IsFileName f.1
  reads : ∀ f ∈ files, t'.read (Path.join base f.1) = .ok f.2
  frame : ∀ place, (∀ f ∈ files, t'.locate (Path.join base f.1) ≠ .ok place) →
    t'.entryAt? place = t.entryAt? place

theorem receives_nil (base : Path) (t : FileTree) : Receives base [] t t where
  names := by simp
  reads := by simp
  frame := fun _ _ => rfl

/-- One more file is written under a new name. -/
theorem Receives.write {base : Path} {files : List (Text × Text)} {t t' t'' : FileTree}
    (h : Receives base files t t') {name content : Text} (hname : IsFileName name)
    (hfresh : name ∉ files.map Prod.fst)
    (hwrite : t'.write (Path.join base name) (some content) = .ok t'') :
    Receives base (files ++ [(name, content)]) t t'' where
  names := by
    intro f hf
    rcases List.mem_append.1 hf with hf | hf
    · exact h.names f hf
    · obtain rfl := List.mem_singleton.1 hf
      exact hname
  reads := by
    intro f hf
    rcases List.mem_append.1 hf with hf | hf
    · have hne : name ≠ f.1 := fun heq => hfresh (heq ▸ List.mem_map_of_mem hf)
      exact read_write_of_ne hname (h.names f hf) hne hwrite (h.reads f hf)
    · obtain rfl := List.mem_singleton.1 hf
      exact read_write hwrite
  frame := by
    intro place hplace
    obtain ⟨written, hlocate, -, hentry⟩ := entryAt?_write hwrite
    have hne : place ≠ written := by
      rintro rfl
      exact hplace (name, content) (by simp) hlocate
    rw [hentry, if_neg hne]
    refine h.frame place fun f hf hlocate' => ?_
    exact hplace f (List.mem_append_left _ hf) ((extends_write hwrite).locate hlocate')

end Viewloom.FileTree
