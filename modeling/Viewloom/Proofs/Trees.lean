import Mathlib.Data.List.Basic
import Viewloom.Proofs.Files

/-!
# Trees that a disk can hold

The entries of a directory have different names, and these names can be steps of paths. Every operation
keeps it so; in such a tree, nothing is left of what has been removed.
-/

namespace Viewloom

namespace Text

/-- The pieces of a text hold its characters and no place where it is cut. -/
theorem mem_of_mem_splitOnP {cut : Char → Bool} {s piece : Text} (h : piece ∈ s.splitOnP cut) {c : Char}
    (hc : c ∈ piece) : c ∈ s ∧ cut c = false := by
  induction s generalizing piece with
  | nil =>
      rw [List.splitOnP_nil, List.mem_singleton] at h
      rw [h] at hc
      cases hc
  | cons d s ih =>
      rw [List.splitOnP_cons_eq_if_modifyHead] at h
      cases hd : cut d with
      | true =>
          rw [hd, if_pos rfl, List.mem_cons] at h
          rcases h with rfl | h
          · cases hc
          · exact ⟨List.mem_cons_of_mem d (ih h hc).1, (ih h hc).2⟩
      | false =>
          obtain ⟨line, lines, hs⟩ := List.exists_cons_of_ne_nil (List.splitOnP_ne_nil cut s)
          rw [hs] at ih
          rw [hd, if_neg Bool.false_ne_true, hs, List.modifyHead_cons, List.mem_cons] at h
          rcases h with rfl | h
          · rcases List.mem_cons.1 hc with rfl | hc
            · exact ⟨List.mem_cons_self, hd⟩
            · have := ih List.mem_cons_self hc
              exact ⟨List.mem_cons_of_mem d this.1, this.2⟩
          · have := ih (List.mem_cons_of_mem line h) hc
            exact ⟨List.mem_cons_of_mem d this.1, this.2⟩

end Text

namespace FileTree

variable {t t' u : FileTree} {p : Path} {names place : List Text} {name last : Text}
  {entries : List (Text × FileTree)}

/-- Whether a disk can hold an entry of this name. -/
structure IsEntryName (name : Text) : Prop where
  isFileName : IsFileName name
  length_le : byteLength name ≤ nameLimit
  nul : Char.ofNat 0 ∉ name

mutual

/-- Whether a disk can hold a tree. -/
def Proper : FileTree → Prop
  | file _ => True
  | directory entries => (entries.map Prod.fst).Nodup ∧ ProperIn entries

def ProperIn : List (Text × FileTree) → Prop
  | [] => True
  | (name, t) :: entries => IsEntryName name ∧ Proper t ∧ ProperIn entries

end

/-- Entries are proper exactly if each of them has a name for entries and is proper. -/
theorem properIn_iff : ProperIn entries ↔ ∀ e ∈ entries, IsEntryName e.1 ∧ Proper e.2 := by
  induction entries with
  | nil => simp [ProperIn]
  | cons e entries ih => simp [ProperIn, ih, and_assoc]

/-- A directory is proper exactly if no name stands twice in it and its entries are proper. -/
theorem proper_directory_iff : (directory entries).Proper ↔
    (entries.map Prod.fst).Nodup ∧ ∀ e ∈ entries, IsEntryName e.1 ∧ Proper e.2 := by
  rw [Proper, properIn_iff]

instance (name : Text) : Decidable (IsEntryName name) :=
  decidable_of_iff
    ((isNew name = true ∧ '/' ∉ name) ∧ byteLength name ≤ nameLimit ∧ Char.ofNat 0 ∉ name)
    ⟨fun h => ⟨h.1, h.2.1, h.2.2⟩, fun h => ⟨h.isFileName, h.length_le, h.nul⟩⟩

mutual

def decideProper : (t : FileTree) → Decidable t.Proper
  | file _ => .isTrue trivial
  | directory entries =>
    have := decideProperIn entries
    inferInstanceAs (Decidable ((entries.map Prod.fst).Nodup ∧ ProperIn entries))

def decideProperIn : (entries : List (Text × FileTree)) → Decidable (ProperIn entries)
  | [] => .isTrue trivial
  | (name, t) :: entries =>
    have := decideProper t
    have := decideProperIn entries
    inferInstanceAs (Decidable (IsEntryName name ∧ Proper t ∧ ProperIn entries))

end

instance (t : FileTree) : Decidable t.Proper := decideProper t

theorem mem_of_findEntry (h : findEntry name entries = some t) : (name, t) ∈ entries := by
  induction entries with
  | nil => cases h
  | cons e entries ih =>
      obtain ⟨n, u⟩ := e
      rw [findEntry] at h
      split at h
      · next hn =>
        obtain rfl := Option.some.inj h
        exact hn ▸ List.mem_cons_self
      · exact List.mem_cons_of_mem _ (ih h)

/-- What a proper tree holds is proper. -/
theorem Proper.of_at? (h : t.Proper) (hat : t.at? names = some u) : u.Proper := by
  induction names generalizing t with
  | nil =>
      cases t <;> exact Option.some.inj hat ▸ h
  | cons name names ih =>
      cases t with
      | file c => cases hat
      | directory entries =>
          rw [at?] at hat
          cases hfind : findEntry name entries with
          | none => simp [hfind] at hat
          | some v =>
              simp only [hfind] at hat
              exact ih ((proper_directory_iff.1 h).2 _ (mem_of_findEntry hfind)).2 hat

/-! ## Entries -/

/-- Putting an entry adds no other. -/
theorem mem_putEntry {e : Text × FileTree} (h : e ∈ putEntry name t entries) :
    e = (name, t) ∨ e ∈ entries := by
  induction entries with
  | nil => exact .inl (List.mem_singleton.1 h)
  | cons f entries ih =>
      obtain ⟨n, u⟩ := f
      rw [putEntry] at h
      split at h
      · next hn =>
        rcases List.mem_cons.1 h with h | h
        · exact .inl (hn ▸ h)
        · exact .inr (List.mem_cons_of_mem _ h)
      · rcases List.mem_cons.1 h with h | h
        · exact .inr (h ▸ List.mem_cons_self)
        · exact (ih h).imp_right (List.mem_cons_of_mem _)

/-- Putting an entry repeats no name. -/
theorem nodup_putEntry (h : (entries.map Prod.fst).Nodup) :
    ((putEntry name t entries).map Prod.fst).Nodup := by
  induction entries with
  | nil => simp [putEntry]
  | cons f entries ih =>
      obtain ⟨n, u⟩ := f
      rw [List.map_cons, List.nodup_cons] at h
      rw [putEntry]
      split
      · exact List.nodup_cons.2 h
      · next hn =>
        refine List.nodup_cons.2 ⟨fun hmem => ?_, ih h.2⟩
        obtain ⟨e, he, heq⟩ := List.mem_map.1 hmem
        rcases mem_putEntry he with rfl | he
        · exact hn heq.symm
        · exact h.1 (heq ▸ List.mem_map_of_mem he)

theorem eraseEntry_sublist (name : Text) (entries : List (Text × FileTree)) :
    (eraseEntry name entries).Sublist entries := by
  induction entries with
  | nil => exact .slnil
  | cons e entries ih =>
      obtain ⟨n, u⟩ := e
      rw [eraseEntry]
      split
      · exact List.sublist_cons_self _ _
      · exact ih.cons_cons _

/-- An entry is not found exactly if no entry has its name. -/
theorem findEntry_eq_none_iff : findEntry name entries = none ↔ name ∉ entries.map Prod.fst := by
  induction entries with
  | nil => simp [findEntry]
  | cons e entries ih =>
      obtain ⟨n, u⟩ := e
      rw [findEntry, List.map_cons, List.mem_cons, not_or, ← ih]
      by_cases hn : n = name
      · simp [hn]
      · simp [hn, Ne.symm hn]

/-- Erasing an entry hides it and no other. -/
theorem findEntry_eraseEntry (hnodup : (entries.map Prod.fst).Nodup) (n : Text) :
    findEntry n (eraseEntry name entries) = if name = n then none else findEntry n entries := by
  induction entries with
  | nil => simp [eraseEntry, findEntry]
  | cons e entries ih =>
      obtain ⟨m, u⟩ := e
      rw [List.map_cons, List.nodup_cons] at hnodup
      rw [eraseEntry, findEntry]
      by_cases hm : m = name
      · subst hm
        by_cases hn : m = n
        · subst hn
          rw [if_pos rfl, if_pos rfl, findEntry_eq_none_iff]
          exact hnodup.1
        · simp [hn]
      · rw [if_neg hm, findEntry, ih hnodup.2]
        by_cases hn : m = n
        · subst hn
          simp [Ne.symm hm]
        · simp [hn]

/-! ## Operations on trees that a disk can hold -/

/-- A change of one directory that keeps it proper keeps the tree proper. -/
theorem Proper.modify (h : t.Proper) {f : List (Text × FileTree) → List (Text × FileTree)}
    (hat : t.at? names = some (directory entries)) (hf : (directory (f entries)).Proper) :
    (t.modify f names).Proper := by
  induction names generalizing t with
  | nil =>
      obtain rfl := Option.some.inj hat
      exact hf
  | cons name names ih =>
      cases t with
      | file c => cases hat
      | directory es =>
          rw [at?] at hat
          rw [FileTree.modify]
          cases hfind : findEntry name es with
          | none => simp [hfind] at hat
          | some v =>
              simp only [hfind] at hat
              have hes := proper_directory_iff.1 h
              have hv := hes.2 _ (mem_of_findEntry hfind)
              refine proper_directory_iff.2 ⟨nodup_putEntry hes.1, fun e he => ?_⟩
              rcases mem_putEntry he with rfl | he
              · exact ⟨hv.1, ih hv.2 hat⟩
              · exact hes.2 e he

/-- A proper directory stays proper when a proper entry is put into it. -/
theorem Proper.putEntry (h : (directory entries).Proper) (hname : IsEntryName name) (ht : t.Proper) :
    (directory (FileTree.putEntry name t entries)).Proper := by
  have hes := proper_directory_iff.1 h
  refine proper_directory_iff.2 ⟨nodup_putEntry hes.1, fun e he => ?_⟩
  rcases mem_putEntry he with rfl | he
  · exact ⟨hname, ht⟩
  · exact hes.2 e he

/-- A proper directory stays proper when an entry is erased. -/
theorem Proper.eraseEntry (h : (directory entries).Proper) (name : Text) :
    (directory (FileTree.eraseEntry name entries)).Proper := by
  have hes := proper_directory_iff.1 h
  have hsublist := eraseEntry_sublist name entries
  exact proper_directory_iff.2 ⟨hes.1.sublist (hsublist.map _), fun e he => hes.2 e (hsublist.subset he)⟩

theorem mem_splitOnP_of_mem_steps {step : Text} (h : step ∈ steps p) :
    step ∈ List.splitOnP (· == '/') p := by
  rw [steps] at h
  split at h
  · exact List.mem_of_mem_drop h
  · exact h

/-- In front of the first slash of an absolute path is nothing. -/
theorem exists_splitOnP_of_isAbsolute (h : p.isAbsolute = true) :
    ∃ pieces, List.splitOnP (· == '/') p = [] :: pieces := by
  cases p with
  | nil => cases h
  | cons c s =>
      rw [Path.isAbsolute, List.head?_cons, beq_iff_eq, Option.some.injEq] at h
      exact ⟨List.splitOnP (· == '/') s, by simp [h, List.splitOnP_cons_eq_if_modifyHead]⟩

/-- A path that is not refused holds no zero byte. -/
theorem nul_not_mem_of_refuse (h : refuse p = none) : Char.ofNat 0 ∉ p := by
  intro hmem
  rw [refuse, if_pos (by simpa using hmem)] at h
  cases h

/-- The name of a new entry comes from a path, so a disk can hold it. -/
theorem isEntryName_of_locateNew (h : t.locateNew p = .ok (names, last)) (hnew : isNew last = true) :
    IsEntryName last := by
  obtain ⟨hrefuse, -, -, -, hlength⟩ := locateNew_eq_ok_iff.1 h
  have hmem : last ∈ steps p := by
    rw [steps_eq_of_locateNew h hnew]
    exact List.mem_append_right _ (List.mem_singleton_self last)
  have hpiece := mem_splitOnP_of_mem_steps hmem
  refine ⟨⟨hnew, fun hslash => ?_⟩, hlength, fun hnul => ?_⟩
  · simpa using (Text.mem_of_mem_splitOnP hpiece hslash).2
  · exact nul_not_mem_of_refuse hrefuse (Text.mem_of_mem_splitOnP hpiece hnul).1

/-- A directory that is made is new, and stands as an empty one in its parent. -/
theorem makeDirectory_eq_ok (h : t.makeDirectory p = .ok t') :
    ∃ names last, t.locateNew (Text.dropWhileEnd (· == '/') p) = .ok (names, last) ∧
      isNew last = true ∧ t.entryAt? (names ++ [last]) = none ∧
        t' = t.modify (FileTree.putEntry last empty) names := by
  rw [makeDirectory] at h
  cases hlocate : t.locateNew (Text.dropWhileEnd (· == '/') p) with
  | error cause => simp [hlocate] at h
  | ok found =>
      obtain ⟨names, last⟩ := found
      simp only [hlocate] at h
      split at h
      · cases h
      · next hnew =>
        split at h
        · cases h
        · next hat =>
          exact ⟨names, last, rfl, by simpa using hnew, by simp [entryAt?, hat], (Except.ok.inj h).symm⟩

/-- Writing a file keeps a tree proper. -/
theorem Proper.write (h : t.Proper) {content : Option Text} (hwrite : t.write p content = .ok t') :
    t'.Proper := by
  obtain ⟨names, last, hlocate, hnew, -, rfl⟩ := write_eq_ok hwrite
  obtain ⟨-, -, hdirectory, -, -⟩ := locateNew_eq_ok_iff.1 hlocate
  obtain ⟨entries, hat⟩ := entryAt?_eq_directory_iff.1 hdirectory
  exact h.modify hat ((h.of_at? hat).putEntry (isEntryName_of_locateNew hlocate hnew) trivial)

/-! ## Making directories -/

/-- Making a directory changes one place, at which nothing was. -/
theorem entryAt?_makeDirectory (h : t.makeDirectory p = .ok t') :
    ∃ made, t.entryAt? made = none ∧
      ∀ place, t'.entryAt? place = if place = made then some .directory else t.entryAt? place := by
  obtain ⟨names, last, hlocate, -, hnone, rfl⟩ := makeDirectory_eq_ok h
  obtain ⟨-, -, hdirectory, -, -⟩ := locateNew_eq_ok_iff.1 hlocate
  exact ⟨names ++ [last], hnone, entryAt?_modify_putEntry (fun _ _ => rfl) hdirectory (by simp [hnone])⟩

/-- Making a directory keeps a tree proper. -/
theorem Proper.makeDirectory (h : t.Proper) (hmake : t.makeDirectory p = .ok t') : t'.Proper := by
  obtain ⟨names, last, hlocate, hnew, -, rfl⟩ := makeDirectory_eq_ok hmake
  obtain ⟨-, -, hdirectory, -, -⟩ := locateNew_eq_ok_iff.1 hlocate
  obtain ⟨entries, hat⟩ := entryAt?_eq_directory_iff.1 hdirectory
  have hempty : empty.Proper := ⟨List.nodup_nil, trivial⟩
  exact h.modify hat ((h.of_at? hat).putEntry (isEntryName_of_locateNew hlocate hnew) hempty)

/-- What making one directory keeps is kept by making all directories along a path. -/
theorem makeDirectories_induction {P : FileTree → Prop}
    (hstep : ∀ {t t' : FileTree} {p : Path}, P t → t.makeDirectory p = .ok t' → P t') (h : P t)
    (hmake : t.makeDirectories p = .ok t') : P t' := by
  have halong : ∀ (components : List Text) (t : FileTree) (gone : Path), P t →
      makeAlong t gone components = .ok t' → P t' := by
    intro components
    induction components with
    | nil =>
        intro t gone h hmake
        exact Except.ok.inj hmake ▸ h
    | cons step more ih =>
        intro t gone h hmake
        rw [makeAlong] at hmake
        cases hone : t.makeDirectory (Path.join gone step) with
        | ok middle =>
            simp only [hone] at hmake
            exact ih middle _ (hstep h hone) hmake
        | error cause =>
            simp only [hone] at hmake
            split at hmake
            · exact ih t _ h hmake
            · split at hmake <;> cases hmake
  rw [makeDirectories] at hmake
  split at hmake
  · exact Except.ok.inj hmake ▸ h
  · split at hmake
    · cases hmake
    · exact halong _ t [] h hmake

/-! ## Removing -/

/-- Only a directory has something below it. -/
theorem entryAt?_eq_directory_of_append {more : List Text}
    (h : (t.entryAt? (place ++ name :: more)).isSome) : t.entryAt? place = some .directory := by
  rw [entryAt?_append] at h
  rw [entryAt?_eq_directory_iff]
  cases hat : t.at? place with
  | none => simp [hat] at h
  | some u =>
      cases u with
      | file c => simp [hat] at h
      | directory entries => exact ⟨entries, rfl⟩

/-- A walk ends at a place that is there. -/
theorem isSome_of_walk {steps : List Text} (hnames : (t.entryAt? names).isSome)
    (h : walk t names steps = .ok place) : (t.entryAt? place).isSome := by
  induction steps generalizing names with
  | nil => exact Except.ok.inj h ▸ hnames
  | cons step steps ih =>
      rw [walk_cons_eq_ok_iff] at h
      obtain ⟨-, h⟩ := h
      split at h
      · exact ih hnames h
      split at h
      · refine ih ?_ h
        rcases List.eq_nil_or_concat' names with rfl | ⟨above, name, rfl⟩
        · exact hnames
        · rw [List.dropLast_concat, entryAt?_eq_directory_of_append hnames]
          rfl
      · exact ih h.2.1 h.2.2

/-- A walk with a step begins in a directory. -/
theorem directory_of_walk {steps : List Text} (h : walk t names steps = .ok place) (hsteps : steps ≠ []) :
    t.entryAt? names = some .directory := by
  cases steps with
  | nil => exact absurd rfl hsteps
  | cons step steps => exact (walk_cons_eq_ok_iff.1 h).1

/-- A path that is located leads to an entry. -/
theorem isSome_of_locate (h : t.locate p = .ok place) : (t.entryAt? place).isSome :=
  isSome_of_walk (by simp) (locate_eq_ok_iff.1 h).2

/-- What is removed is gone with everything below it, and all other places are as before. -/
theorem entryAt?_remove (h : t.Proper) (hremove : t.remove p = .ok t') :
    ∃ gone, t.locate p = .ok gone ∧ t'.Proper ∧
      ∀ place, t'.entryAt? place = if gone <+: place then none else t.entryAt? place := by
  rw [remove] at hremove
  cases hlocate : t.locate p with
  | error cause => simp [hlocate] at hremove
  | ok gone =>
      simp only [hlocate] at hremove
      rcases List.eq_nil_or_concat' gone with rfl | ⟨names, last, rfl⟩
      · cases hremove
      · rw [List.getLast?_concat] at hremove
        simp only [List.dropLast_concat] at hremove
        obtain rfl := Except.ok.inj hremove
        obtain ⟨entries, hat⟩ :=
          entryAt?_eq_directory_iff.1 (entryAt?_eq_directory_of_append (isSome_of_locate hlocate))
        have hentries := h.of_at? hat
        refine ⟨names ++ [last], rfl, h.modify hat (hentries.eraseEntry last), fun place => ?_⟩
        rw [entryAt?_modify_of _ hat]
        by_cases hprefix : names <+: place
        · obtain ⟨more, rfl⟩ := hprefix
          rw [if_pos (List.prefix_append names more), List.drop_left, entryAt?_append t, hat,
            Option.bind_some]
          simp only [List.prefix_append_right_inj]
          cases more with
          | nil => simp [entry]
          | cons n ns =>
              rw [entryAt?_directory_cons, findEntry_eraseEntry (proper_directory_iff.1 hentries).1,
                entryAt?_directory_cons]
              by_cases hn : last = n
              · simp [hn]
              · simp [hn]
        · rw [if_neg hprefix, if_neg]
          exact fun hlonger => hprefix ((List.prefix_append names [last]).trans hlonger)

/-- What can be walked in a tree can be walked in one that has its directories, if the end is there too. -/
theorem walk_of_directories
    (hdirectory : ∀ place, t.entryAt? place = some .directory → t'.entryAt? place = some .directory)
    {steps : List Text} (hwalk : walk t names steps = .ok place) (hplace : (t'.entryAt? place).isSome) :
    walk t' names steps = .ok place := by
  induction steps generalizing names with
  | nil => exact hwalk
  | cons step steps ih =>
      rw [walk_cons_eq_ok_iff] at hwalk ⊢
      obtain ⟨hnames, hwalk⟩ := hwalk
      refine ⟨hdirectory _ hnames, ?_⟩
      split
      · next hstep => exact ih (by rwa [if_pos hstep] at hwalk)
      · next hstep =>
        rw [if_neg hstep] at hwalk
        split
        · next hparent => exact ih (by rwa [if_pos hparent] at hwalk)
        · next hparent =>
          rw [if_neg hparent] at hwalk
          obtain ⟨hlength, -, hwalk⟩ := hwalk
          refine ⟨hlength, ?_, ih hwalk⟩
          cases steps with
          | nil => exact Except.ok.inj hwalk ▸ hplace
          | cons next steps => rw [hdirectory _ (walk_cons_eq_ok_iff.1 hwalk).1]; rfl

/-! ## Trees that differ in some files -/

/-- Two trees have the same directories and are equal at all places but some. -/
structure AgreeOff (places : Set (List Text)) (t t' : FileTree) : Prop where
  directory : ∀ place, t.entryAt? place = some .directory ↔ t'.entryAt? place = some .directory
  entry : ∀ place, place ∉ places → t.entryAt? place = t'.entryAt? place

section AgreeOff

variable {places : Set (List Text)}

theorem AgreeOff.refl (places : Set (List Text)) (t : FileTree) : AgreeOff places t t where
  directory := fun _ => Iff.rfl
  entry := fun _ _ => rfl

theorem AgreeOff.symm (h : AgreeOff places t t') : AgreeOff places t' t where
  directory := fun place => (h.directory place).symm
  entry := fun place hplace => (h.entry place hplace).symm

theorem AgreeOff.mono {places' : Set (List Text)} (h : AgreeOff places t t')
    (hplaces : places ⊆ places') : AgreeOff places' t t' where
  directory := h.directory
  entry := fun place hplace => h.entry place fun hmem => hplace (hplaces hmem)

theorem AgreeOff.trans (h : AgreeOff places t t') (h' : AgreeOff places t' u) : AgreeOff places t u where
  directory := fun place => (h.directory place).trans (h'.directory place)
  entry := fun place hplace => (h.entry place hplace).trans (h'.entry place hplace)

/-- Trees that differ in one file agree off its place. -/
theorem AgreeOff.of_eq_if {changed : Option Entry} (hmem : place ∈ places)
    (hbefore : t.entryAt? place ≠ some .directory) (hafter : changed ≠ some .directory)
    (h : ∀ q, t'.entryAt? q = if q = place then changed else t.entryAt? q) : AgreeOff places t' t where
  directory := by
    intro q
    rw [h]
    split
    · next heq => simp [heq, hbefore, hafter]
    · rfl
  entry := by
    intro q hq
    rw [h, if_neg]
    rintro rfl
    exact hq hmem

/-- A path leads to the same place in trees that agree elsewhere, as long as the place is there. -/
theorem AgreeOff.locate (h : AgreeOff places t t') (hlocate : t.locate p = .ok place)
    (hplace : (t'.entryAt? place).isSome) : t'.locate p = .ok place := by
  rw [locate_eq_ok_iff] at hlocate ⊢
  exact ⟨hlocate.1, walk_of_directories (fun q => (h.directory q).1) hlocate.2 hplace⟩

/-- The second tree has the directories of the first, and its files but at some places. -/
structure KeepsFiles (places : Set (List Text)) (t t' : FileTree) : Prop where
  directory : ∀ place, t.entryAt? place = some .directory → t'.entryAt? place = some .directory
  file : ∀ place content, place ∉ places → t.entryAt? place = some (.file content) →
    t'.entryAt? place = some (.file content)

/-- Trees that agree off some places keep the files off these places. -/
theorem AgreeOff.keepsFiles (h : AgreeOff places t t') : KeepsFiles places t t' where
  directory := fun place => (h.directory place).1
  file := fun place _ hplace hfile => h.entry place hplace ▸ hfile

theorem KeepsFiles.refl (places : Set (List Text)) (t : FileTree) : KeepsFiles places t t :=
  (AgreeOff.refl places t).keepsFiles

theorem KeepsFiles.trans (h : KeepsFiles places t t') (h' : KeepsFiles places t' u) :
    KeepsFiles places t u where
  directory := fun place hplace => h'.directory place (h.directory place hplace)
  file := fun place content hplace hfile => h'.file place content hplace (h.file place content hplace hfile)

/-- Making a directory changes no file. -/
theorem keepsFiles_makeDirectory (places : Set (List Text)) (h : t.makeDirectory p = .ok t') :
    KeepsFiles places t t' := by
  obtain ⟨made, hnone, hmade⟩ := entryAt?_makeDirectory h
  have hne {place : List Text} {e : Entry} (he : t.entryAt? place = some e) :
      t'.entryAt? place = some e := by
    rw [hmade, if_neg, he]
    rintro rfl
    rw [hnone] at he
    cases he
  exact ⟨fun place => hne, fun place content _ => hne⟩

end AgreeOff

end FileTree

end Viewloom
