import Viewloom.Page
import Viewloom.Proofs.Entries

/-!
# Pages in a tree

A page that has been found in a tree can be walked to, and what stands there is a file with the extension
of pages. So the sources of pages do not change as long as only other files do.
-/

namespace Viewloom

namespace FileTree

variable {t t' u : FileTree} {p base : Path} {place : List Text} {entries : List (Text × FileTree)}

theorem at?_append (t : FileTree) (place more : List Text) :
    t.at? (place ++ more) = (t.at? place).bind fun u => u.at? more := by
  induction place generalizing t with
  | nil => cases t <;> rfl
  | cons name place ih =>
      cases t with
      | file content => rfl
      | directory entries =>
          rw [List.cons_append, at?, at?]
          cases findEntry name entries with
          | none => rfl
          | some u => exact ih u

theorem findEntry_of_mem (hnodup : (entries.map Prod.fst).Nodup) {e : Text × FileTree}
    (he : e ∈ entries) : findEntry e.1 entries = some e.2 := by
  induction entries with
  | nil => cases he
  | cons f entries ih =>
      rw [List.map_cons, List.nodup_cons] at hnodup
      rcases List.mem_cons.1 he with rfl | he
      · rw [findEntry, if_pos rfl]
      · have hne : f.1 ≠ e.1 := fun heq => hnodup.1 (heq ▸ List.mem_map_of_mem he)
        rw [findEntry, if_neg hne, ih hnodup.2 he]

theorem join_ne_nil (hbase : base ≠ []) (name : Text) : Path.join base name ≠ [] := by
  rw [Path.join]
  split
  · next h =>
    intro hname
    simp [hname, Path.isAbsolute, hbase] at h
  split
  · simp [hbase]
  · simp

mutual

/-- The files below a place can be walked to. -/
theorem exists_walk_of_mem_filesBelow : ∀ (u : FileTree) {base : Path} {place : List Text},
    base ≠ [] → t.walk [] (steps base) = .ok place → t.at? place = some u → u.Proper →
      p ∈ filesBelow base u →
        ∃ q content, t.walk [] (steps p) = .ok q ∧ t.entryAt? q = some (.file content)
  | file content, base, place, _, hwalk, hat, _, hp => by
      obtain rfl := List.mem_singleton.1 hp
      exact ⟨place, content, hwalk, entryAt?_eq_file_iff.2 hat⟩
  | directory entries, base, place, hbase, hwalk, hat, hproper, hp => by
      have hentries := proper_directory_iff.1 hproper
      rw [filesBelow] at hp
      exact exists_walk_of_mem_filesIn entries hbase hwalk hat
        (fun e he => ⟨findEntry_of_mem hentries.1 he, hentries.2 e he⟩) hp

/-- Every path among the files of a directory leads to a file. -/
theorem exists_walk_of_mem_filesIn : ∀ (rest : List (Text × FileTree)) {base : Path}
    {place : List Text} {entries : List (Text × FileTree)},
    base ≠ [] → t.walk [] (steps base) = .ok place → t.at? place = some (directory entries) →
      (∀ e ∈ rest, findEntry e.1 entries = some e.2 ∧ IsEntryName e.1 ∧ e.2.Proper) →
        p ∈ filesIn base rest →
          ∃ q content, t.walk [] (steps p) = .ok q ∧ t.entryAt? q = some (.file content)
  | [], _, _, _, _, _, _, _, hp => by cases hp
  | (name, u) :: more, base, place, entries, hbase, hwalk, hat, hall, hp => by
      rw [List.forall_mem_cons] at hall
      obtain ⟨hfind, hname, hproper⟩ := hall.1
      rw [filesIn, List.mem_append] at hp
      rcases hp with hp | hp
      · have hatname : t.at? (place ++ [name]) = some u := by
          rw [at?_append, hat, Option.bind_some, at?, hfind]
          cases u <;> rfl
        obtain ⟨before, hbefore, hwalkbefore⟩ := exists_walk_before (.inl ⟨hbase, hwalk⟩)
        have hone : t.walk place [name] = .ok (place ++ [name]) :=
          (walk_singleton_eq_ok_iff hname.isFileName).2
            ⟨entryAt?_eq_directory_iff.2 ⟨entries, hat⟩, hname.length_le,
              by rw [entryAt?, hatname]; rfl, rfl⟩
        have hjoin : t.walk [] (steps (Path.join base name)) = .ok (place ++ [name]) := by
          rw [hbefore name hname.isFileName.2]
          exact walk_append_eq_ok_iff.2 ⟨place, hwalkbefore, hone⟩
        exact exists_walk_of_mem_filesBelow u (join_ne_nil hbase name) hjoin hatname hproper hp
      · exact exists_walk_of_mem_filesIn more hbase hwalk hat hall.2 hp

end

/-- Empty steps and single points lead nowhere. -/
theorem walk_blanks {names steps : List Text} (hsteps : ∀ s ∈ steps, s = [] ∨ s = ['.'])
    (h : t.walk names steps = .ok place) : place = names := by
  induction steps with
  | nil => exact (Except.ok.inj h).symm
  | cons step steps ih =>
      rw [List.forall_mem_cons] at hsteps
      rw [walk_cons_eq_ok_iff, if_pos hsteps.1] at h
      exact ih hsteps.2 h.2

/-- Behind the last name of a path, only steps that lead nowhere are left. -/
theorem exists_steps_of_fileName? {name : Text} (hname : p.fileName? = some name) :
    ∃ before after, steps p = before ++ name :: after ∧ (∀ s ∈ after, s = [] ∨ s = ['.']) ∧
      name ≠ [] ∧ name ≠ ['.'] ∧ name ≠ text ".." := by
  obtain ⟨ps, piece, hpieces, hpiece⟩ : ∃ ps piece, Path.pieces p = ps ++ [piece] ∧
      (Path.Component.ofPiece piece).name? = some name := by
    rw [Path.fileName?, Path.components] at hname
    rcases List.eq_nil_or_concat' (Path.pieces p) with hnil | ⟨ps, piece, hpieces⟩
    · rw [hnil] at hname
      split at hname
      · cases hname
      · split at hname <;> cases hname
    · refine ⟨ps, piece, hpieces, ?_⟩
      rwa [hpieces, List.map_append, List.map_singleton, ← List.append_assoc, List.getLast?_concat] at hname
  obtain ⟨rfl, hparent⟩ : piece = name ∧ piece ≠ text ".." := by
    rw [Path.Component.ofPiece] at hpiece
    split at hpiece
    · cases hpiece
    · next hparent =>
      split at hpiece
      · cases hpiece
      · exact ⟨Option.some.inj hpiece, hparent⟩
  rw [Path.pieces] at hpieces
  obtain ⟨front, rest, hfront, -, hrest⟩ := List.filter_eq_append_iff.1 hpieces
  obtain ⟨blanks, after, rfl, -, hnotblank, hafter⟩ := List.filter_eq_cons_iff.1 hrest
  simp only [Bool.and_eq_true, bne_iff_ne] at hnotblank
  have hblank : ∀ s ∈ after, s = [] ∨ s = ['.'] := by
    intro s hs
    have := List.filter_eq_nil_iff.1 hafter s hs
    simp only [Bool.and_eq_true, bne_iff_ne, ne_eq] at this
    tauto
  rw [← List.append_assoc] at hfront
  rw [steps]
  split
  · next habsolute =>
    obtain ⟨pieces, hhead⟩ := exists_splitOnP_of_isAbsolute habsolute
    cases hcase : front ++ blanks with
    | nil =>
        rw [hcase, hhead] at hfront
        exact absurd (List.cons.inj hfront).1.symm hnotblank.1
    | cons first before =>
        rw [hcase] at hfront
        exact ⟨before, after, by rw [hfront]; rfl, hblank, hnotblank.1, hnotblank.2, hparent⟩
  · exact ⟨front ++ blanks, after, hfront, hblank, hnotblank.1, hnotblank.2, hparent⟩

/-- A path whose last component is a name leads to an entry of that name. -/
theorem exists_of_fileName? {name : Text} (hname : p.fileName? = some name)
    (h : t.walk [] (steps p) = .ok place) : ∃ above, place = above ++ [name] := by
  obtain ⟨before, after, hsteps, hblank, hempty, hpoint, hparent⟩ := exists_steps_of_fileName? hname
  rw [hsteps, walk_append_eq_ok_iff] at h
  obtain ⟨middle, -, h⟩ := h
  rw [walk_cons_eq_ok_iff, if_neg (by simp [hempty, hpoint]), if_neg hparent] at h
  exact ⟨middle, walk_blanks hblank h.2.2.2⟩

end FileTree

namespace Page

open Cache (entryPlaces)
open FileTree (KeepsFiles)

variable {t t' : FileTree} {root : Path} {page : Page} {pages : List Page}

/-- The extension of an entry is not the one of pages. -/
theorem not_isPage_of_json {p : Path} {base : Text} (hname : p.fileName? = some (base ++ text ".json")) :
    isPage p = false := by
  have hending : (base ++ text ".json").reverse.takeWhile (· != '.') = (text "json").reverse := by
    rw [List.reverse_append]
    rfl
  rw [isPage, Path.extension?, hname, Option.bind_some, Path.splitName, hending]
  split
  · next ending heq =>
    split at heq
    · cases heq
    · obtain rfl := Option.some.inj heq
      decide
  · rfl

/-- A page keeps the path that it has been made of. -/
theorem path_of_ofPath {path : Path} (h : ofPath root path = some page) : page.path = path := by
  rw [ofPath] at h
  split at h
  · obtain ⟨label, -, rfl⟩ := Option.map_eq_some_iff.1 h
    rfl
  · cases h

/-- What has been found is the page of a file below the root. -/
theorem exists_of_mem_discover (h : discover t root = .ok pages) (hpage : page ∈ pages) :
    ∃ u, t.look root = .ok u ∧ page.path ∈ u.filesBelow root ∧ ofPath root page.path = some page := by
  rw [discover] at h
  split at h
  · next u hlook =>
    obtain rfl := Except.ok.inj h
    rw [ofPaths, List.mem_mergeSort, List.mem_filterMap] at hpage
    obtain ⟨p, hp, hof⟩ := hpage
    obtain rfl := path_of_ofPath hof
    exact ⟨u, hlook, hp, hof⟩
  · cases h

/-- A page has a file name. -/
theorem exists_fileName_of_isPage {p : Path} (h : isPage p = true) : ∃ name, p.fileName? = some name := by
  rw [isPage, Path.extension?] at h
  cases hname : p.fileName? with
  | none => simp [hname] at h
  | some name => exact ⟨name, rfl⟩

/-- What is made a page has the ending of pages. -/
theorem isPage_of_ofPath {p : Path} (h : ofPath root p = some page) : isPage p = true := by
  rw [ofPath] at h
  split at h
  · assumption
  · cases h

/-- A page that has been found can be walked to, and a file is there that is not called like an entry. -/
theorem exists_walk_of_mem_discover (hproper : t.Proper) (h : discover t root = .ok pages)
    (hpage : page ∈ pages) :
    ∃ place content, t.walk [] (FileTree.steps page.path) = .ok place ∧
      t.entryAt? place = some (.file content) ∧ place ∉ entryPlaces := by
  obtain ⟨u, hlook, hmem, hof⟩ := exists_of_mem_discover h hpage
  rw [FileTree.look] at hlook
  cases hlocate : t.locate root with
  | error cause => simp [hlocate] at hlook
  | ok place =>
      simp only [hlocate] at hlook
      cases hat : t.at? place with
      | none => simp [hat] at hlook
      | some v =>
          simp only [hat] at hlook
          obtain rfl := Except.ok.inj hlook
          obtain ⟨hrefuse, hwalk⟩ := FileTree.locate_eq_ok_iff.1 hlocate
          have hroot : root ≠ [] := by
            rintro rfl
            cases hrefuse
          obtain ⟨q, content, hq, hfile⟩ :=
            FileTree.exists_walk_of_mem_filesBelow v hroot hwalk hat (hproper.of_at? hat) hmem
          refine ⟨q, content, hq, hfile, ?_⟩
          rintro ⟨above, path, heq⟩
          have hispage := isPage_of_ofPath hof
          obtain ⟨name, hname⟩ := exists_fileName_of_isPage hispage
          obtain ⟨above', hplace⟩ := FileTree.exists_of_fileName? hname hq
          obtain ⟨-, hlast⟩ := List.append_inj' (hplace.symm.trans heq) rfl
          rw [not_isPage_of_json (hname.trans (congrArg some (List.singleton_inj.1 hlast)))] at hispage
          cases hispage

/-- The source of a page stays as long as only files that are called like entries change. -/
theorem read_eq_of_keepsFiles (hproper : t.Proper) (h : discover t root = .ok pages) (hpage : page ∈ pages)
    (hkeeps : KeepsFiles entryPlaces t t') : page.read t' = page.read t := by
  obtain ⟨place, content, hwalk, hfile, hplace⟩ := exists_walk_of_mem_discover hproper h hpage
  have hfile' := hkeeps.file place content hplace hfile
  have hlook : t'.look page.path = t.look page.path := by
    have hwalk' := FileTree.walk_of_directories hkeeps.directory hwalk (by rw [hfile']; rfl)
    rw [FileTree.look, FileTree.look, FileTree.locate, FileTree.locate, hwalk, hwalk']
    cases FileTree.refuse page.path with
    | some cause => rfl
    | none =>
        simp only [FileTree.entryAt?_eq_file_iff.1 hfile, FileTree.entryAt?_eq_file_iff.1 hfile']
  rw [read, read, FileTree.read, FileTree.read, hlook]

/-! ## Labels -/

/-- Words that are put together hold the characters of the separator and their own. -/
theorem mem_of_mem_joinedWords {separator : Text} {words : List Text} {c : Char}
    (h : c ∈ List.intercalate separator words) : c ∈ separator ∨ ∃ word ∈ words, c ∈ word := by
  induction words with
  | nil => cases h
  | cons word words ih =>
      rcases eq_or_ne words [] with rfl | hne
      · rw [List.intercalate_singleton] at h
        exact .inr ⟨word, List.mem_singleton_self word, h⟩
      · rw [List.intercalate_cons_of_ne_nil hne, List.mem_append, List.mem_append] at h
        rcases h with (h | h) | h
        · exact .inr ⟨word, List.mem_cons_self, h⟩
        · exact .inl h
        · exact (ih h).imp_right fun ⟨w, hw, hc⟩ => ⟨w, List.mem_cons_of_mem word hw, hc⟩

/-- What is behind a directory in a path is part of the path. -/
theorem mem_of_mem_behind {base cs behind : List Path.Component} (h : Path.behind? base cs = some behind)
    {c : Path.Component} (hc : c ∈ behind) : c ∈ cs := by
  induction base generalizing cs with
  | nil => exact Option.some.inj h ▸ hc
  | cons b base ih =>
      cases cs with
      | nil => cases h
      | cons d cs =>
          rw [Path.behind?] at h
          split at h
          · exact List.mem_cons_of_mem d (ih h)
          · cases h

/-- The names that are left without the extension are beginnings of names. -/
theorem exists_name_of_withoutExtension {cs : List Path.Component} {word : Text}
    (h : word ∈ (Path.withoutExtension cs).filterMap Path.Component.name?) :
    ∃ name, Path.Component.name name ∈ cs ∧ word <+: name := by
  have hof {piece : Text} (hname : (Path.Component.ofPiece piece).name? = some word) : word = piece := by
    rw [Path.Component.ofPiece] at hname
    split at hname
    · cases hname
    · split at hname
      · cases hname
      · exact (Option.some.inj hname).symm
  fun_induction Path.withoutExtension cs with
  | case1 => cases h
  | case2 name =>
      obtain ⟨c, hc, hname⟩ := List.mem_filterMap.1 h
      obtain rfl := List.mem_singleton.1 hc
      refine ⟨name, List.mem_singleton_self _, hof hname ▸ ?_⟩
      rw [Path.splitName]
      split
      · exact List.prefix_rfl
      · exact List.take_prefix _ name
  | case3 c cs _ ih =>
      obtain ⟨d, hd, hname⟩ := List.mem_filterMap.1 h
      rcases List.mem_cons.1 hd with rfl | hd
      · cases d with
        | name name =>
            obtain rfl := Option.some.inj hname
            exact ⟨_, List.mem_cons_self, List.prefix_rfl⟩
        | root => cases hname
        | current => cases hname
        | parent => cases hname
      · obtain ⟨name, hmem, hbegins⟩ := ih (List.mem_filterMap.2 ⟨d, hd, hname⟩)
        exact ⟨name, List.mem_cons_of_mem c hmem, hbegins⟩

theorem mem_of_mem_component {p : Path} {name : Text} (h : Path.Component.name name ∈ p.components)
    {c : Char} (hc : c ∈ name) : c ∈ p := by
  rw [Path.components, List.mem_append] at h
  rcases h with h | h
  · split at h
    · cases List.mem_singleton.1 h
    · split at h
      · cases List.mem_singleton.1 h
      · cases h
  · obtain ⟨piece, hpiece, hof⟩ := List.mem_map.1 h
    obtain rfl : piece = name := by
      rw [Path.Component.ofPiece] at hof
      split at hof
      · cases hof
      · split at hof
        · cases hof
        · exact Path.Component.name.inj hof
    exact (Text.mem_of_mem_splitOnP (List.mem_of_mem_filter hpiece) hc).1

/-- The characters of a label stand in the path of the page, or are the spaces between words. -/
theorem mem_of_mem_label (h : ofPath root page.path = some page) {c : Char} (hc : c ∈ page.label) :
    c ∈ page.path ∨ c = ' ' := by
  rw [ofPath, if_pos (isPage_of_ofPath h)] at h
  obtain ⟨label, hlabel, heq⟩ := Option.map_eq_some_iff.1 h
  rw [← heq] at hc ⊢
  simp only at hc ⊢
  rw [labelOf] at hlabel
  cases hbehind : Path.behind? root.components page.path.components with
  | none => simp [hbehind] at hlabel
  | some behind =>
      simp only [hbehind] at hlabel
      split at hlabel
      · cases hlabel
      · rw [← Option.some.inj hlabel] at hc
        rcases mem_of_mem_joinedWords hc with hspace | ⟨word, hword, hc⟩
        · exact .inr (List.mem_singleton.1 hspace)
        · obtain ⟨name, hname, hbegins⟩ := exists_name_of_withoutExtension hword
          exact .inl (mem_of_mem_component (mem_of_mem_behind hbehind hname) (hbegins.subset hc))

/-- A page that can be read has no zero in its label. -/
theorem nul_not_mem_label (h : discover t root = .ok pages) (hpage : page ∈ pages) {source : Text}
    (hread : page.read t' = .ok source) : Char.ofNat 0 ∉ page.label := by
  obtain ⟨-, -, -, hof⟩ := exists_of_mem_discover h hpage
  have hrefuse : FileTree.refuse page.path = none := by
    rw [read] at hread
    split at hread
    · next content hcontent =>
      obtain ⟨place, hlocate, -⟩ := FileTree.read_eq_ok_iff.1 hcontent
      exact (FileTree.locate_eq_ok_iff.1 hlocate).1
    · cases hread
  intro hnul
  rcases mem_of_mem_label hof hnul with hmem | hspace
  · exact FileTree.nul_not_mem_of_refuse hrefuse hmem
  · exact absurd hspace (by decide)

end Page

end Viewloom
