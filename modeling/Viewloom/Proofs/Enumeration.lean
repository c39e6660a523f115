import Mathlib.Data.List.Nodup
import Viewloom.Proofs.Agreement
import Viewloom.Proofs.PageFiles

/-!
# Enumerated directories

A disk may enumerate the entries of a directory in any order. Pages are sorted by their labels only, so
pages that share a label stay in the order in which the files are enumerated, and no others do.
-/

namespace Viewloom

namespace FileTree

variable {t t' u : FileTree} {base p : Path} {name : Text} {place : List Text}
  {entries entries' : List (Text × FileTree)}

/-! ## Reordered trees -/

mutual

/-- Two trees with the same files, in directories that may be enumerated in other orders. -/
inductive Reordered : FileTree → FileTree → Prop where
  | file (content : Option Text) : Reordered (file content) (file content)
  | directory {entries entries' : List (Text × FileTree)} : ReorderedIn entries entries' →
    Reordered (directory entries) (directory entries')

/-- The same entries in any order, with reordered trees. -/
inductive ReorderedIn : List (Text × FileTree) → List (Text × FileTree) → Prop where
  | nil : ReorderedIn [] []
  | cons {t t' : FileTree} {entries entries' : List (Text × FileTree)} (name : Text) :
    Reordered t t' → ReorderedIn entries entries' →
      ReorderedIn ((name, t) :: entries) ((name, t') :: entries')
  | swap (e f : Text × FileTree) (entries : List (Text × FileTree)) :
    ReorderedIn (f :: e :: entries) (e :: f :: entries)
  | trans {entries entries' entries'' : List (Text × FileTree)} : ReorderedIn entries entries' →
    ReorderedIn entries' entries'' → ReorderedIn entries entries''

end

mutual

/-- A tree is enumerated as it stands. -/
theorem Reordered.refl : ∀ t : FileTree, Reordered t t
  | file content => .file content
  | directory entries => .directory (ReorderedIn.refl entries)

theorem ReorderedIn.refl : ∀ entries : List (Text × FileTree), ReorderedIn entries entries
  | [] => .nil
  | (name, t) :: entries => .cons name (Reordered.refl t) (ReorderedIn.refl entries)

end

/-- Entries may be listed in any order. -/
theorem ReorderedIn.of_perm (h : entries.Perm entries') : ReorderedIn entries entries' := by
  induction h with
  | nil => exact .nil
  | cons e _ ih => exact .cons e.1 (Reordered.refl e.2) ih
  | swap e f entries => exact .swap e f entries
  | trans _ _ ih ih' => exact ih.trans ih'

/-- Another order has the same names. -/
theorem ReorderedIn.perm_names {entries entries' : List (Text × FileTree)} :
    ReorderedIn entries entries' → (entries.map Prod.fst).Perm (entries'.map Prod.fst)
  | .nil => List.Perm.refl _
  | .cons name _ h => h.perm_names.cons name
  | .swap e f _ => List.Perm.swap e.1 f.1 _
  | .trans h h' => h.perm_names.trans h'.perm_names

theorem Reordered.trans (h : Reordered t t') (h' : Reordered t' u) : Reordered t u := by
  cases h with
  | file content => exact h'
  | directory h =>
      cases h' with
      | directory h' => exact .directory (h.trans h')

theorem filesIn_append (base : Path) (entries more : List (Text × FileTree)) :
    filesIn base (entries ++ more) = filesIn base entries ++ filesIn base more := by
  induction entries with
  | nil => rfl
  | cons e entries ih => rw [List.cons_append, filesIn, filesIn, ih, List.append_assoc]

mutual

/-- Reordered trees hold the same files. -/
theorem Reordered.perm_filesBelow {t t' : FileTree} :
    Reordered t t' → ∀ base, (filesBelow base t).Perm (filesBelow base t')
  | .file content, base => List.Perm.refl _
  | .directory h, base => h.perm_filesIn base

/-- Another order has the same files. -/
theorem ReorderedIn.perm_filesIn {entries entries' : List (Text × FileTree)} :
    ReorderedIn entries entries' → ∀ base, (filesIn base entries).Perm (filesIn base entries')
  | .nil, _ => List.Perm.refl _
  | .cons name ht h, base => (ht.perm_filesBelow (Path.join base name)).append (h.perm_filesIn base)
  | .swap e f entries, base => by
      rw [filesIn, filesIn, filesIn, filesIn, ← List.append_assoc, ← List.append_assoc]
      exact List.perm_append_comm.append_right _
  | .trans h h', base => (h.perm_filesIn base).trans (h'.perm_filesIn base)

end

/-! ## Looking into reordered trees -/

/-- Whether there is nothing in two places, or what is there is reordered. -/
abbrev RelatedAt : Option FileTree → Option FileTree → Prop := Option.Rel Reordered

theorem RelatedAt.refl (found : Option FileTree) : RelatedAt found found := by
  cases found with
  | none => exact .none
  | some t => exact .some (Reordered.refl t)

theorem RelatedAt.trans {a b c : Option FileTree} (h : RelatedAt a b) (h' : RelatedAt b c) :
    RelatedAt a c := by
  cases h with
  | none => exact h'
  | some h =>
      cases h' with
      | some h' => exact .some (h.trans h')

/-- Whether trees at a name correspond is decided by the entries that have it. -/
theorem RelatedAt.findEntry_cons {m : Text} (ht : Reordered t t')
    (h : RelatedAt (findEntry name entries) (findEntry name entries')) :
    RelatedAt (findEntry name ((m, t) :: entries)) (findEntry name ((m, t') :: entries')) := by
  rw [findEntry, findEntry]
  split
  · exact .some ht
  · exact h

/-- Entries of different names may change places. -/
theorem RelatedAt.findEntry_swap {e f : Text × FileTree} (hne : f.1 ≠ e.1) :
    RelatedAt (findEntry name (f :: e :: entries)) (findEntry name (e :: f :: entries)) := by
  rw [findEntry, findEntry, findEntry, findEntry]
  by_cases he : e.1 = name
  · rw [if_neg fun hf => hne (hf.trans he.symm), if_pos he, if_pos he]
    exact RelatedAt.refl _
  · rw [if_neg he, if_neg he]
    exact RelatedAt.refl _

/-- Each name leads to the same entry in another order. -/
theorem ReorderedIn.findEntry {entries entries' : List (Text × FileTree)} :
    ReorderedIn entries entries' → (entries.map Prod.fst).Nodup →
      ∀ name, RelatedAt (findEntry name entries) (findEntry name entries')
  | .nil, _, _ => .none
  | .cons _ ht h, hnodup, name => .findEntry_cons ht (h.findEntry (List.nodup_cons.1 hnodup).2 name)
  | .swap _ _ _, hnodup, _ =>
      .findEntry_swap fun heq => (List.nodup_cons.1 hnodup).1 (heq ▸ List.mem_cons_self)
  | .trans h h', hnodup, name =>
      (h.findEntry hnodup name).trans (h'.findEntry (h.perm_names.nodup_iff.1 hnodup) name)

/-- At every place, trees that differ in their order correspond. -/
theorem Reordered.at? (h : Reordered t t') (hproper : t.Proper) (place : List Text) :
    RelatedAt (t.at? place) (t'.at? place) := by
  induction place generalizing t t' with
  | nil => cases h with
      | file content => exact .some (.file content)
      | directory h => exact .some (.directory h)
  | cons name place ih =>
      cases h with
      | file content => exact .none
      | @directory entries entries' h =>
          obtain ⟨hnodup, hentries⟩ := proper_directory_iff.1 hproper
          have hfound := h.findEntry hnodup name
          rw [FileTree.at?, FileTree.at?]
          generalize hfind : FileTree.findEntry name entries = found at hfound ⊢
          generalize FileTree.findEntry name entries' = found' at hfound ⊢
          cases hfound with
          | none => exact .none
          | some hu => exact ih hu (hentries _ (mem_of_findEntry hfind)).2

theorem Reordered.entry_eq (h : Reordered t t') : t.entry = t'.entry := by
  cases h <;> rfl

/-- Trees that differ in their order have the same entries. -/
theorem Reordered.entryAt?_eq (h : Reordered t t') (hproper : t.Proper) (place : List Text) :
    t.entryAt? place = t'.entryAt? place := by
  have hat := h.at? hproper place
  rw [entryAt?, entryAt?]
  generalize t.at? place = found at hat
  generalize t'.at? place = found' at hat
  cases hat with
  | none => rfl
  | some hu => exact congrArg some hu.entry_eq

theorem avoids_empty (names steps : List Text) : Avoids ∅ names steps := by
  induction steps generalizing names with
  | nil => exact Set.notMem_empty names
  | cons step steps ih => exact ⟨Set.notMem_empty names, ih _⟩

/-- Trees that differ in their order have the same places. -/
theorem Reordered.locate_eq (h : Reordered t t') (hproper : t.Proper) (p : Path) :
    t.locate p = t'.locate p := by
  have hagree : AgreeOff ∅ t t' :=
    { directory := fun place => by rw [h.entryAt?_eq hproper]
      entry := fun place _ => h.entryAt?_eq hproper place }
  rw [locate, locate, hagree.walk_eq (avoids_empty [] (steps p))]

/-- A path leads to the same place in another order, or to nothing for the same cause. -/
theorem Reordered.look (h : Reordered t t') (hproper : t.Proper) (p : Path) :
    (∃ cause, t.look p = .error cause ∧ t'.look p = .error cause) ∨
      ∃ u u', t.look p = .ok u ∧ t'.look p = .ok u' ∧ Reordered u u' := by
  rw [FileTree.look, FileTree.look, ← h.locate_eq hproper]
  cases t.locate p with
  | error cause => exact .inl ⟨cause, rfl, rfl⟩
  | ok place =>
      have hat := h.at? hproper place
      simp only
      generalize t.at? place = found at hat
      generalize t'.at? place = found' at hat
      cases hat with
      | none => exact .inl ⟨_, rfl, rfl⟩
      | some hu => exact .inr ⟨_, _, rfl, rfl, hu⟩

theorem Proper.of_look (hproper : t.Proper) (h : t.look p = .ok u) : u.Proper := by
  rw [FileTree.look] at h
  cases hlocate : t.locate p with
  | error cause => simp [hlocate] at h
  | ok place =>
      cases hat : t.at? place with
      | none => simp [hlocate, hat] at h
      | some v =>
          simp only [hlocate, hat] at h
          exact Except.ok.inj h ▸ hproper.of_at? hat

/-! ## Trees enumerated backwards -/

mutual

/-- A tree with every directory enumerated backwards. -/
def reversed : FileTree → FileTree
  | file content => file content
  | directory entries => directory (reversedIn entries)

/-- The entries of a directory the other way round, at every depth. -/
def reversedIn : List (Text × FileTree) → List (Text × FileTree)
  | [] => []
  | (name, t) :: entries => reversedIn entries ++ [(name, reversed t)]

end

mutual

/-- The other way round is one of the orders. -/
theorem reordered_reversed : ∀ t : FileTree, Reordered t t.reversed
  | file content => .file content
  | directory entries => .directory (reorderedIn_reversedIn entries)

theorem reorderedIn_reversedIn : ∀ entries : List (Text × FileTree),
    ReorderedIn entries (reversedIn entries)
  | [] => .nil
  | (name, t) :: entries => by
      have hcons := ReorderedIn.cons name (reordered_reversed t) (reorderedIn_reversedIn entries)
      exact hcons.trans (.of_perm (List.perm_append_singleton _ _).symm)

end

mutual

/-- The files of a tree the other way round are its files the other way round. -/
theorem filesBelow_reversed : ∀ (t : FileTree) (base : Path),
    filesBelow base t.reversed = (filesBelow base t).reverse
  | file _, _ => rfl
  | directory entries, base => filesIn_reversedIn entries base

theorem filesIn_reversedIn : ∀ (entries : List (Text × FileTree)) (base : Path),
    filesIn base (reversedIn entries) = (filesIn base entries).reverse
  | [], _ => rfl
  | (name, t) :: entries, base => by
      rw [reversedIn, filesIn_append, filesIn_reversedIn entries base, filesIn, filesIn, filesIn,
        filesBelow_reversed t, List.reverse_append, List.append_nil]

end

theorem findEntry_append (name : Text) (entries more : List (Text × FileTree)) :
    findEntry name (entries ++ more) = (findEntry name entries).or (findEntry name more) := by
  induction entries with
  | nil => rfl
  | cons e entries ih =>
      rw [List.cons_append, findEntry, findEntry, ih]
      split <;> rfl

/-- With each name once, entries are found the other way round as well. -/
theorem findEntry_reversedIn (hnodup : (entries.map Prod.fst).Nodup) (name : Text) :
    findEntry name (reversedIn entries) = (findEntry name entries).map reversed := by
  induction entries with
  | nil => rfl
  | cons e entries ih =>
      obtain ⟨m, u⟩ := e
      rw [List.map_cons, List.nodup_cons] at hnodup
      rw [reversedIn, findEntry_append, ih hnodup.2, findEntry, findEntry, findEntry]
      split
      · next hm =>
          have hnone : findEntry name entries = none := findEntry_eq_none_iff.2 (hm ▸ hnodup.1)
          rw [hnone]
          rfl
      · exact Option.or_none

/-- The same places lead to the same trees, the other way round. -/
theorem at?_reversed (hproper : t.Proper) (place : List Text) :
    t.reversed.at? place = (t.at? place).map reversed := by
  induction place generalizing t with
  | nil => cases t <;> rfl
  | cons name place ih =>
      cases t with
      | file content => rfl
      | directory entries =>
          obtain ⟨hnodup, hentries⟩ := proper_directory_iff.1 hproper
          rw [reversed, at?, at?, findEntry_reversedIn hnodup]
          cases hfind : findEntry name entries with
          | none => rfl
          | some u => exact ih (hentries _ (mem_of_findEntry hfind)).2

theorem look_reversed (hproper : t.Proper) (p : Path) :
    t.reversed.look p = (t.look p).map reversed := by
  rw [look, look, ← (reordered_reversed t).locate_eq hproper]
  cases t.locate p with
  | error cause => rfl
  | ok place =>
      simp only [at?_reversed hproper]
      cases t.at? place <;> rfl

/-! ## Different paths -/

/-- A name ends at the next separator. -/
theorem takeWhile_name {more : Text} (hname : '/' ∉ name) (hmore : more.head?.all (· == '/') = true) :
    (name ++ more).takeWhile (· != '/') = name := by
  have hall : ∀ c ∈ name, (c != '/') = true := by
    intro c hc
    rw [bne_iff_ne]
    rintro rfl
    exact hname hc
  rw [List.takeWhile_append_of_pos hall]
  cases more with
  | nil => exact List.append_nil name
  | cons c more =>
      have hc : c = '/' := by simpa using hmore
      rw [hc, List.takeWhile_cons_of_neg (by simp), List.append_nil]

mutual

/-- The path of a file goes on behind the path of a directory above it. -/
theorem exists_append_of_mem_filesBelow : ∀ (t : FileTree) {base : Path}, base ≠ [] →
    base.getLast? ≠ some '/' → t.Proper → p ∈ filesBelow base t →
      ∃ more, p = base ++ more ∧ more.head?.all (· == '/') = true
  | file _, base, _, _, _, hp => ⟨[], by rw [List.mem_singleton.1 hp, List.append_nil], rfl⟩
  | directory entries, base, hne, hlast, hproper, hp => by
      have hentries := (proper_directory_iff.1 hproper).2
      obtain ⟨e, he, more, rfl, -⟩ := exists_append_of_mem_filesIn entries hentries hp
      have hjoin : Path.join base e.1 = base ++ '/' :: e.1 := by
        have hrelative := Path.isAbsolute_eq_false (hentries e he).1.isFileName.2
        rw [Path.join, if_neg (by simp [hrelative, hne]), if_neg (by simpa using hlast)]
      exact ⟨'/' :: e.1 ++ more, by rw [hjoin, List.append_assoc], rfl⟩

/-- The path of a file in a directory begins with that of an entry. -/
theorem exists_append_of_mem_filesIn : ∀ (entries : List (Text × FileTree)) {base : Path},
    (∀ e ∈ entries, IsEntryName e.1 ∧ e.2.Proper) → p ∈ filesIn base entries →
      ∃ e ∈ entries, ∃ more, p = Path.join base e.1 ++ more ∧ more.head?.all (· == '/') = true
  | [], _, _, hp => by cases hp
  | (name, t) :: entries, base, hentries, hp => by
      rw [List.forall_mem_cons] at hentries
      rw [filesIn, List.mem_append] at hp
      rcases hp with hp | hp
      · obtain ⟨⟨hfile, -, -⟩, hproper⟩ := hentries.1
        have hname : name ≠ [] := by
          rintro rfl
          exact absurd (show isNew [] = true from hfile.1) (by decide)
        have hjoin : Path.join base name ≠ [] := by
          rw [join_eq_append hfile.2]
          exact List.append_ne_nil_of_right_ne_nil _ hname
        obtain ⟨more, hmore⟩ := exists_append_of_mem_filesBelow t hjoin
          (getLast?_join_ne hname hfile.2 base) hproper hp
        exact ⟨(name, t), List.mem_cons_self, more, hmore⟩
      · obtain ⟨e, he, hmore⟩ := exists_append_of_mem_filesIn entries hentries.2 hp
        exact ⟨e, List.mem_cons_of_mem _ he, hmore⟩

end

mutual

/-- No file is listed twice. -/
theorem nodup_filesBelow : ∀ (t : FileTree) (base : Path), t.Proper → (filesBelow base t).Nodup
  | file _, base, _ => List.nodup_singleton base
  | directory entries, base, hproper => by
      obtain ⟨hnodup, hentries⟩ := proper_directory_iff.1 hproper
      exact nodup_filesIn entries base hnodup hentries

/-- No path leads to two files of a directory. -/
theorem nodup_filesIn : ∀ (entries : List (Text × FileTree)) (base : Path),
    (entries.map Prod.fst).Nodup → (∀ e ∈ entries, IsEntryName e.1 ∧ e.2.Proper) →
      (filesIn base entries).Nodup
  | [], _, _, _ => List.nodup_nil
  | (name, t) :: entries, base, hnodup, hentries => by
      rw [List.map_cons, List.nodup_cons] at hnodup
      have hrest := (List.forall_mem_cons.1 hentries).2
      rw [filesIn, List.nodup_append]
      refine ⟨nodup_filesBelow t _ (hentries _ List.mem_cons_self).2,
        nodup_filesIn entries base hnodup.2 hrest, ?_⟩
      rintro p hp q hq rfl
      have hone : p ∈ filesIn base [(name, t)] := by
        rw [filesIn, filesIn, List.append_nil]
        exact hp
      obtain ⟨e, he, more, heq, hmore⟩ := exists_append_of_mem_filesIn [(name, t)]
        (by simpa using hentries _ List.mem_cons_self) hone
      obtain ⟨f, hf, more', heq', hmore'⟩ := exists_append_of_mem_filesIn entries hrest hq
      obtain rfl := List.mem_singleton.1 he
      have hslash : '/' ∉ name := (hentries _ List.mem_cons_self).1.isFileName.2
      have hslash' := (hrest f hf).1.isFileName.2
      rw [join_eq_append hslash, List.append_assoc] at heq
      rw [join_eq_append hslash', List.append_assoc] at heq'
      have hnames : name ++ more = f.1 ++ more' := List.append_cancel_left (heq.symm.trans heq')
      have hsame : name = f.1 := by
        rw [← takeWhile_name hslash hmore, hnames, takeWhile_name hslash' hmore']
      have hmem : name ∈ entries.map Prod.fst := by
        rw [hsame]
        exact List.mem_map_of_mem hf
      exact hnodup.1 hmem

end

end FileTree

namespace Page

open FileTree (Reordered)

variable {top top' : FileTree} {root : Path} {pages pages' : List Page} {paths paths' : List Path}

/-! ## Sorted pages -/

theorem precedes_self (s : Text) : Text.precedes s s = false := by
  induction s with
  | nil => rfl
  | cons c s ih => rw [Text.precedes, if_pos rfl, ih]

theorem le_iff {a b : Page} : le a b = true ↔ Text.precedes b.label a.label = false := by
  rw [le, Bool.not_eq_true']

theorem le_trans (a b c : Page) (hab : le a b = true) (hbc : le b c = true) : le a c = true := by
  rw [le_iff] at *
  by_cases heq : b.label = a.label
  · rwa [← heq]
  · have hless := Text.precedes_of_ne hab heq
    rw [← Bool.not_eq_true]
    intro hca
    rw [Text.precedes_trans hca hless] at hbc
    cases hbc

theorem le_total (a b : Page) : (le a b || le b a) = true := by
  rw [Bool.or_eq_true, le_iff, le_iff]
  cases hba : Text.precedes b.label a.label with
  | false => exact .inl rfl
  | true =>
      refine .inr ?_
      rw [← Bool.not_eq_true]
      intro hab
      have hself := Text.precedes_trans hab hba
      rw [precedes_self] at hself
      cases hself

/-- Pages in order both ways share a label. -/
theorem label_eq_of_le {a b : Page} (hab : le a b = true) (hba : le b a = true) : a.label = b.label := by
  rw [le_iff] at hab hba
  by_contra hne
  rw [Text.precedes_of_ne hba hne] at hab
  cases hab

/-- Pages with the same label may stand in any order. -/
theorem le_of_label_eq {a b : Page} (h : a.label = b.label) : le a b = true := by
  rw [le_iff, h, precedes_self]

/-- The pages of paths stand in order. -/
theorem pairwise_ofPaths (root : Path) (paths : List Path) :
    (ofPaths root paths).Pairwise fun a b => le a b = true :=
  List.pairwise_mergeSort le_trans le_total _

/-- The pages of paths do not depend on the order of the paths, but for their own order. -/
theorem perm_ofPaths (root : Path) (h : paths.Perm paths') :
    (ofPaths root paths).Perm (ofPaths root paths') :=
  calc
    List.Perm (ofPaths root paths) (paths.filterMap (ofPath root)) := List.mergeSort_perm _ _
    List.Perm _ (paths'.filterMap (ofPath root)) := h.filterMap _
    List.Perm _ (ofPaths root paths') := (List.mergeSort_perm _ _).symm

theorem pairwise_labels (root : Path) (paths : List Path) :
    ((ofPaths root paths).map label).Pairwise fun s t => Text.precedes t s = false :=
  List.pairwise_map.2 ((pairwise_ofPaths root paths).imp le_iff.1)

/-- The labels of pages do not depend on the order in which their files are listed. -/
theorem map_label_ofPaths (root : Path) (h : paths.Perm paths') :
    (ofPaths root paths).map label = (ofPaths root paths').map label := by
  refine List.Perm.eq_of_pairwise (fun s t _ _ hst hts => ?_) (pairwise_labels root paths)
    (pairwise_labels root paths') ((perm_ofPaths root h).map label)
  by_contra hne
  rw [Text.precedes_of_ne hts hne] at hst
  cases hst

/-- Pages with labels of their own do not depend on that order either. -/
theorem ofPaths_eq_of_nodup (h : paths.Perm paths') (hnodup : ((ofPaths root paths).map label).Nodup) :
    ofPaths root paths = ofPaths root paths' := by
  have hperm := perm_ofPaths root h
  refine List.Perm.eq_of_pairwise (fun a b ha hb hab hba => ?_) (pairwise_ofPaths root paths)
    (pairwise_ofPaths root paths') hperm
  exact List.inj_on_of_nodup_map hnodup ha (hperm.mem_iff.2 hb) (label_eq_of_le hab hba)

/-- Different paths are different pages. -/
theorem nodup_filterMap_ofPath (root : Path) (h : paths.Nodup) : (paths.filterMap (ofPath root)).Nodup := by
  refine h.filterMap fun p q page hp hq => ?_
  rw [← path_of_ofPath hp, ← path_of_ofPath hq]

/-- Pages that share a label stay in the order in which their files are listed. -/
theorem pair_sublist_ofPaths {a b : Page} (h : [a, b].Sublist (paths.filterMap (ofPath root)))
    (hlabel : a.label = b.label) : [a, b].Sublist (ofPaths root paths) :=
  List.pair_sublist_mergeSort le_trans le_total (le_of_label_eq hlabel) h

/-- Two pages of a list without repetitions stand in one order only. -/
theorem not_sublist_swap {a b : Page} (hnodup : pages.Nodup) (h : [a, b].Sublist pages) :
    ¬ [b, a].Sublist pages := by
  induction pages with
  | nil => cases h
  | cons c pages ih =>
      rw [List.nodup_cons] at hnodup
      intro hswap
      rcases List.sublist_cons_iff.1 h with hlater | ⟨_, heq, hlater⟩
      · rcases List.sublist_cons_iff.1 hswap with hswap | ⟨_, heq, hswap⟩
        · exact ih hnodup.2 hlater hswap
        · obtain ⟨rfl, rfl⟩ := List.cons.inj heq
          exact hnodup.1 (hlater.subset (List.mem_cons_of_mem a List.mem_cons_self))
      · obtain ⟨rfl, rfl⟩ := List.cons.inj heq
        rcases List.sublist_cons_iff.1 hswap with hswap | ⟨_, heq, hswap⟩
        · exact hnodup.1 (hswap.subset (List.mem_cons_of_mem b List.mem_cons_self))
        · obtain ⟨rfl, rfl⟩ := List.cons.inj heq
          exact hnodup.1 (hswap.subset List.mem_cons_self)

/-- If no page changes its place when the files are listed backwards, no two pages share a label. -/
theorem nodup_of_ofPaths_reverse (hpaths : paths.Nodup)
    (h : ofPaths root paths.reverse = ofPaths root paths) :
    ((ofPaths root paths).map label).Nodup := by
  have hnodup : (ofPaths root paths).Nodup :=
    (List.mergeSort_perm _ _).nodup_iff.2 (nodup_filterMap_ofPath root hpaths)
  refine ((List.mergeSort_perm _ _).map label).nodup_iff.2 ?_
  rw [List.Nodup, List.pairwise_map, List.pairwise_iff_forall_sublist]
  intro a b hab hlabel
  have hback : [b, a].Sublist (ofPaths root paths) := by
    rw [← h]
    refine pair_sublist_ofPaths ?_ hlabel.symm
    rw [List.filterMap_reverse]
    exact hab.reverse
  exact not_sublist_swap hnodup (pair_sublist_ofPaths hab hlabel) hback

/-! ## Discovery -/

/-- Two outcomes that are one but for the order of pages that share a label. -/
inductive EqualUpToTies : Except Error (List Page) → Except Error (List Page) → Prop where
  | ok {pages pages' : List Page} : pages.Perm pages' → pages.map label = pages'.map label →
    EqualUpToTies (.ok pages) (.ok pages')
  | error (e : Error) : EqualUpToTies (.error e) (.error e)

/-- What is found in a site, however its directories are enumerated. -/
structure IsEnumerated (top : FileTree) (root : Path) : Prop where
  ties : ∀ top', Reordered top top' → EqualUpToTies (discover top root) (discover top' root)
  unique : (∀ top', Reordered top top' → discover top' root = discover top root) ↔
    ∀ pages, discover top root = .ok pages → (pages.map label).Nodup

/-- Pages are found in one order, however the directories are enumerated, exactly if no two of them share
a label. Pages that share one may change places, and nothing else may change. -/
theorem isEnumerated (hproper : top.Proper) (root : Path) : IsEnumerated top root where
  ties := by
    intro top' h
    rw [discover, discover]
    rcases h.look hproper root with ⟨cause, hlook, hlook'⟩ | ⟨u, u', hlook, hlook', hu⟩
    · rw [hlook, hlook']
      exact .error _
    · rw [hlook, hlook']
      have hfiles := hu.perm_filesBelow root
      exact .ok (perm_ofPaths root hfiles) (map_label_ofPaths root hfiles)
  unique := by
    constructor
    · intro hsame pages hpages
      have hback := hsame _ (FileTree.reordered_reversed top)
      rw [discover, FileTree.look_reversed hproper] at hback
      rw [discover] at hback hpages
      cases hlook : top.look root with
      | error cause => simp [hlook] at hpages
      | ok u =>
          simp only [hlook, Except.map, FileTree.filesBelow_reversed] at hback hpages
          obtain rfl := Except.ok.inj hpages
          have hpaths := FileTree.nodup_filesBelow u root (hproper.of_look hlook)
          exact nodup_of_ofPaths_reverse hpaths (Except.ok.inj hback)
    · intro hnodup top' h
      rw [discover] at hnodup
      rw [discover, discover]
      rcases h.look hproper root with ⟨cause, hlook, hlook'⟩ | ⟨u, u', hlook, hlook', hu⟩
      · rw [hlook, hlook']
      · rw [hlook] at hnodup
        rw [hlook, hlook']
        exact congrArg Except.ok
          (ofPaths_eq_of_nodup (hu.perm_filesBelow root) (hnodup _ rfl)).symm

/-- The files of a site of which two share a label. -/
def tiedFiles : FileTree :=
  .directory [(text "blog", .directory [(text "post.html", .file (some []))]),
    (text "blog post.html", .file (some []))]

def tiedSite : FileTree := .directory [(['s'], tiedFiles)]

/-- A page may be found in front of another one or behind it. -/
theorem isEnumerated_tiedSite : IsEnumerated tiedSite ['s'] ∧
    ∃ top', Reordered tiedSite top' ∧ discover top' ['s'] ≠ discover tiedSite ['s'] := by
  have henumerated : IsEnumerated tiedSite ['s'] := isEnumerated (by decide +kernel) ['s']
  refine ⟨henumerated, ?_⟩
  by_contra hnone
  push Not at hnone
  have hlook : tiedSite.look ['s'] = .ok tiedFiles := by rfl
  have hlabels : ((tiedFiles.filesBelow ['s']).filterMap (ofPath ['s'])).map label =
      [text "blog post", text "blog post"] := by decide +kernel
  have hnodup := henumerated.unique.1 hnone _ (by rw [discover, hlook])
  rw [ofPaths, ((List.mergeSort_perm _ _).map label).nodup_iff, hlabels] at hnodup
  exact absurd hnodup (by decide)

end Page

end Viewloom
