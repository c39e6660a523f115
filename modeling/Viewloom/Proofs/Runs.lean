import Viewloom.Proofs.Entries
import Viewloom.Proofs.PageFiles
import Viewloom.Proofs.Publishing

/-!
# Histories of runs

After any runs, the entries in the directory of a cache are faithful to the pages that have been read, no
matter where these runs wrote their views and what has been changed elsewhere between them.
-/

namespace Viewloom

/-- A text whose last character is in no cut ends as its last piece does. -/
theorem Text.getLast?_of_getLast?_splitOnP {cut : Char → Bool} {c : Char} (hc : cut c = false)
    {s piece : Text} (hs : s.getLast? = some c) (h : (s.splitOnP cut).getLast? = some piece) :
    piece.getLast? = some c := by
  induction s generalizing piece with
  | nil => cases hs
  | cons d s ih =>
      obtain ⟨line, lines, hsplit⟩ := List.exists_cons_of_ne_nil (List.splitOnP_ne_nil cut s)
      rcases List.eq_nil_or_concat' s with rfl | ⟨s', c', hs'⟩
      · obtain rfl := Option.some.inj hs
        rw [List.splitOnP_eq_singleton (by simpa using hc)] at h
        exact Option.some.inj h ▸ rfl
      · have hlast : s.getLast? = some c := by
          rw [hs', ← List.cons_append, List.getLast?_concat] at hs
          rw [hs', List.getLast?_concat, hs]
        cases hd : cut d with
        | true =>
            rw [List.splitOnP_cons_eq_if_modifyHead, if_pos hd, hsplit, List.getLast?_cons_cons,
              ← hsplit] at h
            exact ih hlast h
        | false =>
            rw [List.splitOnP_cons_eq_if_modifyHead, if_neg (by simp [hd]), hsplit,
              List.modifyHead_cons] at h
            rw [hsplit] at ih
            cases lines with
            | nil =>
                obtain rfl : d :: line = piece := Option.some.inj h
                have hline : line.getLast? = some c := ih hlast rfl
                rw [List.getLast?_cons, hline]
                rfl
            | cons next lines =>
                rw [List.getLast?_cons_cons] at h
                exact ih hlast (by rw [List.getLast?_cons_cons, h])

namespace Site

open Cache (Recorded entryName entryPlaces)
open FileTree (KeepsFiles)

variable {s s' : State} {t t' u : FileTree} {place : List Text}
  {keys : List (Text × Text)} {cacheDir : Option Path} {input p : Path} {page : Page} {pages : List Page}

/-! ## Scripts -/

/-- Scripts are all that is written of views. -/
def IsScriptPath (p : Path) : Prop := ∃ q, p = q ++ text ".js"

/-- A path ends as its last name does. -/
theorem isScriptPath_join {base name : Path} (h : IsScriptPath name) :
    IsScriptPath (Path.join base name) := by
  obtain ⟨q, rfl⟩ := h
  rw [Path.join]
  split
  · exact ⟨q, rfl⟩
  split
  · exact ⟨base ++ q, (List.append_assoc ..).symm⟩
  · exact ⟨base ++ '/' :: q, by simp⟩

/-- Modules are written to files of scripts. -/
theorem isScriptPath_unitPath (options : Options) (v : View) : IsScriptPath (unitPath options v) :=
  isScriptPath_join ⟨v.className, rfl⟩

theorem isScriptPath_indexPath (options : Options) : IsScriptPath (indexPath options) :=
  isScriptPath_join ⟨text "index", by decide⟩

theorem isScriptPath_utilsPath (options : Options) : IsScriptPath (utilsPath options) :=
  isScriptPath_join ⟨text "utils", by decide⟩

/-- A script is not called like an entry. -/
theorem ne_entryName_of_isScriptPath (hp : IsScriptPath p) {names : List Text} {last : Text}
    (h : t.locateNew p = .ok (names, last)) (hnew : FileTree.isNew last = true) (path : Path) :
    last ≠ entryName path := by
  obtain ⟨q, rfl⟩ := hp
  have hend : (q ++ text ".js").getLast? = some 's' := by
    rw [List.getLast?_append_of_ne_nil _ (by decide)]
    decide
  have hpiece : (List.splitOnP (· == '/') (q ++ text ".js")).getLast? = some last := by
    have hsteps := congrArg List.getLast? (FileTree.steps_eq_of_locateNew h hnew)
    rw [List.getLast?_concat, FileTree.steps] at hsteps
    split at hsteps
    · rw [List.getLast?_drop] at hsteps
      split at hsteps
      · cases hsteps
      · exact hsteps
    · exact hsteps
  rintro rfl
  have hscript := Text.getLast?_of_getLast?_splitOnP (by decide) hend hpiece
  rw [entryName, List.getLast?_append_of_ne_nil _ (by decide)] at hscript
  exact absurd hscript (by decide)

/-! ## What writing views keeps -/

section Keeps

variable {P : FileTree → Prop}
  (hwrite : ∀ {t t' : FileTree} {p : Path} {content : Option Text}, P t → IsScriptPath p →
    t.write p content = .ok t' → P t')

include hwrite

/-- Writing a script keeps what scripts cannot change. -/
theorem keeps_stateWrite {content : Text} (h : P s.tree) (hp : IsScriptPath p)
    (hs : s.write p content = .ok s') : P s'.tree := by
  rw [State.write] at hs
  split at hs
  · next tree htree =>
    obtain rfl := Except.ok.inj hs
    exact hwrite h hp htree
  · cases hs

/-- Writing a module keeps what scripts cannot change. -/
theorem keeps_writeUnit (options : Options) (loader : Loader) (h : P s.tree) (v : View) :
    P (writeUnit options loader s v).1.tree := by
  rw [writeUnit]
  split
  · exact h
  · split
    · next hs =>
      have hresolve : P (s.resolve loader v).tree := h
      exact keeps_stateWrite hwrite hresolve (isScriptPath_unitPath options v) hs
    · exact h

/-- Writing modules keeps what scripts cannot change. -/
theorem keeps_writeUnits (options : Options) (loader : Loader) (h : P s.tree) (vs : List View) :
    P (writeUnits options loader s vs).1.tree := by
  induction vs generalizing s with
  | nil => exact h
  | cons v vs ih =>
      have hrest := ih (keeps_writeUnit hwrite options loader h v)
      rw [writeUnits]
      simp only
      split <;> exact hrest

theorem keeps_attemptWrite (h : P s.tree) (hp : IsScriptPath p) (content : Text) :
    P (attemptWrite s p content).1.tree := by
  rw [attemptWrite]
  split
  · next hs => exact keeps_stateWrite hwrite h hp hs
  · exact h

/-- Writing a site keeps what neither scripts nor directories can change. -/
theorem keeps_writeAll
    (hmake : ∀ {t t' : FileTree} {p : Path}, P t → t.makeDirectory p = .ok t' → P t')
    (options : Options) (loader : Loader) (h : P t) (roots : List View) :
    P (writeAll options loader t roots).1.tree := by
  rw [writeAll]
  split
  · exact h
  · next tree htree =>
    have hstart : P (State.start tree).tree := FileTree.makeDirectories_induction hmake h htree
    have hunits := keeps_writeUnits hwrite options loader hstart (distinct [] (View.descendantsAll roots))
    have hindex := keeps_attemptWrite hwrite hunits (isScriptPath_indexPath options)
      (Module.composeIndex (distinct [] (View.descendantsAll roots)))
    have hutils := keeps_attemptWrite hwrite hindex (isScriptPath_utilsPath options) Module.utils
    simp only
    split <;> exact hutils

end Keeps

/-! ## Recorded entries -/

/-- Writing a script keeps what has been recorded, since no entry is a script. -/
theorem recorded_writeScript (h : Recorded keys place t) (hp : IsScriptPath p) {content : Option Text}
    (hwrite : t.write p content = .ok t') : Recorded keys place t' where
  proper := h.proper.write hwrite
  faithful := by
    intro path written e hentry hparse
    obtain ⟨names, last, hlocate, hnew, hlast, rfl⟩ := FileTree.write_eq_ok hwrite
    obtain ⟨-, -, hnames, -, -⟩ := FileTree.locateNew_eq_ok_iff.1 hlocate
    rw [FileTree.entryAt?_modify _ hnames hlast, if_neg] at hentry
    · exact h.faithful path written e hentry hparse
    · intro heq
      have hsame := (List.append_inj' heq rfl).2
      exact ne_entryName_of_isScriptPath hp hlocate hnew path (List.singleton_inj.1 hsame).symm

/-- Making a directory keeps what has been recorded. -/
theorem recorded_makeDirectory (h : Recorded keys place t) (hmake : t.makeDirectory p = .ok t') :
    Recorded keys place t' where
  proper := h.proper.makeDirectory hmake
  faithful := by
    intro path content e hentry hparse
    obtain ⟨made, -, hmade⟩ := FileTree.entryAt?_makeDirectory hmake
    rw [hmade] at hentry
    split at hentry
    · cases hentry
    · exact h.faithful path content e hentry hparse

/-- Starting a cache keeps what has been recorded and all files outside of it. -/
theorem recorded_startCache (h : Recorded keys place t) (hstart : startCache t cacheDir = .ok t') :
    Recorded keys place t' ∧ KeepsFiles entryPlaces t t' := by
  cases cacheDir with
  | none => exact Except.ok.inj hstart ▸ ⟨h, .refl _ t⟩
  | some dir =>
      rw [startCache, Cache.start] at hstart
      split at hstart
      · next top hmake =>
        obtain rfl := Except.ok.inj hstart
        have hstep {u u' : FileTree} {p : Path}
            (hu : Recorded keys place u ∧ KeepsFiles entryPlaces t u)
            (hone : u.makeDirectory p = .ok u') :
            Recorded keys place u' ∧ KeepsFiles entryPlaces t u' :=
          ⟨recorded_makeDirectory hu.1 hone, hu.2.trans (FileTree.keepsFiles_makeDirectory _ hone)⟩
        exact FileTree.makeDirectories_induction hstep ⟨h, .refl _ t⟩ hmake
      · cases hstart

/-- Compiling a page that is known changes entries only, and these stay faithful. -/
theorem recorded_compilePage (h : Recorded keys place t)
    (hkey : ∀ source, page.read t = .ok source → (page.label, source) ∈ keys) (cacheDir : Option Path) :
    Recorded keys place (compilePage cacheDir t page).1 ∧
      KeepsFiles entryPlaces t (compilePage cacheDir t page).1 := by
  rw [compilePage]
  split
  · exact ⟨h, .refl _ t⟩
  · next source hread =>
    split
    · exact ⟨h, .refl _ t⟩
    · next dir =>
      have hrecorded := h.get dir page.path page.label source
      have hkeeps := Cache.keepsFiles_get h.proper dir page.path page.label source
      split
      · next view tree hget =>
        rw [hget] at hrecorded hkeeps
        exact ⟨hrecorded, hkeeps⟩
      · next tree hget =>
        rw [hget] at hrecorded hkeeps
        split
        · exact ⟨hrecorded, hkeeps⟩
        · next v hv =>
          split
          · next hset =>
            exact ⟨hrecorded.set (hkey source hread) hv hset, hkeeps.trans (Cache.keepsFiles_set hset)⟩
          · exact ⟨hrecorded, hkeeps⟩

theorem tree_compilePages_cons (cacheDir : Option Path) (t : FileTree) (page : Page) (pages : List Page) :
    (compilePages cacheDir t (page :: pages)).1 =
      (compilePages cacheDir (compilePage cacheDir t page).1 pages).1 := by
  rw [compilePages]
  simp only
  split <;> rfl

/-- The pages below a path, if there is anything. -/
def pagesOf (t : FileTree) (input : Path) : List Page := (Page.discover t input).toOption.getD []

/-- The labels and the sources of the pages that can be read, which are what is compiled. -/
def keysOf (t : FileTree) (input : Path) : List (Text × Text) :=
  (pagesOf t input).filterMap fun page => (page.read t).toOption.map fun source => (page.label, source)

theorem mem_keysOf (hpage : page ∈ pagesOf t input) {source : Text} (hread : page.read t = .ok source) :
    (page.label, source) ∈ keysOf t input :=
  List.mem_filterMap.2 ⟨page, hpage, by rw [hread]; rfl⟩

theorem pagesOf_eq (h : Page.discover t input = .ok pages) : pagesOf t input = pages := by
  rw [pagesOf, h]
  rfl

/-- Compiling pages keeps what has been recorded, with their keys among the known ones. -/
theorem recorded_compilePages (hproper : t.Proper) (hdiscover : Page.discover t input = .ok pages)
    (hu : Recorded keys place u) (hkeeps : KeepsFiles entryPlaces t u) (hkeys : keysOf t input ⊆ keys)
    (cacheDir : Option Path) {rest : List Page} (hrest : rest ⊆ pages) :
    Recorded keys place (compilePages cacheDir u rest).1 := by
  induction rest generalizing u with
  | nil => exact hu
  | cons page rest ih =>
      rw [List.cons_subset] at hrest
      -- The pages before this one have changed entries only, so it is read as it was at first.
      have hread := Page.read_eq_of_keepsFiles hproper hdiscover hrest.1 hkeeps
      have hone := recorded_compilePage hu (fun source hsource => hkeys (mem_keysOf
        (pagesOf_eq hdiscover ▸ hrest.1) (hread ▸ hsource))) cacheDir
      rw [tree_compilePages_cons]
      exact ih hone.1 (hkeeps.trans hone.2) hrest.2

/-- A run keeps what has been recorded, with the keys of its pages among the known ones. -/
theorem recorded_transpile (h : Recorded keys place t) (options : Options) (input : Path) :
    Recorded (keys ++ keysOf t input) place (transpile options t input).1 := by
  have hkeys := h.mono (List.subset_append_left keys (keysOf t input))
  rw [transpile]
  split
  · exact hkeys
  · next pages hdiscover =>
    split
    · exact hkeys
    · next started hstart =>
      obtain ⟨hstarted, hkeeps⟩ := recorded_startCache hkeys hstart
      have hcompiled := recorded_compilePages h.proper hdiscover hstarted hkeeps
        (List.subset_append_right keys _) options.cacheDir (List.Subset.refl pages)
      split
      · next tree e heq =>
        rw [heq] at hcompiled
        exact hcompiled
      · next tree views heq =>
        rw [heq] at hcompiled
        exact keeps_writeAll (fun hu hp hwrite => recorded_writeScript hu hp hwrite)
          (fun hu hmake => recorded_makeDirectory hu hmake) options _ hcompiled views

/-! ## Histories -/

/-- What has become of a tree with an empty directory at a place, with the labels and the sources of all
pages that have been read. Between runs anything may change but that directory. -/
inductive History (place : List Text) : List (Text × Text) → FileTree → Prop
  | start {t : FileTree} (hproper : t.Proper) (hempty : t.at? place = some .empty) : History place [] t
  | edit {keys : List (Text × Text)} {t t' : FileTree} (h : History place keys t) (hproper : t'.Proper)
      (hplace : t'.at? place = t.at? place) : History place keys t'
  | run {keys : List (Text × Text)} {t : FileTree} (h : History place keys t) (options : Options)
      (input : Path) : History place (keys ++ keysOf t input) (transpile options t input).1

/-- After any history of runs, the entries are those of keys that have been met. -/
theorem History.recorded (h : History place keys t) : Recorded keys place t := by
  induction h with
  | start hproper hempty =>
      refine ⟨hproper, fun path content e hentry _ => ?_⟩
      rw [FileTree.entryAt?_append, hempty] at hentry
      cases hentry
  | edit _ hproper hplace ih =>
      refine ⟨hproper, fun path content e hentry hparse => ?_⟩
      rw [FileTree.entryAt?_append, hplace, ← FileTree.entryAt?_append] at hentry
      exact ih.faithful path content e hentry hparse
  | run _ options input ih => exact recorded_transpile ih options input

/-- No label of a page holds a zero character, since no path does. -/
theorem nul_not_mem_of_mem_keysOf {k : Text × Text} (hk : k ∈ keysOf t input) : Char.ofNat 0 ∉ k.1 := by
  obtain ⟨page, hpage, hk⟩ := List.mem_filterMap.1 hk
  obtain ⟨source, hread, rfl⟩ := Option.map_eq_some_iff.1 hk
  cases hdiscover : Page.discover t input with
  | error e =>
      rw [pagesOf, hdiscover] at hpage
      cases hpage
  | ok pages =>
      rw [pagesOf_eq hdiscover] at hpage
      have hsource : page.read t = .ok source := by
        cases hcase : page.read t with
        | error e => simp [hcase, Except.toOption] at hread
        | ok content => simpa [hcase, Except.toOption] using hread
      exact Page.nul_not_mem_label hdiscover hpage hsource

/-- After any history of runs, no known label holds a zero character. -/
theorem History.nul_not_mem (h : History place keys t) {k : Text × Text} (hk : k ∈ keys) :
    Char.ofNat 0 ∉ k.1 := by
  induction h with
  | start => cases hk
  | edit _ _ _ ih => exact ih hk
  | run _ options input ih => exact (List.mem_append.1 hk).elim ih nul_not_mem_of_mem_keysOf

end Site

end Viewloom
