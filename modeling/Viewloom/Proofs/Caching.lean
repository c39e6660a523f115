import Viewloom.Proofs.Directories
import Viewloom.Proofs.Runs

/-!
# Runs with a cache

Whatever runs have been made before, a run with a cache has the outcome of one without, and leaves the same
files but for the entries of its pages, as long as these entries can be written. If one cannot, the run
fails and writes no view.
-/

namespace Viewloom.Site

open FileTree (AgreeOff Avoids)
open Cache (Sound Stands entryName entryPath entryPlaces hashed)

variable {options : Options} {loader loader' : Loader} {s s' : State} {t t' u : FileTree}
  {place : List Text} {places : Set (List Text)} {keys : List (Text × Text)}
  {dir input p : Path} {page : Page} {pages : List Page} {vs roots : List View} {v : View}

/-! ## Pages -/

/-- An entry can be written exactly if its path can be, and if no directory is called like it. -/
theorem exists_set_iff (h : Stands t dir place) (path : Path) (label source : Text) (v : View) :
    (∃ t', Cache.set t dir path label source v = .ok t') ↔
      FileTree.refuse (entryPath dir path) = none ∧
        FileTree.byteLength (entryName path) ≤ FileTree.nameLimit ∧
          t.entryAt? (place ++ [entryName path]) ≠ some .directory := by
  constructor
  · rintro ⟨t', hset⟩
    rw [Cache.set] at hset
    split at hset
    · next hwrite =>
      obtain ⟨names, last, hlocate, -, hdirectory, -⟩ := FileTree.write_eq_ok hwrite
      obtain ⟨hrefuse, hlength, rfl, rfl⟩ := h.locateNew_eq_ok_iff.1 hlocate
      exact ⟨hrefuse, hlength, hdirectory⟩
    · cases hset
  · rintro ⟨hrefuse, hlength, hdirectory⟩
    have hlocate := h.locateNew_eq_ok_iff.2 ⟨hrefuse, hlength, rfl, rfl⟩
    have hnew := (Cache.isFileName_entryName path).1
    simp only [Cache.set, FileTree.write_eq, hlocate, hnew, if_neg hdirectory, Bool.true_eq_false, if_false]
    exact ⟨_, rfl⟩

/-- An entry that is found can be written anew. -/
theorem exists_set_of_get (h : Stands t dir place) {path : Path} {label source : Text}
    (hget : (Cache.get t dir path label source).1 = some v) (w : View) :
    ∃ t', Cache.set t dir path label source w = .ok t' := by
  obtain ⟨-, content, hread, -⟩ := Cache.get_eq_some hget
  have hentry := h.read_entryPath hread
  obtain ⟨names, hlocate, -⟩ := FileTree.read_eq_ok_iff.1 hread
  obtain ⟨before, hsteps, -⟩ := h.exists_steps
  rw [FileTree.locate_eq_ok_iff, hsteps, FileTree.walk_append_eq_ok_iff] at hlocate
  obtain ⟨hrefuse, middle, -, hlast⟩ := hlocate
  have hlength := ((FileTree.walk_singleton_eq_ok_iff (Cache.isFileName_entryName path)).1 hlast).2.1
  exact (exists_set_iff h path label source w).2 ⟨hrefuse, hlength, by simp [hentry]⟩

/-- Whether what a page compiles to, if it does, can be stored. -/
def Storable (dir : Path) (t : FileTree) (page : Page) : Prop :=
  ∀ source v, page.read t = .ok source → View.compile page.label source = .ok v →
    ∃ t', Cache.set t dir page.path page.label source v = .ok t'

/-- The places of the entries of pages below one place. -/
def entryPlacesOf (place : List Text) (pages : List Page) : Set (List Text) :=
  {q | ∃ page ∈ pages, q = place ++ [entryName page.path]}

/-- The places of the entries of pages are places of entries. -/
theorem entryPlacesOf_subset (place : List Text) (pages : List Page) :
    entryPlacesOf place pages ⊆ entryPlaces := by
  rintro _ ⟨page, -, rfl⟩
  exact ⟨place, page.path, rfl⟩

theorem outcome_compilePages_cons (cacheDir : Option Path) (t : FileTree) (page : Page)
    (pages : List Page) : (compilePages cacheDir t (page :: pages)).2 =
      match (compilePage cacheDir t page).2,
        (compilePages cacheDir (compilePage cacheDir t page).1 pages).2 with
      | .ok v, .ok vs => .ok (v :: vs)
      | .error e, _ => .error e
      | .ok _, .error e => .error e := by
  rw [compilePages]
  simp only
  split <;> simp_all

/-- Without a cache, compiling a page leaves the tree as it is. -/
theorem tree_compilePage_none (t : FileTree) (page : Page) : (compilePage none t page).1 = t := by
  rw [compilePage]
  split <;> rfl

theorem tree_compilePages_none (t : FileTree) (pages : List Page) : (compilePages none t pages).1 = t := by
  induction pages with
  | nil => rfl
  | cons page pages ih => rw [tree_compilePages_cons, tree_compilePage_none, ih]

/-- A tree of a run with a cache beside the one of a run without. -/
structure Beside (keys : List (Text × Text)) (dir : Path) (place : List Text) (pages : List Page)
    (t u : FileTree) : Prop where
  sound : Sound keys dir place u
  agree : AgreeOff (entryPlacesOf place pages) t u

section Beside

variable (hinj : Set.InjOn Sha256.hex {bytes | ∃ k ∈ keys, bytes = hashed k})
  (hnul : ∀ k ∈ keys, Char.ofNat 0 ∉ k.1)

theorem singleton_subset_entryPlacesOf (hpage : page ∈ pages) :
    {place ++ [entryName page.path]} ⊆ entryPlacesOf place pages :=
  Set.singleton_subset_iff.2 ⟨page, hpage, rfl⟩

/-- Looking for an entry leaves everything beside the cache as it is. -/
theorem Beside.get (h : Beside keys dir place pages t u) (hpage : page ∈ pages) (source : Text) :
    Beside keys dir place pages t (Cache.get u dir page.path page.label source).2 := by
  have hagree := (Cache.agreeOff_get h.sound.proper h.sound.stands page.path page.label source).symm
  exact ⟨h.sound.get page.path page.label source,
    h.agree.trans (hagree.mono (singleton_subset_entryPlacesOf hpage))⟩

/-- Recording a view leaves everything beside the cache as it is. -/
theorem Beside.set (h : Beside keys dir place pages t u) (hpage : page ∈ pages) {source : Text}
    (hkey : (page.label, source) ∈ keys) (hv : View.compile page.label source = .ok v)
    (hset : Cache.set u dir page.path page.label source v = .ok t') :
    Beside keys dir place pages t t' := by
  have hagree := (Cache.agreeOff_set h.sound.stands hset).symm
  exact ⟨h.sound.set hkey hv hset, h.agree.trans (hagree.mono (singleton_subset_entryPlacesOf hpage))⟩

/-- Whether an entry can be written is seen in both trees. -/
theorem Beside.exists_set_iff (h : Beside keys dir place pages t u) (path : Path) (label source : Text)
    (v : View) : (∃ t', Cache.set u dir path label source v = .ok t') ↔
      ∃ t', Cache.set t dir path label source v = .ok t' := by
  rw [Site.exists_set_iff h.sound.stands, Site.exists_set_iff (h.sound.stands.of_agreeOff h.agree.symm),
    Ne, ← h.agree.directory]

include hinj hnul

/-- What is found is what a run without a cache compiles. -/
theorem compile_of_found (h : Sound keys dir place t) {path : Path} {label source : Text}
    (hkey : (label, source) ∈ keys) (hget : (Cache.get t dir path label source).1 = some v) :
    View.compile label source = .ok v := by
  obtain ⟨k, hk, hbytes, hcompile⟩ := h.exists_of_get hinj hkey hget
  obtain rfl := Cache.eq_of_hashed (hnul _ hkey) (hnul k hk) hbytes
  exact hcompile

/-- A page has the outcome of a run without a cache if its entry can be written. If it cannot, the page
fails. -/
theorem Beside.compilePage (h : Beside keys dir place pages t u) (hpage : page ∈ pages)
    (hread : page.read u = page.read t)
    (hkey : ∀ source, page.read t = .ok source → (page.label, source) ∈ keys) :
    Beside keys dir place pages t (compilePage (some dir) u page).1 ∧
      (Storable dir t page → (compilePage (some dir) u page).2 = (compilePage none t page).2) ∧
        (¬ Storable dir t page → ∃ e, (compilePage (some dir) u page).2 = .error e) := by
  rw [Site.compilePage, Site.compilePage, hread]
  cases hsource : page.read t with
  | error e => exact ⟨h, fun _ => rfl, fun _ => ⟨e, rfl⟩⟩
  | ok source =>
      have hgot := h.get hpage source
      have hstorable : Storable dir t page ↔ ∀ v, View.compile page.label source = .ok v →
          ∃ t', Cache.set t dir page.path page.label source v = .ok t' := by
        refine ⟨fun hall v hv => hall source v hsource hv, fun hall source' v hread' hv => ?_⟩
        obtain rfl := Except.ok.inj (hsource.symm.trans hread')
        exact hall v hv
      simp only
      split
      · next v tree hget =>
        have hfound : (Cache.get u dir page.path page.label source).1 = some v := by rw [hget]
        rw [hget] at hgot
        refine ⟨hgot, fun _ => ?_, fun hnot => absurd ?_ hnot⟩
        · exact (compile_of_found hinj hnul h.sound (hkey source hsource) hfound).symm
        · -- What is found stands in a file, so the entry can be written as well.
          exact hstorable.2 fun w _ =>
            (h.exists_set_iff page.path page.label source w).1 (exists_set_of_get h.sound.stands hfound w)
      · next tree hget =>
        rw [hget] at hgot
        cases hcompile : View.compile page.label source with
        | error e => exact ⟨hgot, fun _ => rfl, fun _ => ⟨e, rfl⟩⟩
        | ok v =>
            simp only
            have hcan := hgot.exists_set_iff page.path page.label source v
            simp only [hcompile, Except.ok.injEq, forall_eq'] at hstorable
            rw [← hcan] at hstorable
            cases hset : Cache.set tree dir page.path page.label source v with
            | ok tree' =>
                refine ⟨hgot.set hpage (hkey source hsource) hcompile hset, fun _ => rfl, fun hnot => ?_⟩
                exact absurd (hstorable.2 ⟨tree', hset⟩) hnot
            | error e =>
                refine ⟨hgot, fun hcan => ?_, fun _ => ⟨e, rfl⟩⟩
                obtain ⟨t', ht'⟩ := hstorable.1 hcan
                rw [hset] at ht'
                cases ht'

/-- Pages have the outcome of a run without a cache if their entries can be written. If one cannot, they
fail. -/
theorem Beside.compilePages (hproper : t.Proper) (hdiscover : Page.discover t input = .ok pages)
    (hkeys : keysOf t input ⊆ keys) (h : Beside keys dir place pages t u) {rest : List Page}
    (hrest : rest ⊆ pages) :
    Beside keys dir place pages t (compilePages (some dir) u rest).1 ∧
      ((∀ page ∈ rest, Storable dir t page) →
        (compilePages (some dir) u rest).2 = (compilePages none t rest).2) ∧
        ∀ page ∈ rest, ¬ Storable dir t page →
          ∃ e, (compilePages (some dir) u rest).2 = .error e := by
  induction rest generalizing u with
  | nil => exact ⟨h, fun _ => rfl, by simp⟩
  | cons page rest ih =>
      rw [List.cons_subset] at hrest
      have hread := Page.read_eq_of_keepsFiles hproper hdiscover hrest.1
        (h.agree.mono (entryPlacesOf_subset place pages)).keepsFiles
      have hkey (source : Text) (hsource : page.read t = .ok source) : (page.label, source) ∈ keys :=
        hkeys (mem_keysOf (pagesOf_eq hdiscover ▸ hrest.1) hsource)
      obtain ⟨hnext, hsame, hfails⟩ := h.compilePage hinj hnul hrest.1 hread hkey
      obtain ⟨hall, hsames, hfail⟩ := ih hnext hrest.2
      rw [tree_compilePages_cons, outcome_compilePages_cons, outcome_compilePages_cons,
        tree_compilePage_none]
      refine ⟨hall, fun hstorable => ?_, ?_⟩
      · rw [List.forall_mem_cons] at hstorable
        rw [hsame hstorable.1, hsames hstorable.2]
      · rw [List.forall_mem_cons]
        refine ⟨fun hnot => ?_, fun other hother hnot => ?_⟩
        · obtain ⟨e, he⟩ := hfails hnot
          exact ⟨e, by rw [he]⟩
        · obtain ⟨e, he⟩ := hfail other hother hnot
          rw [he]
          cases (Site.compilePage (some dir) u page).2 with
          | ok v => exact ⟨e, rfl⟩
          | error e' => exact ⟨e', rfl⟩

end Beside

/-! ## Views -/

/-- Two steps of writing have one outcome, and their trees agree. -/
structure Together {α : Type} (places : Set (List Text)) (a b : State × α) : Prop where
  outcome : a.2 = b.2
  agree : AgreeOff places a.1.tree b.1.tree

/-- A file is written in both states or fails in both in the same way. -/
theorem stateWrite_cases (h : AgreeOff places s.tree s'.tree)
    (hp : Avoids places [] (FileTree.steps p).dropLast) (content : Text) :
    (∃ a b, s.write p content = .ok a ∧ s'.write p content = .ok b ∧ AgreeOff places a.tree b.tree) ∨
      ∃ e, s.write p content = .error e ∧ s'.write p content = .error e := by
  rw [State.write, State.write]
  rcases (h.write hp (some content)).cases with ⟨u, u', hu, hu', hagree⟩ | ⟨cause, hu, hu'⟩
  · rw [hu, hu']
    exact .inl ⟨_, _, rfl, rfl, hagree⟩
  · rw [hu, hu']
    exact .inr ⟨_, rfl, rfl⟩

theorem together_attemptWrite (h : AgreeOff places s.tree s'.tree)
    (hp : Avoids places [] (FileTree.steps p).dropLast) (content : Text) :
    Together places (attemptWrite s p content) (attemptWrite s' p content) := by
  rw [attemptWrite, attemptWrite]
  rcases stateWrite_cases h hp content with ⟨a, b, ha, hb, hagree⟩ | ⟨e, ha, hb⟩
  · rw [ha, hb]
    exact ⟨rfl, hagree⟩
  · rw [ha, hb]
    exact ⟨rfl, h⟩

section Together

variable (hviews : Avoids places [] (FileTree.steps options.viewsDir)) (loader loader' : Loader)

include hviews

/-- A module is written in both states or fails in both in the same way. -/
theorem together_writeUnit (h : AgreeOff places s.tree s'.tree) (hv : '/' ∉ v.className) :
    Together places (writeUnit options loader s v) (writeUnit options loader' s' v) := by
  have hslash : '/' ∉ Module.fileName v.className := by
    rw [Module.fileName, List.mem_append, not_or]
    exact ⟨hv, by decide⟩
  have hresolve : AgreeOff places (s.resolve loader v).tree (s'.resolve loader' v).tree := h
  rw [writeUnit, writeUnit]
  cases renderModule options v with
  | error e => exact ⟨rfl, h⟩
  | ok code =>
      simp only
      rcases stateWrite_cases hresolve (FileTree.avoids_dropLast_join hslash hviews) code with
        ⟨a, b, ha, hb, hagree⟩ | ⟨e, ha, hb⟩
      · rw [unitPath, ha, hb]
        exact ⟨rfl, hagree⟩
      · rw [unitPath, ha, hb]
        exact ⟨rfl, h⟩

/-- Modules are written in both states or fail in both in the same way. -/
theorem together_writeUnits (h : AgreeOff places s.tree s'.tree) (hvs : ∀ v ∈ vs, '/' ∉ v.className) :
    Together places (writeUnits options loader s vs) (writeUnits options loader' s' vs) := by
  induction vs generalizing s s' with
  | nil => exact ⟨rfl, h⟩
  | cons v vs ih =>
      rw [List.forall_mem_cons] at hvs
      obtain ⟨hfirst, hone⟩ := together_writeUnit hviews loader loader' h hvs.1
      obtain ⟨hrest, hall⟩ := ih hone hvs.2
      simp only [writeUnits, ← hfirst, ← hrest]
      split <;> exact ⟨rfl, hall⟩

/-- Views are written alike into trees that agree, if their directory is not where these may differ. -/
theorem together_writeAll (h : AgreeOff places t t')
    (hroots : ∀ d ∈ View.descendantsAll roots, '/' ∉ d.className) :
    Together places (writeAll options loader t roots) (writeAll options loader' t' roots) := by
  rw [writeAll, writeAll]
  rcases (h.makeDirectories hviews).cases with ⟨u, u', hu, hu', hagree⟩ | ⟨cause, hu, hu'⟩
  · have hstart : AgreeOff places (State.start u).tree (State.start u').tree := hagree
    have hslash : ∀ v ∈ distinct [] (View.descendantsAll roots), '/' ∉ v.className :=
      fun v hv => hroots v (mem_of_mem_distinct hv)
    obtain ⟨hwritten, hunits⟩ := together_writeUnits hviews loader loader' hstart hslash
    have hindexPath : Avoids places [] (FileTree.steps (indexPath options)).dropLast :=
      FileTree.avoids_dropLast_join (by decide) hviews
    have hutilsPath : Avoids places [] (FileTree.steps (utilsPath options)).dropLast :=
      FileTree.avoids_dropLast_join (by decide) hviews
    obtain ⟨hindexError, hindex⟩ := together_attemptWrite hunits hindexPath
      (Module.composeIndex (distinct [] (View.descendantsAll roots)))
    obtain ⟨hutilsError, hutils⟩ := together_attemptWrite hindex hutilsPath Module.utils
    simp only [hu, hu', ← hwritten, ← hindexError, ← hutilsError]
    split <;> exact ⟨rfl, hutils⟩
  · rw [hu, hu']
    exact ⟨rfl, h⟩

end Together

/-! ## Whole runs -/

/-- Views are written with a cache as without. -/
theorem writeAll_cacheDir (options : Options) (loader : Loader) (t : FileTree) (roots : List View) :
    writeAll { options with cacheDir := none } loader t roots = writeAll options loader t roots := by
  have hunits (s : State) (vs : List View) :
      writeUnits { options with cacheDir := none } loader s vs = writeUnits options loader s vs := by
    induction vs generalizing s with
    | nil => rfl
    | cons v vs ih =>
        rw [writeUnits, writeUnits]
        simp only [ih]
        rfl
  rw [writeAll, writeAll]
  simp only [hunits]
  rfl

/-- The classes of compiled pages name files. -/
theorem slash_not_mem_of_compilePages {views : List View}
    (h : (compilePages none t pages).2 = .ok views) {d : View} (hd : d ∈ View.descendantsAll views) :
    '/' ∉ d.className := by
  induction pages generalizing views with
  | nil =>
      obtain rfl := Except.ok.inj h
      cases hd
  | cons page pages ih =>
      rw [outcome_compilePages_cons, tree_compilePage_none] at h
      split at h
      · next v vs hv hvs =>
        obtain rfl := Except.ok.inj h
        rw [View.descendantsAll, List.mem_append] at hd
        rcases hd with hd | hd
        · rw [compilePage] at hv
          split at hv
          · cases hv
          · exact View.slash_not_mem_className hv hd
        · exact ih hvs hd
      · cases h
      · cases h

/-- A cache whose directory stands is started without a change. -/
theorem startCache_eq (h : Stands t dir place) : startCache t (some dir) = .ok t := by
  have hmake : t.makeDirectories dir = .ok t := by
    rcases h.locate with ⟨-, hlocate⟩ | ⟨rfl, -⟩
    · exact FileTree.makeDirectories_of_locate hlocate h.directory
    · rfl
  rw [startCache, Cache.start, hmake]

/-- A run with a cache has the outcome of one without, and leaves the same files but for the entries of
its pages, if these entries can be written and are not in the way of the views. It fails and writes no
view if an entry cannot be written. -/
theorem transpile_cacheDir (h : History place keys t) (hdir : options.cacheDir = some dir)
    (hstands : Stands t dir place)
    (hinj : Set.InjOn Sha256.hex {bytes | ∃ k ∈ keys ++ keysOf t input, bytes = hashed k}) :
    (Avoids (entryPlacesOf place (pagesOf t input)) [] (FileTree.steps options.viewsDir) →
      (∀ page ∈ pagesOf t input, Storable dir t page) →
        (transpile options t input).2 = (transpile { options with cacheDir := none } t input).2 ∧
          AgreeOff (entryPlacesOf place (pagesOf t input))
            (transpile { options with cacheDir := none } t input).1 (transpile options t input).1) ∧
      ∀ page ∈ pagesOf t input, ¬ Storable dir t page →
        (∃ e, (transpile options t input).2 = .error e) ∧
          AgreeOff (entryPlacesOf place (pagesOf t input)) t (transpile options t input).1 := by
  have hnul (k : Text × Text) (hk : k ∈ keys ++ keysOf t input) : Char.ofNat 0 ∉ k.1 :=
    (List.mem_append.1 hk).elim h.nul_not_mem nul_not_mem_of_mem_keysOf
  have hstart : Beside (keys ++ keysOf t input) dir place (pagesOf t input) t t :=
    ⟨⟨h.recorded.mono (List.subset_append_left keys _), hstands⟩, .refl _ t⟩
  rw [transpile, transpile, hdir, startCache_eq hstands]
  cases hdiscover : Page.discover t input with
  | error e => exact ⟨fun _ _ => ⟨rfl, .refl _ t⟩, fun _ _ _ => ⟨⟨e, rfl⟩, .refl _ t⟩⟩
  | ok pages =>
      rw [pagesOf_eq hdiscover] at hstart ⊢
      obtain ⟨hcompiled, hsame, hfails⟩ := hstart.compilePages hinj hnul h.recorded.proper hdiscover
        (List.subset_append_right keys _) (List.Subset.refl pages)
      have hplain : compilePages none t pages = (t, (compilePages none t pages).2) :=
        Prod.ext (tree_compilePages_none t pages) rfl
      cases hcached : compilePages (some dir) t pages with
      | mk u outcome =>
          rw [hcached] at hcompiled hsame hfails
          refine ⟨fun hviews hstorable => ?_, fun page hpage hnot => ?_⟩
          · -- The loaders look at different trees, but what they answer does not reach the outcome.
            have heq : outcome = (compilePages none t pages).2 := hsame hstorable
            simp only [startCache, hcached]
            rw [hplain, ← heq]
            cases outcome with
            | error e => exact ⟨rfl, hcompiled.agree⟩
            | ok views =>
                have hslash (d : View) (hd : d ∈ View.descendantsAll views) : '/' ∉ d.className :=
                  slash_not_mem_of_compilePages heq.symm hd
                have htogether := together_writeAll hviews
                  (Controller.directoryLoader t options.controllersDir)
                  (Controller.directoryLoader u options.controllersDir) hcompiled.agree hslash
                rw [← writeAll_cacheDir options (Controller.directoryLoader t _)] at htogether
                exact ⟨htogether.outcome.symm, htogether.agree⟩
          · obtain ⟨e, he⟩ := hfails page hpage hnot
            obtain rfl : outcome = .error e := he
            simp only [hcached]
            exact ⟨⟨e, rfl⟩, hcompiled.agree⟩

def cachedOptions : Options := ⟨text "views", text "controllers", some (text "cache"), false⟩

/-- A site of one page, with a directory for a cache. -/
def siteTree : FileTree :=
  .directory [(text "cache", .empty), (text "site", .directory [(text "index.html", .file (some ['c']))])]

/-- That site after a run. -/
def siteTreeAgain : FileTree := (transpile cachedOptions siteTree (text "site")).1

def farPage : Page where
  label := List.replicate 120 'a' ++ ' ' :: List.replicate 121 'b'
  path := text "site/" ++ List.replicate 120 'a' ++ '/' :: List.replicate 121 'b' ++ text ".html"

/-- A site of one page whose path is too long for a name. -/
def farTree : FileTree :=
  .directory [(text "cache", .empty), (text "site", .directory [(List.replicate 120 'a', .directory
    [(List.replicate 121 'b' ++ text ".html", .file (some ['c']))])])]

/-- A recorded site is written as before, and a page whose entry has too long a name fails with a
cache only. -/
theorem transpile_cacheDir_pages :
    ((transpile cachedOptions siteTreeAgain (text "site")).2 =
        (transpile { cachedOptions with cacheDir := none } siteTreeAgain (text "site")).2 ∧
      AgreeOff (entryPlacesOf [text "cache"] (pagesOf siteTreeAgain (text "site")))
        (transpile { cachedOptions with cacheDir := none } siteTreeAgain (text "site")).1
        (transpile cachedOptions siteTreeAgain (text "site")).1) ∧
      (∃ e, (transpile cachedOptions farTree (text "site")).2 = .error e) ∧
        (transpile { cachedOptions with cacheDir := none } farTree (text "site")).2.isOk = true := by
  have hinjOn {keys : List (Text × Text)} {k : Text × Text} (hkeys : ∀ k' ∈ keys, k' = k) :
      Set.InjOn Sha256.hex {bytes | ∃ k ∈ keys, bytes = hashed k} := by
    rintro _ ⟨a, ha, rfl⟩ _ ⟨b, hb, rfl⟩ -
    rw [hkeys a ha, hkeys b hb]
  constructor
  · have hstart : History [text "cache"] [] siteTree := .start (by decide +kernel) rfl
    have hrun : History [text "cache"] ([] ++ keysOf siteTree (text "site")) siteTreeAgain :=
      hstart.run cachedOptions (text "site")
    obtain ⟨hlocate, hdirectory, hpages, hkeys, hentry⟩ :
        siteTreeAgain.locate (text "cache") = .ok [text "cache"] ∧
          siteTreeAgain.entryAt? [text "cache"] = some .directory ∧
            pagesOf siteTreeAgain (text "site") = [⟨text "index", text "site/index.html"⟩] ∧
              (∀ k ∈ ([] ++ keysOf siteTree (text "site")) ++ keysOf siteTreeAgain (text "site"),
                k = (text "index", ['c'])) ∧
                siteTreeAgain.entryAt? [text "cache", entryName (text "site/index.html")] ≠
                  some .directory := by decide +kernel
    have hstands : Stands siteTreeAgain (text "cache") [text "cache"] :=
      ⟨.inl ⟨by decide, hlocate⟩, hdirectory⟩
    refine (transpile_cacheDir hrun rfl hstands (hinjOn hkeys)).1 ?_ ?_
    · have hsteps : FileTree.steps cachedOptions.viewsDir = [text "views"] := by decide
      have hviews : FileTree.advance [] (text "views") = [text "views"] := by decide
      rw [hsteps, Avoids, Avoids, hviews]
      constructor <;> rintro ⟨_, -, h⟩ <;> exact absurd (congrArg List.length h) (by simp)
    · rw [hpages, List.forall_mem_singleton]
      intro source v _ _
      exact (exists_set_iff hstands _ _ _ v).2 ⟨by decide, by decide, hentry⟩
  · have hstart : History [text "cache"] [] farTree := .start (by decide +kernel) rfl
    have hstands : Stands farTree (text "cache") [text "cache"] := ⟨.inl ⟨by decide, by decide⟩, rfl⟩
    have hkeys : ∀ k ∈ [] ++ keysOf farTree (text "site"), k = (farPage.label, ['c']) := by
      decide +kernel
    have hpage : farPage ∈ pagesOf farTree (text "site") := by decide +kernel
    have hlong : ¬ FileTree.byteLength (entryName farPage.path) ≤ FileTree.nameLimit := by decide +kernel
    refine ⟨((transpile_cacheDir hstart rfl hstands (hinjOn hkeys)).2 farPage hpage ?_).1,
      by decide +kernel⟩
    intro hstorable
    obtain ⟨v, hv⟩ := exists_of_isOk (by decide +kernel : (View.compile farPage.label ['c']).isOk = true)
    exact hlong ((exists_set_iff hstands _ _ _ v).1 (hstorable ['c'] v (by decide +kernel) hv)).2.1

end Viewloom.Site
