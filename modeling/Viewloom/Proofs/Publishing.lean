import Viewloom.Proofs.RequiredFiles
import Viewloom.Proofs.Tags
import Viewloom.Proofs.Writing

/-!
# Written sites are closed

A site is written as one module for each class, an index and a shared module, all under different names.
What a module requires next to itself is a child of its view or the shared module, and has been written
too.
-/

namespace Viewloom

namespace View

/-- The views of some trees are those of each of them. -/
theorem mem_descendantsAll_iff {vs : List View} {d : View} :
    d ∈ descendantsAll vs ↔ ∃ v ∈ vs, d ∈ v.descendants := by
  induction vs with
  | nil => simp [descendantsAll]
  | cons v vs ih => simp [descendantsAll, ih]

mutual

/-- A child of a view of a tree is a view of the tree. -/
theorem mem_descendants_of_mem_children : ∀ {v d child : View}, d ∈ v.descendants →
    child ∈ d.children → child ∈ v.descendants
  | ⟨_, _, _, _, _, _, children⟩, d, child, hd, hchild => by
    rw [descendants] at hd ⊢
    refine List.mem_cons_of_mem _ ?_
    rcases List.mem_cons.1 hd with rfl | hd
    · exact mem_descendantsAll_iff.2 ⟨child, hchild, mem_descendants_self child⟩
    · exact mem_descendantsAll_of_mem_children hd hchild

/-- The children of the views of a list of trees are among these views. -/
theorem mem_descendantsAll_of_mem_children : ∀ {vs : List View} {d child : View},
    d ∈ descendantsAll vs → child ∈ d.children → child ∈ descendantsAll vs
  | [], _, _, hd, _ => by cases hd
  | v :: vs, d, child, hd, hchild => by
    rw [descendantsAll, List.mem_append] at hd ⊢
    rcases hd with hd | hd
    · exact .inl (mem_descendants_of_mem_children hd hchild)
    · exact .inr (mem_descendantsAll_of_mem_children hd hchild)

end

end View

namespace Site

open FileTree (IsFileName Receives)

/-! ## Publishing a list of views -/

/-- The classes of trees of views, in the order in which they occur first. -/
def classesOf (roots : List View) : List Text :=
  ((View.descendantsAll roots).map View.className).eraseDups

/-- What is there after a site has been written: an index, a shared module and a module for each class,
in different files. What these files require from their own directory, as it is read from their texts, is
among them. -/
structure IsPublished (options : Options) (roots : List View) (paths : List Path) (after : FileTree) :
    Prop where
  paths_eq : paths = Path.join options.viewsDir (text "index.js") ::
    Path.join options.viewsDir (text "utils.js") ::
      (classesOf roots).map fun c => Path.join options.viewsDir (c ++ text ".js")
  nodup : paths.Nodup
  /-- The first view of a class is written, and requires the modules of its children. -/
  unit : ∀ c ∈ classesOf roots, ∃ d code,
    (View.descendantsAll roots).find? (fun v => v.className == c) = some d ∧
      renderModule options d = .ok code ∧
        after.read (Path.join options.viewsDir (c ++ text ".js")) = .ok code ∧
          Module.requiredInFront code =
            text "react" :: (d.children.map fun child => text "./" ++ child.className) ++
              [text "./utils"]
  /-- The index has one line for each class, in order. -/
  index : after.read (Path.join options.viewsDir (text "index.js")) =
    .ok ((classesOf roots).flatMap fun c =>
      text "exports." ++ c ++ text " = require('./" ++ c ++ text "')\n")
  utils : after.read (Path.join options.viewsDir (text "utils.js")) = .ok Module.utils
  closed : ∀ p ∈ paths, ∃ file, after.read p = .ok file ∧
    ∀ name, text "./" ++ name ∈ Module.requiredInFront file →
      Path.join options.viewsDir (name ++ text ".js") ∈ paths

section Publishing

variable {options : Options} {loader : Loader} {tree : FileTree} {roots : List View} {s : State}
  {paths : List Path}

/-- An attempt that reports no failure has written the file. -/
theorem attemptWrite_eq_none {s s' : State} {p : Path} {content : Text}
    (h : attemptWrite s p content = (s', none)) : s.tree.write p (some content) = .ok s'.tree := by
  simp only [attemptWrite, State.write] at h
  cases hwrite : s.tree.write p (some content) with
  | error cause => simp [hwrite] at h
  | ok t =>
      simp only [hwrite, Prod.mk.injEq, and_true] at h
      rw [← h]

/-- A site without failures has its directory made, all modules written, and then the index and the
helpers. -/
theorem writeAll_eq_ok (h : writeAll options loader tree roots = (s, .ok paths)) :
    ∃ before written middle units, tree.makeDirectories options.viewsDir = .ok before ∧
      writeUnits options loader (.start before) (distinct [] (View.descendantsAll roots)) =
        (written, .ok units) ∧
      written.tree.write (indexPath options)
        (some (Module.composeIndex (distinct [] (View.descendantsAll roots)))) = .ok middle ∧
      middle.write (utilsPath options) (some Module.utils) = .ok s.tree ∧
      paths = indexPath options :: utilsPath options :: units := by
  rw [writeAll] at h
  cases hmake : tree.makeDirectories options.viewsDir with
  | error cause => simp [hmake] at h
  | ok before =>
      simp only [hmake] at h
      cases hunits : writeUnits options loader (.start before)
          (distinct [] (View.descendantsAll roots)) with
      | mk written outcome =>
          simp only [hunits] at h
          cases hindex : attemptWrite written (indexPath options)
              (Module.composeIndex (distinct [] (View.descendantsAll roots))) with
          | mk middle indexError =>
              simp only [hindex] at h
              cases hutils : attemptWrite middle (utilsPath options) Module.utils with
              | mk last utilsError =>
                  simp only [hutils] at h
                  split at h
                  · simp at h
                  · simp at h
                  · simp at h
                  · next units =>
                    simp only [Prod.mk.injEq, Except.ok.injEq] at h
                    obtain ⟨rfl, rfl⟩ := h
                    exact ⟨before, written, middle.tree, units, rfl, hunits,
                      attemptWrite_eq_none hindex, attemptWrite_eq_none hutils, rfl⟩

/-- What is known of the name of a class. -/
structure IsClassOfLabel (className : Text) : Prop where
  wordy : className.all Script.isWordy = true
  suffix : text "View" <:+ className

/-- The class of a label consists of letters, numerals and low lines. -/
theorem IsClassOfLabel.not_mem {className : Text} (h : IsClassOfLabel className) {c : Char}
    (hc : Script.isWordy c = false) : c ∉ className := by
  intro hmem
  rw [List.all_eq_true.1 h.wordy c hmem] at hc
  cases hc

/-- All views of compiled trees are named by labels. -/
theorem isNamed_of_mem (hroots : ∀ r ∈ roots, ∃ label source, View.compile label source = .ok r)
    {d : View} (hd : d ∈ View.descendantsAll roots) : Script.IsNamed d := by
  obtain ⟨r, hr, hd⟩ := View.mem_descendantsAll_iff.1 hd
  obtain ⟨label, source, hcompile⟩ := hroots r hr
  exact View.isNamed_of_mem_descendants hcompile hd

theorem isClassOfLabel_of_mem
    (hroots : ∀ r ∈ roots, ∃ label source, View.compile label source = .ok r) {d : View}
    (hd : d ∈ View.descendantsAll roots) : IsClassOfLabel d.className := by
  obtain ⟨label, hlabel⟩ := (isNamed_of_mem hroots hd).names
  obtain ⟨hwordy, hsuffix, -⟩ := Script.exists_className hlabel
  exact ⟨hwordy, hsuffix⟩

/-- A class is not named like the index or the shared module. -/
theorem fileName_not_mem {className : Text} (h : IsClassOfLabel className) :
    Module.fileName className ∉ [text "index.js", text "utils.js"] := by
  have hother (name : Text) (hname : ¬ text "View" <:+ name) :
      Module.fileName className ≠ name ++ text ".js" :=
    fun heq => hname ((List.append_left_inj _).1 heq ▸ h.suffix)
  rw [List.mem_cons, List.mem_singleton, not_or]
  exact ⟨hother (text "index") (by decide), hother (text "utils") (by decide)⟩

/-- The files of a site have different names. -/
theorem nodup_paths (options : Options) {classes : List Text} (hnodup : classes.Nodup)
    (h : ∀ c ∈ classes, IsClassOfLabel c) :
    (indexPath options :: utilsPath options ::
      classes.map fun c => Path.join options.viewsDir (Module.fileName c)).Nodup := by
  have hnames : (text "index.js" :: text "utils.js" :: classes.map Module.fileName).Nodup := by
    have hfixed {name : Text} (hname : name ∈ [text "index.js", text "utils.js"]) :
        name ∉ classes.map Module.fileName := by
      intro hmem
      obtain ⟨c, hc, rfl⟩ := List.mem_map.1 hmem
      exact fileName_not_mem (h c hc) hname
    refine List.nodup_cons.2 ⟨?_, List.nodup_cons.2 ⟨hfixed (by simp), ?_⟩⟩
    · rw [List.mem_cons, not_or]
      exact ⟨by decide, hfixed (by simp)⟩
    · exact hnodup.map fun _ _ => fileName_inj.1
  have hfiles : ∀ name ∈ text "index.js" :: text "utils.js" :: classes.map Module.fileName,
      IsFileName name := by
    intro name hname
    simp only [List.mem_cons, List.mem_map] at hname
    rcases hname with rfl | rfl | ⟨c, hc, rfl⟩
    · exact ⟨by decide, by decide⟩
    · exact ⟨by decide, by decide⟩
    · exact isFileName_fileName ((h c hc).not_mem (by decide))
  have hpaths := hnames.map_on (f := Path.join options.viewsDir) fun a ha b hb heq =>
    FileTree.join_inj (hfiles a ha) (hfiles b hb) heq
  rwa [List.map_cons, List.map_cons, List.map_map] at hpaths

/-- The modules that are written are those of the classes, each once. -/
theorem map_className_units (roots : List View) :
    (distinct [] (View.descendantsAll roots)).map View.className = classesOf roots :=
  map_className_distinct_nil _

theorem className_mem_classesOf {d : View} (hd : d ∈ View.descendantsAll roots) :
    d.className ∈ classesOf roots :=
  List.mem_eraseDups.2 (List.mem_map_of_mem hd)

/-- The first view of a class is the one that is kept of it. -/
theorem exists_unit {c : Text} (hc : c ∈ classesOf roots) :
    ∃ d ∈ distinct [] (View.descendantsAll roots),
      d.className = c ∧ (View.descendantsAll roots).find? (fun v => v.className == c) = some d := by
  rw [← map_className_units] at hc
  obtain ⟨u, hu, hclass⟩ := List.mem_map.1 hc
  obtain ⟨d, hd⟩ := Option.isSome_iff_exists.1
    (List.find?_isSome.2 ⟨u, hu, beq_iff_eq.2 hclass⟩ :
      ((distinct [] (View.descendantsAll roots)).find? fun v => v.className == c).isSome)
  refine ⟨d, List.mem_of_find?_eq_some hd, by simpa using List.find?_some hd, ?_⟩
  rw [← hd]
  exact (find?_distinct (by simp)).symm

theorem isClassOfLabel_of_mem_distinct
    (hroots : ∀ r ∈ roots, ∃ label source, View.compile label source = .ok r) {d : View}
    (hd : d ∈ distinct [] (View.descendantsAll roots)) : IsClassOfLabel d.className :=
  isClassOfLabel_of_mem hroots (mem_of_mem_distinct hd)

/-- The index and the shared module are written behind the modules of the views, under names that no
module has. -/
theorem receives_writeAll (hroots : ∀ r ∈ roots, ∃ label source, View.compile label source = .ok r)
    (h : writeAll options loader tree roots = (s, .ok paths)) :
    let units := distinct [] (View.descendantsAll roots)
    paths = indexPath options :: utilsPath options :: units.map (unitPath options) ∧
      (∀ d ∈ units, ∃ code, renderModule options d = .ok code) ∧
      ∃ before, Receives options.viewsDir (units.map (unitFile options) ++
        [(text "index.js", Module.composeIndex units)] ++ [(text "utils.js", Module.utils)])
          before s.tree := by
  intro units
  obtain ⟨before, written, middle, unitPaths, -, hunits, hindex, hutils, rfl⟩ := writeAll_eq_ok h
  have hnamed : ∀ d ∈ units, IsClassOfLabel d.className :=
    fun d hd => isClassOfLabel_of_mem_distinct hroots hd
  obtain ⟨rfl, hcodes, hreceives⟩ := receives_writeUnits hunits (nodup_distinct [] _)
    (fun d hd => (hnamed d hd).not_mem (by decide)) (by simp) (FileTree.receives_nil _ before)
  have hfresh {name : Text} (hname : name ∈ [text "index.js", text "utils.js"]) :
      name ∉ (units.map (unitFile options)).map Prod.fst := by
    intro hmem
    obtain ⟨f, hf, rfl⟩ := List.mem_map.1 hmem
    obtain ⟨d, hd, rfl⟩ := List.mem_map.1 hf
    exact fileName_not_mem (hnamed d hd) hname
  have hlast : text "utils.js" ∉
      (units.map (unitFile options) ++ [(text "index.js", Module.composeIndex units)]).map Prod.fst := by
    rw [List.map_append, List.mem_append, not_or]
    exact ⟨hfresh (by simp), (by decide : text "utils.js" ∉ [text "index.js"])⟩
  rw [List.nil_append] at hreceives
  have hwithIndex := hreceives.write ⟨by decide, by decide⟩ (hfresh (by simp)) hindex
  exact ⟨rfl, hcodes, before, hwithIndex.write ⟨by decide, by decide⟩ hlast hutils⟩

/-- A site that has been written is closed: each class has one module, which belongs to the first view
of that class, the index exports each class once, and what is required next to a file is there. -/
theorem isPublished_of_writeAll (hroots : ∀ r ∈ roots, ∃ label source, View.compile label source = .ok r)
    (h : writeAll options loader tree roots = (s, .ok paths)) :
    IsPublished options roots paths s.tree := by
  obtain ⟨hpaths, hcodes, before, hreceives⟩ := receives_writeAll hroots h
  have hnamed : ∀ d ∈ distinct [] (View.descendantsAll roots), IsClassOfLabel d.className :=
    fun d hd => isClassOfLabel_of_mem_distinct hroots hd
  have hunits : (distinct [] (View.descendantsAll roots)).map (unitPath options) =
      (classesOf roots).map fun c => Path.join options.viewsDir (c ++ text ".js") := by
    rw [← map_className_units, List.map_map]
    rfl
  rw [hunits] at hpaths
  have hpaths : paths = Path.join options.viewsDir (text "index.js") ::
      Path.join options.viewsDir (text "utils.js") ::
        (classesOf roots).map fun c => Path.join options.viewsDir (c ++ text ".js") := hpaths
  have hwritten {c : Text} (hc : c ∈ classesOf roots) :
      Path.join options.viewsDir (c ++ text ".js") ∈ paths := by
    rw [hpaths]
    exact List.mem_cons_of_mem _ (List.mem_cons_of_mem _ (List.mem_map.2 ⟨c, hc, rfl⟩))
  have hshared : Path.join options.viewsDir (text "utils" ++ text ".js") ∈ paths := by
    rw [hpaths]
    exact List.mem_cons_of_mem _ List.mem_cons_self
  have hclass : ∀ c ∈ classesOf roots, IsClassOfLabel c := by
    intro c hc
    obtain ⟨d, hd, rfl, -⟩ := exists_unit hc
    exact hnamed d hd
  -- Every class has its file, and what that file requires is known from the view behind it.
  have hunit : ∀ c ∈ classesOf roots, ∃ d code, d ∈ View.descendantsAll roots ∧
      (View.descendantsAll roots).find? (fun v => v.className == c) = some d ∧
        renderModule options d = .ok code ∧
          s.tree.read (Path.join options.viewsDir (c ++ text ".js")) = .ok code ∧
            Module.requiredInFront code = Module.importedBy d := by
    intro c hc
    obtain ⟨d, hd, rfl, hfirst⟩ := exists_unit hc
    obtain ⟨code, hcode⟩ := hcodes d hd
    have hread := hreceives.reads (unitFile options d)
      (List.mem_append_left _ (List.mem_append_left _ (List.mem_map_of_mem hd)))
    rw [unitFile_eq hcode] at hread
    have hmem := mem_of_mem_distinct hd
    exact ⟨d, code, hmem, hfirst, hcode, hread,
      Module.requiredInFront_renderModule (isNamed_of_mem hroots hmem) hcode⟩
  have hindex : s.tree.read (Path.join options.viewsDir (text "index.js")) =
      .ok ((classesOf roots).flatMap fun c =>
        text "exports." ++ c ++ text " = require('./" ++ c ++ text "')\n") := by
    have hread := hreceives.reads (text "index.js", _)
      (List.mem_append_left _ (List.mem_append_right _ List.mem_cons_self))
    rwa [Module.composeIndex_eq fun d hd => (hnamed d hd).wordy, map_className_units] at hread
  have hutils : s.tree.read (Path.join options.viewsDir (text "utils.js")) = .ok Module.utils :=
    hreceives.reads (text "utils.js", _) (List.mem_append_right _ List.mem_cons_self)
  constructor
  case paths_eq => exact hpaths
  case nodup =>
    rw [hpaths]
    exact nodup_paths options (map_className_units roots ▸ nodup_distinct [] _) hclass
  case unit =>
    intro c hc
    obtain ⟨d, code, -, hfirst, hcode, hread, hfront⟩ := hunit c hc
    exact ⟨d, code, hfirst, hcode, hread, hfront⟩
  case index => exact hindex
  case utils => exact hutils
  case closed =>
    intro p hp
    rw [hpaths, List.mem_cons, List.mem_cons, List.mem_map] at hp
    -- The index requires the classes, the helpers nothing, and a class its children and the helpers.
    rcases hp with rfl | rfl | ⟨c, hc, rfl⟩
    · refine ⟨_, hindex, fun name hname => ?_⟩
      rw [Module.requiredInFront_index fun c hc => (hclass c hc).wordy, List.mem_map] at hname
      obtain ⟨c, hc, heq⟩ := hname
      exact (List.append_right_inj _).1 heq ▸ hwritten hc
    · refine ⟨_, hutils, fun name hname => ?_⟩
      rw [Module.requiredInFront_utils, List.mem_singleton] at hname
      cases hname
    · obtain ⟨d, code, hd, -, -, hread, hfront⟩ := hunit c hc
      refine ⟨code, hread, fun name hname => ?_⟩
      rw [hfront, Module.mem_importedBy_iff] at hname
      rcases hname with ⟨child, hchild, rfl⟩ | rfl
      · exact hwritten (className_mem_classesOf (View.mem_descendantsAll_of_mem_children hd hchild))
      · exact hshared

/-- Two pages that define one class differently. -/
def indexPage : Text := text "<div af-el='nav'>a</div>"

def aboutPage : Text := text "<div af-el='nav'>b</div>"

/-- Two pages that share a child view are published with one module for it. -/
theorem isPublished_of_writeAll_pages : ∃ v w, View.compile (text "index") indexPage = .ok v ∧
    View.compile (text "about") aboutPage = .ok w ∧
      IsPublished plainOptions [v, w]
        [text "views/index.js", text "views/utils.js", text "views/IndexView.js",
          text "views/NavView.js", text "views/AboutView.js"]
        (writeAll plainOptions silentLoader viewsTree [v, w]).1.tree := by
  have hpaths : (View.compile (text "index") indexPage).toOption.any (fun v =>
      decide ((View.compile (text "about") aboutPage).toOption.any (fun w =>
        decide ((writeAll plainOptions silentLoader viewsTree [v, w]).2.toOption.any (fun paths =>
          decide (paths = [text "views/index.js", text "views/utils.js", text "views/IndexView.js",
            text "views/NavView.js", text "views/AboutView.js"])) = true)) = true)) = true := by
    decide +kernel
  obtain ⟨v, hv, hpaths⟩ := exists_of_any hpaths
  obtain ⟨w, hw, hpaths⟩ := exists_of_any hpaths
  obtain ⟨_, houtcome, rfl⟩ := exists_of_any hpaths
  refine ⟨v, w, hv, hw, isPublished_of_writeAll (fun r hr => ?_) (Prod.ext rfl houtcome)⟩
  simp only [List.mem_cons, List.not_mem_nil, or_false] at hr
  rcases hr with rfl | rfl
  · exact ⟨_, _, hv⟩
  · exact ⟨_, _, hw⟩

end Publishing

end Site

end Viewloom
