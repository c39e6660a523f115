import Mathlib.Data.List.Nodup
import Viewloom.Proofs.Emission
import Viewloom.Proofs.Files
import Viewloom.Site

/-!
# What is written of a view

The nodes of a tree of views are written once for each class, and only if all nodes of one class are
equal. So the file of every node holds the module of that node, and no other place changes.
-/

namespace Viewloom

namespace View

theorem mem_descendants_self (v : View) : v ∈ v.descendants := by
  cases v
  simp [descendants]

/-- No class of a compiled tree holds a slash. -/
theorem slash_not_mem_className {label source : Text} {v d : View}
    (h : compile label source = .ok v) (hd : d ∈ v.descendants) : '/' ∉ d.className := by
  obtain ⟨label, hlabel⟩ := (isNamed_of_mem_descendants h hd).1
  intro hslash
  have hwordy := List.all_eq_true.1 (Script.exists_className hlabel).1 '/' hslash
  exact absurd hwordy (by decide)

theorem head?_descendants (v : View) : v.descendants.head? = some v := by
  cases v
  simp [descendants]

end View

namespace Site

open FileTree (IsFileName Receives)

variable {options : Options} {loader : Loader} {s s' : State} {seen vs : List View} {v : View}

/-! ## The first view of each class -/

theorem mem_of_mem_distinct (hv : v ∈ distinct seen vs) : v ∈ vs := by
  induction vs generalizing seen with
  | nil => exact hv
  | cons w vs ih =>
      rw [distinct] at hv
      split at hv
      · exact List.mem_cons_of_mem _ (ih hv)
      · rcases List.mem_cons.1 hv with rfl | hv
        · exact List.mem_cons_self
        · exact List.mem_cons_of_mem _ (ih hv)

theorem any_className_iff {className : Text} :
    (seen.any fun w => w.className == className) = true ↔ className ∈ seen.map View.className := by
  simp [List.mem_map]

/-- The classes are those that have not been seen, in the order in which they occur first. -/
theorem map_className_distinct (seen vs : List View) :
    (distinct seen vs).map View.className =
      ((vs.map View.className).filter fun c => c ∉ seen.map View.className).eraseDups := by
  induction vs generalizing seen with
  | nil => rfl
  | cons v vs ih =>
      rw [distinct]
      simp only [any_className_iff]
      split
      · next hseen => rw [ih, List.map_cons, List.filter_cons_of_neg (by simpa using hseen)]
      · next hseen =>
        rw [List.map_cons, ih, List.map_cons (l := vs), List.filter_cons_of_pos (by simpa using hseen),
          List.eraseDups_cons, List.filter_filter]
        congr 3
        funext c
        by_cases hc : c = v.className <;> simp [hc]

/-- The classes that are written are those of the views, each of them once. -/
theorem map_className_distinct_nil (vs : List View) :
    (distinct [] vs).map View.className = (vs.map View.className).eraseDups := by
  simpa using map_className_distinct [] vs

/-- No class is written twice. -/
theorem nodup_distinct (seen vs : List View) : ((distinct seen vs).map View.className).Nodup := by
  induction vs generalizing seen with
  | nil => exact List.nodup_nil
  | cons v vs ih =>
      rw [distinct]
      split
      · exact ih seen
      · refine List.nodup_cons.2 ⟨fun hmem => ?_, ih (v :: seen)⟩
        rw [map_className_distinct, List.mem_eraseDups] at hmem
        simp at hmem

/-- What is kept of a class is the first view of it. -/
theorem find?_distinct {className : Text} (hseen : className ∉ seen.map View.className) :
    (distinct seen vs).find? (fun v => v.className == className) =
      vs.find? fun v => v.className == className := by
  induction vs generalizing seen with
  | nil => rfl
  | cons v vs ih =>
      rw [distinct]
      simp only [any_className_iff]
      by_cases hv : v.className = className
      · rw [if_neg (hv ▸ hseen), List.find?_cons_of_pos (by simp [hv]),
          List.find?_cons_of_pos (by simp [hv])]
      · rw [List.find?_cons_of_neg (by simp [hv])]
        split
        · exact ih hseen
        · rw [List.find?_cons_of_neg (by simp [hv])]
          exact ih (by simpa [Ne.symm hv] using hseen)

/-- Every view has one of its class among those that are kept. -/
theorem exists_mem_distinct (hv : v ∈ vs) : ∃ u ∈ distinct [] vs, u.className = v.className := by
  have hmem : v.className ∈ (distinct [] vs).map View.className := by
    rw [map_className_distinct_nil, List.mem_eraseDups]
    exact List.mem_map_of_mem hv
  obtain ⟨u, hu, hclass⟩ := List.mem_map.1 hmem
  exact ⟨u, hu, hclass⟩

/-! ## Conflicts -/

/-- Some views of one class differ. -/
def Differ (vs : List View) (className : Text) : Prop :=
  ∃ u ∈ vs, ∃ w ∈ vs, u.className = className ∧ w.className = className ∧ u ≠ w

instance (vs : List View) (className : Text) : Decidable (Differ vs className) :=
  inferInstanceAs (Decidable (∃ u ∈ vs, ∃ w ∈ vs, _ ∧ _ ∧ _))

/-- A class conflicts exactly if some view differs from the written one of its class. -/
theorem mem_conflicts_iff {units : List View} {className : Text} : className ∈ conflicts units vs ↔
    ∃ w ∈ vs, ∃ u ∈ units, u.className = w.className ∧ u ≠ w ∧ w.className = className := by
  simp only [conflicts, List.mem_map, List.mem_filter, List.any_eq_true, Bool.and_eq_true,
    beq_iff_eq, bne_iff_ne]
  constructor
  · rintro ⟨w, ⟨hw, u, hu, hclass, hne⟩, hname⟩
    exact ⟨w, hw, u, hu, hclass, hne, hname⟩
  · rintro ⟨w, hw, u, hu, hclass, hne, hname⟩
    exact ⟨w, ⟨hw, u, hu, hclass, hne⟩, hname⟩

/-- It is enough to compare each view with the first one of its class: of two views that differ, one
differs from that. -/
theorem mem_conflicts_distinct_iff {className : Text} :
    className ∈ conflicts (distinct [] vs) vs ↔ Differ vs className := by
  rw [mem_conflicts_iff]
  constructor
  · rintro ⟨w, hw, u, hu, hclass, hne, rfl⟩
    exact ⟨u, mem_of_mem_distinct hu, w, hw, hclass, rfl, hne⟩
  · rintro ⟨u, hu, w, hw, rfl, hclass, hne⟩
    obtain ⟨first, hfirst, hname⟩ := exists_mem_distinct hu
    by_cases heq : first = u
    · exact ⟨w, hw, first, hfirst, hname.trans hclass.symm, heq ▸ hne, hclass⟩
    · exact ⟨u, hu, first, hfirst, hname, heq, rfl⟩

/-! ## Writing units -/

/-- Loading a controller leaves the files as they are. -/
@[simp]
theorem tree_resolve (s : State) (loader : Loader) (v : View) : (s.resolve loader v).tree = s.tree :=
  rfl

/-- A module fails only if it cannot be read. -/
theorem renderModule_eq_error {e : Error} (h : renderModule options v = .error e) :
    e = .invalidModule v.className := by
  simp only [renderModule, Module.format, Module.check, Module.treeOf] at h
  generalize Module.compose v _ = code at h
  cases hparse : Script.parse code with
  | none =>
      simp only [hparse, ite_self, Except.error.injEq] at h
      exact h.symm
  | some t =>
      simp only [hparse] at h
      split at h <;> cases h

/-- What a loader answers does not reach the tree, nor the outcome. -/
theorem writeUnit_congr (options : Options) (loader loader' : Loader) (v : View) (htree : s.tree = s'.tree) :
    (writeUnit options loader s v).1.tree = (writeUnit options loader' s' v).1.tree ∧
      (writeUnit options loader s v).2 = (writeUnit options loader' s' v).2 := by
  unfold writeUnit
  cases renderModule options v with
  | error e => exact ⟨htree, rfl⟩
  | ok code =>
      simp only [State.write, tree_resolve, htree]
      cases s'.tree.write (unitPath options v) (some code) with
      | error cause => exact ⟨htree, rfl⟩
      | ok t => exact ⟨rfl, rfl⟩

/-- A unit that is written stands at its path with the code of its module. -/
theorem writeUnit_eq_ok {p : Path} (h : writeUnit options loader s v = (s', .ok p)) :
    p = unitPath options v ∧ ∃ code, renderModule options v = .ok code ∧
      s.tree.write (unitPath options v) (some code) = .ok s'.tree := by
  unfold writeUnit at h
  cases hrender : renderModule options v with
  | error e => simp [hrender] at h
  | ok code =>
      simp only [hrender, State.write, tree_resolve] at h
      cases hwrite : s.tree.write (unitPath options v) (some code) with
      | error cause => simp [hwrite] at h
      | ok t =>
          simp only [hwrite, Prod.mk.injEq, Except.ok.injEq] at h
          obtain ⟨rfl, rfl⟩ := h
          exact ⟨rfl, code, rfl, hwrite⟩

/-- A unit fails if its module does or its file cannot be written. -/
theorem writeUnit_eq_error {e : Error} (h : (writeUnit options loader s v).2 = .error e) :
    e = .invalidModule v.className ∨ ∃ cause, e = .access (unitPath options v) cause := by
  unfold writeUnit at h
  cases hrender : renderModule options v with
  | error e' =>
      simp only [hrender, Except.error.injEq] at h
      exact .inl (h ▸ renderModule_eq_error hrender)
  | ok code =>
      simp only [hrender, State.write, tree_resolve] at h
      cases hwrite : s.tree.write (unitPath options v) (some code) with
      | error cause =>
          simp only [hwrite, Except.error.injEq] at h
          exact .inr ⟨cause, h.symm⟩
      | ok t => simp [hwrite] at h

/-- What is written does not depend on the loader. -/
theorem writeUnits_congr (options : Options) (loader loader' : Loader) (vs : List View)
    (htree : s.tree = s'.tree) :
    (writeUnits options loader s vs).1.tree = (writeUnits options loader' s' vs).1.tree ∧
      (writeUnits options loader s vs).2 = (writeUnits options loader' s' vs).2 := by
  induction vs generalizing s s' with
  | nil => exact ⟨htree, rfl⟩
  | cons v vs ih =>
      obtain ⟨hone, hfirst⟩ := writeUnit_congr options loader loader' v htree
      obtain ⟨hall, hrest⟩ := ih hone
      simp only [writeUnits, ← hfirst, ← hrest]
      split <;> exact ⟨hall, rfl⟩

/-- Units are written one by one. -/
theorem writeUnits_cons_eq_ok {paths : List Path}
    (h : writeUnits options loader s (v :: vs) = (s', .ok paths)) :
    ∃ middle p ps, writeUnit options loader s v = (middle, .ok p) ∧
      writeUnits options loader middle vs = (s', .ok ps) ∧ paths = p :: ps := by
  cases hone : writeUnit options loader s v with
  | mk middle first =>
      cases hall : writeUnits options loader middle vs with
      | mk last rest =>
          rw [writeUnits, hone] at h
          simp only [hall] at h
          split at h
          · next p ps =>
            simp only [Prod.mk.injEq, Except.ok.injEq] at h
            obtain ⟨rfl, rfl⟩ := h
            exact ⟨middle, p, ps, rfl, hall, rfl⟩
          · simp at h
          · simp at h

/-- Units fail only as one of them does. -/
theorem writeUnits_eq_error {e : Error} (h : (writeUnits options loader s vs).2 = .error e) :
    ∃ v ∈ vs, e = .invalidModule v.className ∨ ∃ cause, e = .access (unitPath options v) cause := by
  induction vs generalizing s with
  | nil => cases h
  | cons v vs ih =>
      rw [writeUnits] at h
      simp only at h
      split at h
      · cases h
      · next e' _ hfirst =>
        obtain rfl := Except.error.inj h
        exact ⟨v, List.mem_cons_self, writeUnit_eq_error hfirst⟩
      · next e' _ hrest =>
        obtain rfl := Except.error.inj h
        obtain ⟨w, hw, hcause⟩ := ih hrest
        exact ⟨w, List.mem_cons_of_mem _ hw, hcause⟩

/-! ## Reading units back -/

/-- The file of the module of a view. -/
def unitFile (options : Options) (v : View) : Text × Text :=
  (Module.fileName v.className, (renderModule options v).toOption.getD [])

theorem unitFile_eq {code : Text} (h : renderModule options v = .ok code) :
    unitFile options v = (Module.fileName v.className, code) := by
  rw [unitFile, h]
  rfl

theorem isFileName_fileName {className : Text} (h : '/' ∉ className) :
    IsFileName (Module.fileName className) := by
  have hlength : 2 < (Module.fileName className).length := by
    rw [Module.fileName, List.length_append]
    exact Nat.lt_of_lt_of_le (by decide) (Nat.le_add_left _ _)
  refine ⟨?_, ?_⟩
  · simp only [FileTree.isNew, Bool.and_eq_true, bne_iff_ne]
    refine ⟨⟨?_, ?_⟩, ?_⟩ <;> intro heq <;> rw [heq] at hlength <;> exact absurd hlength (by decide)
  · rw [Module.fileName, List.mem_append, not_or]
    exact ⟨h, by decide⟩

theorem fileName_inj {c d : Text} : Module.fileName c = Module.fileName d ↔ c = d :=
  List.append_left_inj _

/-- Views of different classes are written into a directory one by one, and all of them are there in
the end. -/
theorem receives_writeUnits {files : List (Text × Text)} {tree : FileTree} {paths : List Path}
    (h : writeUnits options loader s vs = (s', .ok paths)) (hnodup : (vs.map View.className).Nodup)
    (hslash : ∀ v ∈ vs, '/' ∉ v.className)
    (hfresh : ∀ v ∈ vs, Module.fileName v.className ∉ files.map Prod.fst)
    (hfiles : Receives options.viewsDir files tree s.tree) :
    paths = vs.map (unitPath options) ∧ (∀ v ∈ vs, ∃ code, renderModule options v = .ok code) ∧
      Receives options.viewsDir (files ++ vs.map (unitFile options)) tree s'.tree := by
  induction vs generalizing s files paths with
  | nil =>
      simp only [writeUnits, Prod.mk.injEq, Except.ok.injEq] at h
      obtain ⟨rfl, rfl⟩ := h
      exact ⟨rfl, by simp, by simpa using hfiles⟩
  | cons v vs ih =>
      obtain ⟨middle, p, ps, hone, hall, rfl⟩ := writeUnits_cons_eq_ok h
      obtain ⟨rfl, code, hrender, hwrite⟩ := writeUnit_eq_ok hone
      rw [List.map_cons, List.nodup_cons] at hnodup
      simp only [List.mem_cons, forall_eq_or_imp] at hslash hfresh
      have hstep : Receives options.viewsDir (files ++ [unitFile options v]) tree middle.tree := by
        rw [unitFile_eq hrender]
        exact hfiles.write (isFileName_fileName hslash.1) hfresh.1 hwrite
      have hlater : ∀ w ∈ vs,
          Module.fileName w.className ∉ (files ++ [unitFile options v]).map Prod.fst := by
        intro w hw hmem
        rw [List.map_append, List.mem_append] at hmem
        rcases hmem with hmem | hmem
        · exact hfresh.2 w hw hmem
        · simp only [unitFile, List.map_cons, List.map_nil, List.mem_singleton, fileName_inj] at hmem
          exact hnodup.1 (hmem ▸ List.mem_map_of_mem hw)
      obtain ⟨rfl, hcodes, hreceives⟩ := ih hall hnodup.2 hslash.2 hlater hstep
      refine ⟨rfl, ?_, by simpa using hreceives⟩
      simp only [List.mem_cons, forall_eq_or_imp]
      exact ⟨⟨code, hrender⟩, hcodes⟩

/-! ## Writing a view -/

/-- What is there after a view has been written: a path for each node, in pre-order, the module of
each node behind its path, and everything else as before. -/
structure IsWritten (options : Options) (v : View) (paths : List Path) (before after : FileTree) :
    Prop where
  paths_eq : paths = v.descendants.map (unitPath options)
  length_eq : paths.length = v.count
  head_eq : paths.head? = some (unitPath options v)
  reads : ∀ d ∈ v.descendants, ∃ code, renderModule options d = .ok code ∧
    after.read (unitPath options d) = .ok code
  frame : ∀ place, (∀ d ∈ v.descendants, after.locate (unitPath options d) ≠ .ok place) →
    after.entryAt? place = before.entryAt? place

section Views

variable {tree : FileTree}

/-- Where a conflict is reported, two views of the class differ and nothing is written. -/
theorem differ_of_conflict {className : Text}
    (h : (writeView options loader tree v).2 = .error (.conflictingView className)) :
    Differ v.descendants className ∧ (writeView options loader tree v).1.tree = tree := by
  rw [writeView] at h ⊢
  cases hconflicts : conflicts (distinct [] v.descendants) v.descendants with
  | cons c cs =>
      simp only [hconflicts, Except.error.injEq, Error.conflictingView.injEq] at h ⊢
      subst h
      refine ⟨mem_conflicts_distinct_iff.1 ?_, rfl⟩
      rw [hconflicts]
      exact List.mem_cons_self
  | nil =>
      simp only [hconflicts] at h
      split at h
      · cases h
      · next e hunits =>
        obtain rfl := Except.error.inj h
        obtain ⟨w, -, hcause | ⟨cause, hcause⟩⟩ := writeUnits_eq_error (congrArg Prod.snd hunits)
        · cases hcause
        · cases hcause

/-- Where two views of a class differ, a conflict is reported. -/
theorem exists_conflict (options : Options) (loader : Loader) (tree : FileTree) {className : Text}
    (h : Differ v.descendants className) :
    ∃ c, (writeView options loader tree v).2 = .error (.conflictingView c) := by
  have hmem := mem_conflicts_distinct_iff.2 h
  rw [writeView]
  cases hconflicts : conflicts (distinct [] v.descendants) v.descendants with
  | nil => simp [hconflicts] at hmem
  | cons c cs => exact ⟨c, rfl⟩

/-- The files of a view and its result do not depend on the loader. -/
theorem writeView_congr (loader loader' : Loader) :
    (writeView options loader tree v).1.tree = (writeView options loader' tree v).1.tree ∧
      (writeView options loader tree v).2 = (writeView options loader' tree v).2 := by
  obtain ⟨htree, houtcome⟩ := writeUnits_congr options loader loader' (distinct [] v.descendants)
    (rfl : (State.start tree).tree = (State.start tree).tree)
  simp only [writeView]
  split
  · exact ⟨rfl, rfl⟩
  · split <;> split <;> simp_all

/-- A view whose classes hold no slash is written as its modules, and nothing else changes. -/
theorem isWritten_of_writeView {paths : List Path} (hslash : ∀ d ∈ v.descendants, '/' ∉ d.className)
    (h : writeView options loader tree v = (s, .ok paths)) :
    IsWritten options v paths tree s.tree := by
  have hequal : ∀ u ∈ v.descendants, ∀ d ∈ v.descendants, u.className = d.className → u = d := by
    intro u hu d hd hclass
    by_contra hne
    obtain ⟨c, hc⟩ := exists_conflict options loader tree ⟨u, hu, d, hd, hclass, rfl, hne⟩
    rw [h] at hc
    cases hc
  rw [writeView] at h
  split at h
  · cases h
  · split at h
    · next ps hunits =>
      simp only [Prod.mk.injEq, Except.ok.injEq] at h
      obtain ⟨rfl, rfl⟩ := h
      obtain ⟨-, hcodes, hreceives⟩ := receives_writeUnits hunits (nodup_distinct [] v.descendants)
        (fun d hd => hslash d (mem_of_mem_distinct hd)) (by simp) (FileTree.receives_nil _ tree)
      rw [List.nil_append] at hreceives
      have hkept : ∀ d ∈ v.descendants, d ∈ distinct [] v.descendants := by
        intro d hd
        obtain ⟨u, hu, hclass⟩ := exists_mem_distinct hd
        exact hequal u (mem_of_mem_distinct hu) d hd hclass ▸ hu
      refine ⟨rfl, by rw [List.length_map, View.length_descendants],
        by rw [List.head?_map, View.head?_descendants]; rfl, fun d hd => ?_, fun place hplace => ?_⟩
      · obtain ⟨code, hcode⟩ := hcodes d (hkept d hd)
        have hread := hreceives.reads _ (List.mem_map_of_mem (hkept d hd))
        rw [unitFile_eq hcode] at hread
        exact ⟨code, hcode, hread⟩
      · refine hreceives.frame place fun f hf => ?_
        obtain ⟨d, hd, rfl⟩ := List.mem_map.1 hf
        exact hplace d (mem_of_mem_distinct hd)
    · cases h

/-- Writing a view is refused exactly if two nodes of one class differ, and then nothing is written.
If it succeeds and no class name leads to another directory, which none of a compiled view does, then
the module of each node is in the file of that node, and no other place of the tree has changed. What the
loader answers is neither in the tree nor in the outcome. -/
theorem writeView_spec (options : Options) (loader : Loader) (tree : FileTree) (v : View) :
    ((∃ className, Differ v.descendants className) ↔
        ∃ className, (writeView options loader tree v).2 = .error (.conflictingView className)) ∧
      (∀ className, (writeView options loader tree v).2 = .error (.conflictingView className) →
        Differ v.descendants className ∧ (writeView options loader tree v).1.tree = tree) ∧
      ((∀ d ∈ v.descendants, '/' ∉ d.className) →
        ∀ paths, (writeView options loader tree v).2 = .ok paths →
          IsWritten options v paths tree (writeView options loader tree v).1.tree) ∧
      ∀ loader' : Loader,
        (writeView options loader tree v).1.tree = (writeView options loader' tree v).1.tree ∧
          (writeView options loader tree v).2 = (writeView options loader' tree v).2 :=
  ⟨⟨fun ⟨_, h⟩ => exists_conflict options loader tree h,
      fun ⟨className, h⟩ => ⟨className, (differ_of_conflict h).1⟩⟩,
    fun _ => differ_of_conflict,
    fun hslash _ h => isWritten_of_writeView hslash (Prod.ext rfl h),
    writeView_congr loader⟩

/-- One class stands for two nodes. -/
def sharedPage : Text :=
  text "<p af-el='aside'><b af-el='nav'>x</b></p><b af-el='nav'>x</b>"

/-- Two nodes of one class differ. -/
def conflictingPage : Text :=
  text "<p af-el='aside'><b af-el='nav'>x</b></p><b af-el='nav'>y</b>"

def plainOptions : Options := ⟨text "views", text "controllers", none, false⟩

def viewsTree : FileTree := .directory [(text "views", .directory [(text "old", .file none)])]

def silentLoader : Loader := fun _ => .ok .notFound

theorem writeView_spec_pages :
    (∃ v, View.compile (text "home") sharedPage = .ok v ∧
      IsWritten plainOptions v
        [text "views/HomeView.js", text "views/AsideView.js", text "views/NavView.js",
          text "views/NavView.js"]
        viewsTree (writeView plainOptions silentLoader viewsTree v).1.tree) ∧
      ∃ v, View.compile (text "home") conflictingPage = .ok v ∧ ∃ className,
        (writeView plainOptions silentLoader viewsTree v).2 = .error (.conflictingView className) ∧
          (writeView plainOptions silentLoader viewsTree v).1.tree = viewsTree := by
  have hpaths : (View.compile (text "home") sharedPage).toOption.any (fun v =>
      decide ((writeView plainOptions silentLoader viewsTree v).2.toOption.any (fun paths =>
        decide (paths = [text "views/HomeView.js", text "views/AsideView.js", text "views/NavView.js",
          text "views/NavView.js"])) = true)) = true := by decide +kernel
  have hdiffer : (View.compile (text "home") conflictingPage).toOption.any (fun v =>
      decide (Differ v.descendants (text "NavView"))) = true := by decide +kernel
  obtain ⟨v, hv, hpaths⟩ := exists_of_any hpaths
  obtain ⟨w, hw, hdiffer⟩ := exists_of_any hdiffer
  refine ⟨⟨v, hv, ?_⟩, w, hw, ?_⟩
  · obtain ⟨-, -, hwritten, -⟩ := writeView_spec plainOptions silentLoader viewsTree v
    have hslash : ∀ d ∈ v.descendants, '/' ∉ d.className :=
      fun d hd => View.slash_not_mem_className hv hd
    obtain ⟨_, houtcome, rfl⟩ := exists_of_any hpaths
    exact hwritten hslash _ houtcome
  · obtain ⟨hconflict, hunchanged, -, -⟩ := writeView_spec plainOptions silentLoader viewsTree w
    obtain ⟨className, hclass⟩ := hconflict.1 ⟨_, hdiffer⟩
    exact ⟨className, hclass, (hunchanged className hclass).2⟩

end Views

end Site

end Viewloom
