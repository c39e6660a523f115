import Mathlib.Data.Set.Function
import Viewloom.Proofs.Json.Codec
import Viewloom.Proofs.Pages
import Viewloom.Proofs.Trees

/-!
# Entries of a cache

The entry of a page stands in the directory of the cache under a name of its own, and nothing else
changes when it is written or removed. What is found has been compiled from a label and a source of the
digest that was looked for.
-/

namespace Viewloom

namespace Text

theorem utf8_append (s t : Text) : utf8 (s ++ t) = utf8 s ++ utf8 t := List.flatMap_append

/-- A text can be read again from its bytes. -/
theorem utf8_injective : Function.Injective utf8 := by
  intro s t h
  have hbytes : (String.ofList s).toByteArray = (String.ofList t).toByteArray := by
    rw [String.toByteArray_ofList, String.toByteArray_ofList, List.utf8Encode, List.utf8Encode]
    exact congrArg List.toByteArray h
  exact String.ofList_inj.1 (String.toByteArray_inj.1 hbytes)

end Text

namespace View

/-- A view keeps the label that it has been compiled for. -/
theorem label_compile {label source : Text} {v : View} (h : compile label source = .ok v) :
    v.label = label := by
  rw [compile] at h
  cases hnames : Names.ofLabel label with
  | error e => simp [hnames] at h
  | ok names =>
      simp only [hnames, ofSource] at h
      split at h
      · exact Except.ok.inj h ▸ rfl
      · obtain ⟨-, -, -, hassemble⟩ := ofPage_eq_ok h
        exact (assemble_eq_ok hassemble).2 ▸ rfl

end View

namespace Cache

open FileTree (IsFileName AgreeOff KeepsFiles Proper Entry byteLength nameLimit refuse)

variable {t t' : FileTree} {dir page : Path} {place : List Text} {label source : Text} {v : View}

/-! ## What is hashed -/

/-- The bytes of a label and a source, of which the digest is taken. -/
def hashed (key : Text × Text) : List UInt8 := key.1.utf8 ++ 0 :: key.2.utf8

/-- The digest is that of the bytes of the label, a zero and the source. -/
theorem digestOf_eq (label source : Text) : digestOf label source = Sha256.hex (hashed (label, source)) :=
  rfl

theorem hashed_eq (key : Text × Text) : hashed key = Text.utf8 (key.1 ++ Char.ofNat 0 :: key.2) := by
  rw [hashed, Text.utf8_append]
  rfl

/-- The source can be told from the bytes and the label. -/
theorem source_eq_of_hashed {label source source' : Text}
    (h : hashed (label, source) = hashed (label, source')) : source = source' := by
  rw [hashed_eq, hashed_eq] at h
  simpa using Text.utf8_injective h

/-- The label can be told from the bytes unless it holds a zero itself. -/
theorem eq_of_hashed {key key' : Text × Text} (hkey : Char.ofNat 0 ∉ key.1)
    (hkey' : Char.ofNat 0 ∉ key'.1) (h : hashed key = hashed key') : key = key' := by
  have htexts : key.1 ++ Char.ofNat 0 :: key.2 = key'.1 ++ Char.ofNat 0 :: key'.2 :=
    Text.utf8_injective (by rw [← hashed_eq, ← hashed_eq, h])
  have hcut {label source : Text} (hlabel : Char.ofNat 0 ∉ label) :
      (label ++ Char.ofNat 0 :: source).takeWhile (· != Char.ofNat 0) = label := by
    have hother : ∀ c ∈ label, (c != Char.ofNat 0) = true := by
      intro c hc
      exact bne_iff_ne.2 fun heq => hlabel (heq ▸ hc)
    rw [List.takeWhile_append_of_pos hother]
    simp
  have hlabel : key.1 = key'.1 := by
    have := congrArg (List.takeWhile (· != Char.ofNat 0)) htexts
    rwa [hcut hkey, hcut hkey'] at this
  refine Prod.ext hlabel ?_
  rw [hlabel] at htexts
  simpa using htexts

/-! ## Places of entries -/

/-- The name of the file of the entry of a page. -/
def entryName (page : Path) : Text := safeName page ++ text ".json"

theorem entryPath_eq (dir page : Path) : entryPath dir page = Path.join dir (entryName page) := rfl

/-- The name of an entry is a name of a file, whatever the page is called. -/
theorem isFileName_entryName (page : Path) : IsFileName (entryName page) := by
  have hlength : 4 < (entryName page).length := by
    rw [entryName, List.length_append]
    exact Nat.lt_of_lt_of_le (by decide) (Nat.le_add_left _ _)
  refine ⟨?_, ?_⟩
  · simp only [FileTree.isNew, Bool.and_eq_true, bne_iff_ne]
    refine ⟨⟨?_, ?_⟩, ?_⟩ <;> intro heq <;> rw [heq] at hlength <;> exact absurd hlength (by decide)
  · rw [entryName, List.mem_append, not_or]
    refine ⟨fun hmem => ?_, by decide⟩
    obtain ⟨c, -, hc⟩ := List.mem_map.1 hmem
    split at hc
    · exact absurd hc (by decide)
    · next hne => exact hne (.inl hc)

/-- The places of entries in all directories. -/
def entryPlaces : Set (List Text) := {place | ∃ above page, place = above ++ [entryName page]}

/-- The directory of a cache stands at a place. An empty path leads to the top. -/
structure Stands (t : FileTree) (dir : Path) (place : List Text) : Prop where
  locate : dir ≠ [] ∧ t.locate dir = .ok place ∨ dir = [] ∧ place = []
  directory : t.entryAt? place = some .directory

/-- A cache stands as long as nothing but its entries changes. -/
theorem Stands.of_agreeOff {places : Set (List Text)} (h : Stands t dir place)
    (hagree : AgreeOff places t t') : Stands t' dir place where
  locate := by
    refine h.locate.imp_left fun hlocate => ⟨hlocate.1, hagree.locate hlocate.2 ?_⟩
    rw [(hagree.directory place).1 h.directory]
    rfl
  directory := (hagree.directory place).1 h.directory

/-- The paths of entries lead to that place first. -/
theorem Stands.exists_steps (h : Stands t dir place) :
    ∃ before, (∀ page, FileTree.steps (entryPath dir page) = before ++ [entryName page]) ∧
      FileTree.walk t [] before = .ok place := by
  obtain ⟨before, hbefore, hwalk⟩ := FileTree.exists_walk_before
    (h.locate.imp_left fun hlocate => ⟨hlocate.1, (FileTree.locate_eq_ok_iff.1 hlocate.2).2⟩)
  exact ⟨before, fun page => hbefore _ (isFileName_entryName page).2, hwalk⟩

/-- An entry can be written exactly if its path and its name are not too long. -/
theorem Stands.locateNew_eq_ok_iff (h : Stands t dir place) {names : List Text} {last : Text} :
    t.locateNew (entryPath dir page) = .ok (names, last) ↔ refuse (entryPath dir page) = none ∧
      byteLength (entryName page) ≤ nameLimit ∧ names = place ∧ last = entryName page := by
  obtain ⟨before, hsteps, hwalk⟩ := h.exists_steps
  rw [FileTree.locateNew_eq_ok_iff, hsteps, List.dropLast_concat, List.getLast?_concat,
    Option.getD_some, hwalk]
  constructor
  · rintro ⟨hrefuse, hnames, -, rfl, hlength⟩
    exact ⟨hrefuse, hlength, (Except.ok.inj hnames).symm, rfl⟩
  · rintro ⟨hrefuse, hlength, rfl, rfl⟩
    exact ⟨hrefuse, rfl, h.directory, rfl, hlength⟩

/-- The path of an entry leads to its place. -/
theorem Stands.locate_entryPath (h : Stands t dir place) {names : List Text}
    (hlocate : t.locate (entryPath dir page) = .ok names) : names = place ++ [entryName page] := by
  obtain ⟨before, hsteps, hwalk⟩ := h.exists_steps
  rw [FileTree.locate_eq_ok_iff, hsteps, FileTree.walk_append_eq_ok_iff] at hlocate
  obtain ⟨-, middle, hmiddle, hlast⟩ := hlocate
  obtain rfl := Except.ok.inj (hwalk.symm.trans hmiddle)
  exact ((FileTree.walk_singleton_eq_ok_iff (isFileName_entryName page)).1 hlast).2.2.2.symm

/-- What is read of an entry stands at its place. -/
theorem Stands.read_entryPath (h : Stands t dir place) {content : Text}
    (hread : t.read (entryPath dir page) = .ok content) :
    t.entryAt? (place ++ [entryName page]) = some (.file (some content)) := by
  obtain ⟨names, hlocate, hentry⟩ := FileTree.read_eq_ok_iff.1 hread
  exact h.locate_entryPath hlocate ▸ hentry

/-! ## Single calls -/

/-- Storing a view changes the place of the entry only. -/
theorem entryAt?_set (h : Stands t dir place) (hset : set t dir page label source v = .ok t') :
    t.entryAt? (place ++ [entryName page]) ≠ some .directory ∧ ∀ q, t'.entryAt? q =
      if q = place ++ [entryName page] then
        some (.file (some (CacheEntry.toJson ⟨digestOf label source, v⟩).write))
      else t.entryAt? q := by
  rw [set] at hset
  split at hset
  · next top hwrite =>
    obtain rfl := Except.ok.inj hset
    obtain ⟨names, last, hlocate, -, hdirectory, rfl⟩ := FileTree.write_eq_ok hwrite
    obtain ⟨-, -, rfl, rfl⟩ := h.locateNew_eq_ok_iff.1 hlocate
    exact ⟨hdirectory, FileTree.entryAt?_modify _ h.directory hdirectory⟩
  · cases hset

/-- Recording a view keeps a tree proper. -/
theorem proper_set (h : t.Proper) (hset : set t dir page label source v = .ok t') : t'.Proper := by
  rw [set] at hset
  split at hset
  · next top hwrite => exact Except.ok.inj hset ▸ h.write hwrite
  · cases hset

/-- What is read of an entry is what has been recorded. -/
theorem read_set (hset : set t dir page label source v = .ok t') :
    t'.read (entryPath dir page) = .ok (CacheEntry.toJson ⟨digestOf label source, v⟩).write := by
  rw [set] at hset
  split at hset
  · next top hwrite => exact Except.ok.inj hset ▸ FileTree.read_write hwrite
  · cases hset

/-- What is found has been read from the file of the entry, which stays. -/
theorem get_eq_some (h : (get t dir page label source).1 = some v) :
    (get t dir page label source).2 = t ∧ ∃ content, t.read (entryPath dir page) = .ok content ∧
      CacheEntry.parse content = some ⟨digestOf label source, v⟩ := by
  rw [get] at h ⊢
  cases hread : t.read (entryPath dir page) with
  | error cause => simp [hread] at h
  | ok content =>
      simp only [hread] at h ⊢
      cases hparse : CacheEntry.parse content with
      | none => simp [hparse] at h
      | some e =>
          simp only [hparse] at h ⊢
          split at h
          · next hdigest =>
            obtain rfl := Option.some.inj h
            exact ⟨trivial, content, rfl, by rw [← hdigest, hparse]⟩
          · cases h

/-- The file of an entry that cannot be read is removed. -/
theorem get_of_parse_eq_none (h : t.Proper) {content : Text}
    (hread : t.read (entryPath dir page) = .ok content) (hparse : CacheEntry.parse content = none)
    (label source : Text) :
    (get t dir page label source).1 = none ∧ (get t dir page label source).2.Proper ∧
      ∃ gone, t.locate (entryPath dir page) = .ok gone ∧ t.entryAt? gone ≠ some .directory ∧
        ∀ q, (get t dir page label source).2.entryAt? q = if q = gone then none else t.entryAt? q := by
  obtain ⟨gone, hgone, hfile⟩ := FileTree.read_eq_ok_iff.1 hread
  obtain ⟨before, hsteps, -⟩ := FileTree.exists_steps_join dir
  have hne : gone ≠ [] := by
    rintro rfl
    have hwalk := (FileTree.locate_eq_ok_iff.1 hgone).2
    have hdirectory := FileTree.directory_of_walk hwalk
      (by rw [entryPath_eq, hsteps _ (isFileName_entryName page).2]; simp)
    rw [hfile] at hdirectory
    cases hdirectory
  obtain ⟨t', hremove⟩ : ∃ t', t.remove (entryPath dir page) = .ok t' := by
    obtain ⟨names, last, rfl⟩ := (List.eq_nil_or_concat' gone).resolve_left hne
    rw [FileTree.remove, hgone]
    simp
  have hget : get t dir page label source = (none, t') := by
    rw [get, hread]
    simp [hparse, hremove, Except.toOption]
  obtain ⟨gone', hlocate, hproper, hentry⟩ := FileTree.entryAt?_remove h hremove
  obtain rfl := Except.ok.inj (hlocate.symm.trans hgone)
  rw [hget]
  refine ⟨rfl, hproper, gone', hgone, by simp [hfile], fun q => ?_⟩
  rw [hentry]
  by_cases hq : q = gone'
  · rw [if_pos hq, hq, if_pos List.prefix_rfl]
  · rw [if_neg hq]
    split
    · next hprefix =>
      -- Nothing stands below a file.
      obtain ⟨_ | ⟨n, ns⟩, rfl⟩ := hprefix
      · simp at hq
      · rw [FileTree.entryAt?_append, FileTree.entryAt?_eq_file_iff.1 hfile]
        rfl
    · rfl

/-- Looking for a view changes nothing, or removes the file of the entry. -/
theorem get_cases (h : t.Proper) (dir page : Path) (label source : Text) :
    (get t dir page label source).2 = t ∨ (get t dir page label source).2.Proper ∧
      ∃ gone, t.locate (entryPath dir page) = .ok gone ∧ t.entryAt? gone ≠ some .directory ∧
        ∀ q, (get t dir page label source).2.entryAt? q = if q = gone then none else t.entryAt? q := by
  cases hread : t.read (entryPath dir page) with
  | error cause => exact .inl (by rw [get, hread])
  | ok content =>
      cases hparse : CacheEntry.parse content with
      | some e => exact .inl (by simp [get, hread, hparse])
      | none => exact .inr (get_of_parse_eq_none h hread hparse label source).2

/-! ## What has been stored is found -/

/-- A view that has been stored is found again exactly if its encoding is not too deep, and then its
entry stays. Otherwise nothing is found, and the entry is removed. -/
theorem get_set_eq_some_iff (hset : set t dir page label source v = .ok t') :
    (get t' dir page label source = (some v, t') ↔ v.toJson.depth < Json.depthLimit) ∧
      (Json.depthLimit ≤ v.toJson.depth → (get t' dir page label source).1 = none ∧
        (t.Proper → ∀ place, (get t' dir page label source).2.locate (entryPath dir page) ≠ .ok place)) := by
  have hread := read_set hset
  have hparse := CacheEntry.parse_write ⟨digestOf label source, v⟩
  by_cases hdepth : v.toJson.depth < Json.depthLimit
  · rw [if_pos hdepth] at hparse
    have hget : get t' dir page label source = (some v, t') := by
      rw [get, hread]
      simp [hparse]
    exact ⟨by simp [hget, hdepth], fun hle => absurd hdepth (Nat.not_lt.2 hle)⟩
  · rw [if_neg hdepth] at hparse
    have hnone : (get t' dir page label source).1 = none := by
      rw [get, hread]
      simp [hparse]
    refine ⟨⟨fun hget => ?_, fun h => absurd h hdepth⟩, fun _ => ⟨hnone, fun hproper q hq => ?_⟩⟩
    · rw [hget] at hnone
      cases hnone
    · obtain ⟨-, -, gone, hgone, hdirectory, hentry⟩ :=
        get_of_parse_eq_none (proper_set hproper hset) hread hparse label source
      have hagree : AgreeOff {gone} (get t' dir page label source).2 t' :=
        .of_eq_if rfl hdirectory (by simp) hentry
      have hsome := FileTree.isSome_of_locate hq
      have hq' : t'.locate (entryPath dir page) = .ok q := by
        refine hagree.locate hq ?_
        rw [hentry] at hsome
        split at hsome
        · cases hsome
        · exact hsome
      obtain rfl := Except.ok.inj (hgone.symm.trans hq')
      rw [hentry, if_pos rfl] at hsome
      cases hsome

def cacheTree : FileTree := .directory [(text "cache", .directory [])]

def nestedPage (depth : Nat) : Text := (List.replicate depth (text "<div>")).flatten

/-- A view is found again as long as the document that records it is not nested too deep. -/
theorem get_set_eq_some_iff_nestedPages :
    (∃ v t', View.compile (text "page") (nestedPage 61) = .ok v ∧
      set cacheTree (text "cache") (text "s.html") (text "page") (nestedPage 61) v = .ok t' ∧
        get t' (text "cache") (text "s.html") (text "page") (nestedPage 61) = (some v, t')) ∧
      ∃ v t', View.compile (text "page") (nestedPage 62) = .ok v ∧
        set cacheTree (text "cache") (text "s.html") (text "page") (nestedPage 62) v = .ok t' ∧
          (get t' (text "cache") (text "s.html") (text "page") (nestedPage 62)).1 = none := by
  have hset (source : Text) (v : View) :
      ∃ t', set cacheTree (text "cache") (text "s.html") (text "page") source v = .ok t' := ⟨_, rfl⟩
  have hdepth : (View.compile (text "page") (nestedPage 61)).toOption.any
      (fun v => decide (v.toJson.depth < Json.depthLimit)) = true := by decide +kernel
  have hdepth' : (View.compile (text "page") (nestedPage 62)).toOption.any
      (fun v => decide (Json.depthLimit ≤ v.toJson.depth)) = true := by decide +kernel
  obtain ⟨v, hv, hdepth⟩ := exists_of_any hdepth
  obtain ⟨w, hw, hdepth'⟩ := exists_of_any hdepth'
  obtain ⟨t', ht'⟩ := hset (nestedPage 61) v
  obtain ⟨u', hu'⟩ := hset (nestedPage 62) w
  exact ⟨⟨v, t', hv, ht', (get_set_eq_some_iff ht').1.2 hdepth⟩,
    w, u', hw, hu', ((get_set_eq_some_iff hu').2 hdepth').1⟩

/-! ## Faithful entries -/

/-- Every entry holds what one of the keys compiles to, under the digest of that key. -/
def Faithful (keys : List (Text × Text)) (place : List Text) (t : FileTree) : Prop :=
  ∀ page content e, t.entryAt? (place ++ [entryName page]) = some (.file (some content)) →
    CacheEntry.parse content = some e →
      ∃ k ∈ keys, e.digest = Sha256.hex (hashed k) ∧ View.compile k.1 k.2 = .ok e.view

variable {keys keys' : List (Text × Text)}

theorem Faithful.mono (h : Faithful keys place t) (hkeys : keys ⊆ keys') : Faithful keys' place t := by
  intro page content e hentry hparse
  obtain ⟨k, hk, he⟩ := h page content e hentry hparse
  exact ⟨k, hkeys hk, he⟩

/-- Storing what a key compiles to keeps entries faithful, in whichever directory it is stored. -/
theorem Faithful.set (h : Faithful keys place t) (hkey : (label, source) ∈ keys)
    (hv : View.compile label source = .ok v)
    (hset : Cache.set t dir page label source v = .ok t') : Faithful keys place t' := by
  intro page' content e hentry hparse
  rw [Cache.set] at hset
  split at hset
  · next top hwrite =>
    obtain rfl := Except.ok.inj hset
    obtain ⟨written, -, -, hwritten⟩ := FileTree.entryAt?_write hwrite
    rw [hwritten] at hentry
    split at hentry
    · simp only [Option.some.injEq, Entry.file.injEq] at hentry
      rw [← hentry, CacheEntry.parse_write] at hparse
      split at hparse
      · obtain rfl := Option.some.inj hparse
        exact ⟨_, hkey, digestOf_eq label source, hv⟩
      · cases hparse
    · exact h page' content e hentry hparse
  · cases hset

/-- A lookup keeps a cache faithful, since it can only drop an entry. -/
theorem Faithful.get (h : Faithful keys place t) (hproper : t.Proper) (dir page : Path)
    (label source : Text) : Faithful keys place (Cache.get t dir page label source).2 := by
  rcases get_cases hproper dir page label source with heq | ⟨-, gone, -, -, hgone⟩
  · exact heq.symm ▸ h
  · intro page' content e hentry hparse
    rw [hgone] at hentry
    split at hentry
    · cases hentry
    · exact h page' content e hentry hparse

/-- What is found has been compiled from a key of the digest that was looked for. -/
theorem Faithful.exists_key (h : Faithful keys place t) (hstands : Stands t dir place)
    (hget : (Cache.get t dir page label source).1 = some v) :
    ∃ k ∈ keys, Sha256.hex (hashed (label, source)) = Sha256.hex (hashed k) ∧
      View.compile k.1 k.2 = .ok v := by
  obtain ⟨-, content, hread, hparse⟩ := get_eq_some hget
  exact h page content _ (hstands.read_entryPath hread) hparse

/-- Recording a view changes its entry only. -/
theorem agreeOff_set (h : Stands t dir place) (hset : set t dir page label source v = .ok t') :
    AgreeOff {place ++ [entryName page]} t' t := by
  obtain ⟨hbefore, hentry⟩ := entryAt?_set h hset
  exact .of_eq_if rfl hbefore (by simp) hentry

/-- A lookup changes the entry of its page only. -/
theorem agreeOff_get (hproper : t.Proper) (h : Stands t dir place) (page : Path) (label source : Text) :
    AgreeOff {place ++ [entryName page]} (get t dir page label source).2 t := by
  rcases get_cases hproper dir page label source with heq | ⟨-, gone, hlocate, hbefore, hentry⟩
  · exact heq.symm ▸ .refl _ t
  · obtain rfl := h.locate_entryPath hlocate
    exact .of_eq_if rfl hbefore (by simp) hentry

theorem proper_get (h : t.Proper) (dir page : Path) (label source : Text) :
    (get t dir page label source).2.Proper := by
  rcases get_cases h dir page label source with heq | ⟨hproper, -⟩
  · exact heq.symm ▸ h
  · exact hproper

theorem mem_entryPlaces_of_locate {gone : List Text} (h : t.locate (entryPath dir page) = .ok gone) :
    gone ∈ entryPlaces := by
  obtain ⟨before, hsteps, -⟩ := FileTree.exists_steps_join dir
  rw [FileTree.locate_eq_ok_iff, entryPath_eq, hsteps _ (isFileName_entryName page).2,
    FileTree.walk_append_eq_ok_iff] at h
  obtain ⟨-, above, -, hlast⟩ := h
  have hone := (FileTree.walk_singleton_eq_ok_iff (isFileName_entryName page)).1 hlast
  exact ⟨above, page, hone.2.2.2.symm⟩

/-- Recording a view keeps all files outside of the places of entries. -/
theorem keepsFiles_set (hset : set t dir page label source v = .ok t') : KeepsFiles entryPlaces t t' := by
  rw [set] at hset
  split at hset
  · next top hwrite =>
    obtain rfl := Except.ok.inj hset
    obtain ⟨written, hlocate, hbefore, hentry⟩ := FileTree.entryAt?_write hwrite
    exact (AgreeOff.of_eq_if (mem_entryPlaces_of_locate hlocate) hbefore (by simp) hentry).symm.keepsFiles
  · cases hset

/-- A lookup keeps all files outside of the places of entries. -/
theorem keepsFiles_get (h : t.Proper) (dir page : Path) (label source : Text) :
    KeepsFiles entryPlaces t (get t dir page label source).2 := by
  rcases get_cases h dir page label source with heq | ⟨-, gone, hlocate, hbefore, hentry⟩
  · exact heq.symm ▸ .refl _ t
  · exact (AgreeOff.of_eq_if (mem_entryPlaces_of_locate hlocate) hbefore (by simp) hentry).symm.keepsFiles

/-- A tree that a disk can hold, with faithful entries at a place. -/
structure Recorded (keys : List (Text × Text)) (place : List Text) (t : FileTree) : Prop where
  proper : t.Proper
  faithful : Faithful keys place t

theorem Recorded.mono (h : Recorded keys place t) (hkeys : keys ⊆ keys') : Recorded keys' place t :=
  ⟨h.proper, h.faithful.mono hkeys⟩

/-- What has been recorded stays so when a view of a known key is added. -/
theorem Recorded.set (h : Recorded keys place t) (hkey : (label, source) ∈ keys)
    (hv : View.compile label source = .ok v)
    (hset : Cache.set t dir page label source v = .ok t') : Recorded keys place t' :=
  ⟨proper_set h.proper hset, h.faithful.set hkey hv hset⟩

theorem Recorded.get (h : Recorded keys place t) (dir page : Path) (label source : Text) :
    Recorded keys place (Cache.get t dir page label source).2 :=
  ⟨proper_get h.proper dir page label source, h.faithful.get h.proper dir page label source⟩

/-- Such a tree in which the directory of a cache stands at that place. -/
structure Sound (keys : List (Text × Text)) (dir : Path) (place : List Text) (t : FileTree) : Prop
    extends Recorded keys place t where
  stands : Stands t dir place

theorem Sound.mono (h : Sound keys dir place t) (hkeys : keys ⊆ keys') : Sound keys' dir place t :=
  ⟨h.toRecorded.mono hkeys, h.stands⟩

/-- Recording the view of a key keeps a cache sound. -/
theorem Sound.set (h : Sound keys dir place t) (hkey : (label, source) ∈ keys)
    (hv : View.compile label source = .ok v) (hset : Cache.set t dir page label source v = .ok t') :
    Sound keys dir place t' :=
  ⟨h.toRecorded.set hkey hv hset, h.stands.of_agreeOff (agreeOff_set h.stands hset).symm⟩

/-- A lookup keeps a cache sound. -/
theorem Sound.get (h : Sound keys dir place t) (page : Path) (label source : Text) :
    Sound keys dir place (Cache.get t dir page label source).2 :=
  ⟨h.toRecorded.get dir page label source,
    h.stands.of_agreeOff (agreeOff_get h.proper h.stands page label source).symm⟩

/-- What is found has been compiled from a label and a source of the bytes that were looked for. -/
theorem Sound.exists_of_get (h : Sound keys dir place t)
    (hinj : Set.InjOn Sha256.hex {bytes | ∃ k ∈ keys, bytes = hashed k})
    (hkey : (label, source) ∈ keys) (hget : (Cache.get t dir page label source).1 = some v) :
    ∃ k ∈ keys, hashed (label, source) = hashed k ∧ View.compile k.1 k.2 = .ok v := by
  obtain ⟨k, hk, hdigest, hcompile⟩ := h.faithful.exists_key h.stands hget
  exact ⟨k, hk, hinj ⟨_, hkey, rfl⟩ ⟨k, hk, rfl⟩ hdigest, hcompile⟩

/-! ## Calls on one directory -/

/-- A call of a cache: something is recorded, or looked for. -/
inductive Call where
  | set (page : Path) (label source : Text)
  | get (page : Path) (label source : Text)

namespace Call

/-- The label and the source of a call, which are hashed. -/
def key : Call → Text × Text
  | set _ label source => (label, source)
  | get _ label source => (label, source)

/-- The tree after a call. What is stored is what the source compiles to, if it does. -/
def run (dir : Path) (t : FileTree) : Call → FileTree
  | set page label source =>
    match View.compile label source with
    | .ok v => (Cache.set t dir page label source v).toOption.getD t
    | .error _ => t
  | get page label source => (Cache.get t dir page label source).2

end Call

/-- A call keeps a cache sound, with its key among those that have been met. -/
theorem Sound.run (h : Sound keys dir place t) (call : Call) :
    Sound (keys ++ [call.key]) dir place (call.run dir t) := by
  have hkeys := h.mono (List.subset_append_left keys [call.key])
  cases call with
  | set page label source =>
      rw [Call.run]
      split
      · next v hv =>
        cases hset : Cache.set t dir page label source v with
        | error cause => exact hkeys
        | ok t' => exact hkeys.set (by simp [Call.key]) hv hset
      · exact hkeys
  | get page label source => exact hkeys.get page label source

/-- A run of calls keeps a cache sound, with their keys among those that have been met. -/
theorem Sound.runAll (h : Sound keys dir place t) (calls : List Call) :
    Sound (keys ++ calls.map Call.key) dir place (calls.foldl (Call.run dir) t) := by
  induction calls generalizing keys t with
  | nil => simpa using h
  | cons call calls ih => simpa using ih (h.run call)

/-- What is found after any calls on a directory without entries has been compiled from the label and the
source of a call, which have the bytes that are looked for. So it is what is looked for exactly if its
label is, and always if no label holds a zero. -/
theorem compile_of_get (calls : List Call) (hproper : t.Proper) (hstands : Stands t dir place)
    (hfresh : ∀ page content, t.entryAt? (place ++ [entryName page]) = some (.file (some content)) →
      CacheEntry.parse content = none)
    (hinj : Set.InjOn Sha256.hex {bytes | ∃ k ∈ (label, source) :: calls.map Call.key, bytes = hashed k})
    (hget : (get (calls.foldl (Call.run dir) t) dir page label source).1 = some v) :
    (View.compile label source = .ok v ↔ v.label = label) ∧
      ((∀ k ∈ (label, source) :: calls.map Call.key, Char.ofNat 0 ∉ k.1) →
        View.compile label source = .ok v) := by
  have hfaithful : Faithful [] place t := by
    intro page content e hentry hparse
    rw [hfresh page content hentry] at hparse
    cases hparse
  have hsound := Sound.runAll ⟨⟨hproper, hfaithful⟩, hstands⟩ calls
  rw [List.nil_append] at hsound
  obtain ⟨k, hk, hbytes, hcompile⟩ :=
    (hsound.mono (List.subset_cons_self (label, source) _)).exists_of_get hinj List.mem_cons_self hget
  refine ⟨⟨View.label_compile, fun hlabel => ?_⟩, fun hzero => ?_⟩
  · obtain rfl : k.1 = label := (View.label_compile hcompile).symm.trans hlabel
    exact source_eq_of_hashed hbytes ▸ hcompile
  · obtain rfl := eq_of_hashed (hzero _ List.mem_cons_self) (hzero k hk) hbytes
    exact hcompile

/-- A view is looked for under the digest alone. -/
theorem get_congr {label' source' : Text} (h : hashed (label, source) = hashed (label', source')) :
    get t dir page label source = get t dir page label' source' := by
  have hdigest : digestOf label source = digestOf label' source' := congrArg Sha256.hex h
  rw [get, get, hdigest]

/-- A label with a zero. -/
def zeroLabel : Text := ['a', Char.ofNat 0, 'b']

/-- A view that is found was compiled from the same label and source, or from two with the same
bytes. -/
theorem compile_of_get_calls :
    (∃ v, (get ([Call.set (text "s.html") (text "page") (text "c")].foldl (Call.run (text "cache")) cacheTree)
        (text "cache") (text "s.html") (text "page") (text "c")).1 = some v ∧
          View.compile (text "page") (text "c") = .ok v) ∧
      ∃ v, (get ([Call.set (text "s.html") zeroLabel (text "c")].foldl (Call.run (text "cache")) cacheTree)
        (text "cache") (text "s.html") (text "a") ['b', Char.ofNat 0, 'c']).1 = some v ∧
          View.compile (text "a") ['b', Char.ofNat 0, 'c'] ≠ .ok v := by
  have hproper : cacheTree.Proper := by decide +kernel
  have hstands : Stands cacheTree (text "cache") [text "cache"] := ⟨.inl ⟨by decide, by decide⟩, rfl⟩
  have hfresh : ∀ page content,
      cacheTree.entryAt? ([text "cache"] ++ [entryName page]) = some (.file (some content)) →
        CacheEntry.parse content = none := by
    intro page content hentry
    cases hentry
  have hfound (label : Text) (hdepth : (View.compile label (text "c")).toOption.any
        (fun v => decide (v.toJson.depth < Json.depthLimit)) = true) :
      ∃ v, View.compile label (text "c") = .ok v ∧
        (get ([Call.set (text "s.html") label (text "c")].foldl (Call.run (text "cache")) cacheTree)
          (text "cache") (text "s.html") label (text "c")).1 = some v := by
    obtain ⟨v, hv, hdepth⟩ := exists_of_any hdepth
    obtain ⟨t', ht'⟩ :
        ∃ t', set cacheTree (text "cache") (text "s.html") label (text "c") v = .ok t' := ⟨_, rfl⟩
    have hget := (get_set_eq_some_iff ht').1.2 hdepth
    refine ⟨v, hv, ?_⟩
    simp [Call.run, hv, ht', Except.toOption, hget]
  obtain ⟨v, -, hget⟩ := hfound (text "page") (by decide +kernel)
  obtain ⟨w, hw, hgetw⟩ := hfound zeroLabel (by decide +kernel)
  have hbytes : hashed (zeroLabel, text "c") = hashed (text "a", ['b', Char.ofNat 0, 'c']) := by decide
  refine ⟨⟨v, hget, (compile_of_get _ hproper hstands hfresh ?_ hget).2 ?_⟩,
    w, get_congr hbytes ▸ hgetw, fun hcompile => ?_⟩
  · rintro _ ⟨k, hk, rfl⟩ _ ⟨k', hk', rfl⟩ -
    simp only [List.map_cons, List.map_nil, Call.key, List.mem_cons, List.not_mem_nil, or_false,
      or_self] at hk hk'
    rw [hk, hk']
  · simp only [List.map_cons, List.map_nil, Call.key, List.forall_mem_cons, List.not_mem_nil]
    exact ⟨by decide, by decide, by simp⟩
  · have hlabel := (View.label_compile hcompile).symm.trans (View.label_compile hw)
    exact absurd hlabel (by decide)

end Cache

end Viewloom
