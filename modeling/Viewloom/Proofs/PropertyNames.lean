import Viewloom.Proofs.OpeningTags
import Viewloom.Proofs.Script.Tokens

/-!
# Names of style properties

A property of a style goes to its key in a style object and back. A name that is made of letters and
single hyphens comes back in small letters, since a capital stands in its key for every hyphen. Written
declarations are read as they are.
-/

namespace Viewloom.Template

open Text (lowerAscii)

variable {c : Char} {g p q s : Text} {vendor : Bool} {groups : List Text}

/-! ## Names -/

/-- Groups of characters with hyphens in between, and with one in front in the name of a vendor. -/
def hyphenated (vendor : Bool) (groups : List Text) : Text :=
  (if vendor then ['-'] else []) ++ List.intercalate ['-'] groups

/-- Groups of characters that satisfy a test, none of them empty. -/
structure AreGroups (test : Char → Bool) (groups : List Text) : Prop where
  ne_nil : groups ≠ []
  nonempty : ∀ g ∈ groups, g ≠ []
  all : ∀ g ∈ groups, ∀ c ∈ g, test c = true

/-- A name that is made of groups of letters. -/
def IsPropertyName (p : Text) : Prop :=
  ∃ vendor groups, AreGroups Char.isAlpha groups ∧ p = hyphenated vendor groups

/-- The beginning of the names of one vendor, without the hyphen in front. -/
def bareVendor : Text := text "ms-"

theorem vendorMark_eq : text "-ms-" = '-' :: bareVendor := rfl

theorem hyphenated_true (groups : List Text) :
    hyphenated true groups = '-' :: List.intercalate ['-'] groups := rfl

theorem hyphenated_false (groups : List Text) :
    hyphenated false groups = List.intercalate ['-'] groups := rfl

theorem intercalate_hyphen_cons {groups : List Text} (h : groups ≠ []) (g : Text) :
    List.intercalate ['-'] (g :: groups) = g ++ hyphenated true groups := by
  rw [List.intercalate_cons_of_ne_nil h, List.append_assoc]
  rfl

theorem AreGroups.of_all {test : Char → Bool} (hne : groups ≠ [])
    (h : groups.all (fun g => !g.isEmpty && g.all test) = true) : AreGroups test groups := by
  have heach : ∀ g ∈ groups, g ≠ [] ∧ ∀ c ∈ g, test c = true := by simpa using h
  exact ⟨hne, fun g hg => (heach g hg).1, fun g hg => (heach g hg).2⟩

/-- A name begins with a letter behind the hyphen of a vendor. -/
theorem AreGroups.exists_intercalate_eq {test : Char → Bool} (h : AreGroups test groups) :
    ∃ c t, List.intercalate ['-'] groups = c :: t ∧ test c = true := by
  obtain ⟨g, rest, rfl⟩ := List.exists_cons_of_ne_nil h.ne_nil
  obtain ⟨c, t, rfl⟩ := List.exists_cons_of_ne_nil (h.nonempty _ List.mem_cons_self)
  have hc : test c = true := h.all _ List.mem_cons_self c List.mem_cons_self
  by_cases hrest : rest = []
  · subst hrest
    exact ⟨c, t, List.intercalate_singleton, hc⟩
  · exact ⟨c, t ++ hyphenated true rest, by rw [intercalate_hyphen_cons hrest]; rfl, hc⟩

/-! ## Letters -/

/-- A letter is lowered to a small letter, and a small one is raised to a capital that is lowered to it
again. -/
theorem casing_letter : c.isAlpha = true → c.toLower.isLower = true ∧ (c.isLower = true →
    c ≠ '-' ∧ c.isUpper = false ∧ c.toUpper.isUpper = true ∧ c.toUpper.toLower = c) := by
  refine Css.of_ascii (p := fun c => c.isAlpha = true → c.toLower.isLower = true ∧
    (c.isLower = true →
      c ≠ '-' ∧ c.isUpper = false ∧ c.toUpper.isUpper = true ∧ c.toUpper.toLower = c)) ?_ ?_ c
  · decide +kernel
  · intro c hc halpha
    rw [Script.isAlpha_iff] at halpha
    omega

theorem raise_small (h : c.isLower = true) :
    c ≠ '-' ∧ c.isUpper = false ∧ c.toUpper.isUpper = true ∧ c.toUpper.toLower = c :=
  (casing_letter (Bool.or_eq_true_iff.2 (.inr h))).2 h

/-! ## Names to keys and back -/

theorem splitHumps_append (s t : Text) : splitHumps (s ++ t) = splitHumps s ++ splitHumps t :=
  List.flatMap_append

/-- Words in small letters have no humps. -/
theorem splitHumps_small (h : ∀ c ∈ g, c.isLower = true) : splitHumps g = g := by
  induction g with
  | nil => rfl
  | cons c g ih =>
      rw [List.forall_mem_cons] at h
      have hrest : splitHumps g = g := ih h.2
      have hc : c.isUpper = false := (raise_small h.1).2.1
      calc
        splitHumps (c :: g) = [c] ++ splitHumps g := by simp [splitHumps, hc]
        _ = c :: g := by rw [hrest]; rfl

/-- Joining words leaves small letters as they are. -/
theorem joinHumps_small (h : ∀ c ∈ g, c.isLower = true) (s : Text) :
    joinHumps false (g ++ s) = g ++ joinHumps false s := by
  induction g with
  | nil => rfl
  | cons c g ih =>
      rw [List.forall_mem_cons] at h
      have hc : c ≠ '-' := (raise_small h.1).1
      rw [List.cons_append, joinHumps, if_neg hc, ih h.2]
      rfl

/-- A hyphen in front of a group stands as a capital in the key. -/
theorem splitHumps_joinHumps_group (hne : g ≠ []) (h : ∀ c ∈ g, c.isLower = true) (raise : Bool)
    (s : Text) : splitHumps (joinHumps raise (g ++ s)) =
      (if raise then ['-'] else []) ++ g ++ splitHumps (joinHumps false s) := by
  obtain ⟨c, g, rfl⟩ := List.exists_cons_of_ne_nil hne
  rw [List.forall_mem_cons] at h
  obtain ⟨hc, hsmall, hcapital, hlower⟩ := raise_small h.1
  have hfirst : splitHumps [if raise then c.toUpper else c] = (if raise then ['-'] else []) ++ [c] := by
    cases raise <;> simp [splitHumps, hsmall, hcapital, hlower]
  calc
    splitHumps (joinHumps raise (c :: g ++ s)) =
        splitHumps ([if raise then c.toUpper else c] ++ (g ++ joinHumps false s)) := by
      rw [List.cons_append, joinHumps, if_neg hc, joinHumps_small h.2]
      rfl
    _ = (if raise then ['-'] else []) ++ [c] ++ (g ++ splitHumps (joinHumps false s)) := by
      rw [splitHumps_append, splitHumps_append, hfirst, splitHumps_small h.2]
    _ = (if raise then ['-'] else []) ++ (c :: g) ++ splitHumps (joinHumps false s) := by simp

/-- Words come back with their hyphens when they have been joined. -/
theorem splitHumps_joinHumps (h : AreGroups Char.isLower groups) (raise : Bool) :
    splitHumps (joinHumps raise (List.intercalate ['-'] groups)) = hyphenated raise groups := by
  obtain ⟨hne, hnonempty, hall⟩ := h
  induction groups generalizing raise with
  | nil => exact absurd rfl hne
  | cons g groups ih =>
      rw [List.forall_mem_cons] at hnonempty hall
      have hgroup := splitHumps_joinHumps_group hnonempty.1 hall.1 raise
      by_cases hrest : groups = []
      · subst hrest
        have hlast := hgroup []
        rw [List.append_nil] at hlast
        rw [hyphenated, List.intercalate_singleton]
        exact hlast.trans (List.append_nil _)
      · have hbehind : joinHumps false (hyphenated true groups) =
            joinHumps true (List.intercalate ['-'] groups) := rfl
        rw [intercalate_hyphen_cons hrest, hgroup, hbehind, ih true hrest hnonempty.2 hall.2,
          List.append_assoc, ← intercalate_hyphen_cons hrest]
        rfl

/-! ## Lowered names -/

theorem lowerAscii_append (s t : Text) : lowerAscii (s ++ t) = lowerAscii s ++ lowerAscii t :=
  List.map_append

theorem lowerAscii_intercalate (groups : List Text) :
    lowerAscii (List.intercalate ['-'] groups) = List.intercalate ['-'] (groups.map lowerAscii) := by
  induction groups with
  | nil => rfl
  | cons g groups ih =>
      by_cases hrest : groups = []
      · subst hrest
        rw [List.map_singleton, List.intercalate_singleton, List.intercalate_singleton]
      · have hmap : groups.map lowerAscii ≠ [] := by simpa using hrest
        rw [List.map_cons, intercalate_hyphen_cons hrest, intercalate_hyphen_cons hmap, lowerAscii_append,
          hyphenated_true, hyphenated_true, ← ih]
        rfl

/-- A name is written in small letters group by group. -/
theorem lowerAscii_hyphenated (vendor : Bool) (groups : List Text) :
    lowerAscii (hyphenated vendor groups) = hyphenated vendor (groups.map lowerAscii) := by
  rw [hyphenated, lowerAscii_append, lowerAscii_intercalate]
  cases vendor <;> rfl

theorem AreGroups.lower (h : AreGroups Char.isAlpha groups) :
    AreGroups Char.isLower (groups.map lowerAscii) where
  ne_nil := by simpa using h.ne_nil
  nonempty := by
    intro g hg
    obtain ⟨g', hg', rfl⟩ := List.mem_map.1 hg
    simpa [lowerAscii] using h.nonempty g' hg'
  all := by
    intro g hg c hc
    obtain ⟨g', hg', rfl⟩ := List.mem_map.1 hg
    obtain ⟨d, hd, rfl⟩ := List.mem_map.1 hc
    exact (casing_letter (h.all g' hg' d hd)).1

/-! ## Keys of names -/

theorem isCustom_iff : isCustom s = true ↔ ['-', '-'] <+: s := List.isPrefixOf_iff_prefix

theorem isCustom_cons (h : c ≠ '-') (s : Text) : isCustom (c :: s) = false := by
  rw [← Bool.not_eq_true, isCustom_iff, List.cons_prefix_cons]
  exact fun hcustom => h hcustom.1.symm

theorem isCustom_hyphen_cons (h : c ≠ '-') (s : Text) : isCustom ('-' :: c :: s) = false := by
  rw [← Bool.not_eq_true, isCustom_iff, List.cons_prefix_cons, List.cons_prefix_cons]
  exact fun hcustom => h hcustom.2.1.symm

/-- Joined words are never taken for a custom name. -/
theorem isCustom_joinHumps (h : AreGroups Char.isLower groups) (raise : Bool) :
    isCustom (joinHumps raise (List.intercalate ['-'] groups)) = false := by
  obtain ⟨c, t, hjoin, hc⟩ := h.exists_intercalate_eq
  obtain ⟨hne, -, hcapital, -⟩ := raise_small hc
  rw [hjoin, joinHumps, if_neg hne]
  apply isCustom_cons
  cases raise with
  | false => exact hne
  | true =>
      intro heq
      rw [if_pos rfl] at heq
      rw [heq] at hcapital
      cases hcapital

/-- Names of properties are not custom ones. -/
theorem not_isCustom (h : IsPropertyName p) : isCustom p = false := by
  obtain ⟨vendor, groups, hgroups, rfl⟩ := h
  obtain ⟨c, t, hjoin, hc⟩ := hgroups.exists_intercalate_eq
  have hne : c ≠ '-' := by
    rintro rfl
    cases hc
  cases vendor with
  | false =>
      rw [hyphenated_false, hjoin]
      exact isCustom_cons hne t
  | true =>
      rw [hyphenated_true, hjoin]
      exact isCustom_hyphen_cons hne t

/-- Lowered groups in small letters, with their hyphens. -/
def loweredName (groups : List Text) : Text := List.intercalate ['-'] (groups.map lowerAscii)

theorem lowerAscii_hyphenated_true (groups : List Text) :
    lowerAscii (hyphenated true groups) = '-' :: loweredName groups :=
  lowerAscii_hyphenated true groups

/-- Nothing behind a hyphen begins like the vendor without one. -/
theorem not_bareVendor_prefix_hyphen (s : Text) : ¬ bareVendor <+: '-' :: s := by
  rintro ⟨rest, hrest⟩
  cases hrest

/-- The key of a name with the mark of the one vendor begins with a small letter. -/
theorem styleKey_of_bareVendor (h : AreGroups Char.isAlpha groups)
    (hvendor : bareVendor <+: loweredName groups) :
    styleKey (hyphenated true groups) = joinHumps false (loweredName groups) := by
  obtain ⟨rest, hrest⟩ := hvendor
  have hstrip : Text.stripStart (text "-ms-") (lowerAscii (hyphenated true groups)) = some rest := by
    rw [Text.stripStart_eq_some_iff, lowerAscii_hyphenated_true, ← hrest, vendorMark_eq]
    rfl
  have hcustom : isCustom (hyphenated true groups) = false := not_isCustom ⟨true, groups, h, rfl⟩
  rw [styleKey, hcustom]
  simp only [hstrip, Bool.false_eq_true, if_false]
  exact congrArg (joinHumps false) hrest

/-- A hyphen in front of any other name raises its first letter. -/
theorem styleKey_of_not_bareVendor (h : AreGroups Char.isAlpha groups)
    (hvendor : vendor = true → ¬ bareVendor <+: loweredName groups) :
    styleKey (hyphenated vendor groups) = joinHumps vendor (loweredName groups) := by
  have hstrip : Text.stripStart (text "-ms-") (lowerAscii (hyphenated vendor groups)) = none := by
    rw [Option.eq_none_iff_forall_ne_some]
    intro rest hrest
    rw [Text.stripStart_eq_some_iff, vendorMark_eq, lowerAscii_hyphenated] at hrest
    cases vendor with
    | true => exact hvendor rfl ⟨rest, (List.cons_inj_right '-').1 hrest.symm⟩
    | false =>
        obtain ⟨c, t, hjoin, hc⟩ := h.lower.exists_intercalate_eq
        rw [hyphenated_false, hjoin, List.cons_append] at hrest
        exact (raise_small hc).1 (List.cons.inj hrest).1
  have hcustom : isCustom (hyphenated vendor groups) = false := not_isCustom ⟨vendor, groups, h, rfl⟩
  rw [styleKey, hcustom]
  simp only [hstrip, Bool.false_eq_true, if_false]
  rw [lowerAscii_hyphenated]
  cases vendor <;> rfl

/-- A name comes back in small letters, with a hyphen in front if it begins as the names of the one
vendor do. -/
theorem cssProperty_eq (h : IsPropertyName p) : cssProperty p =
    if bareVendor <+: lowerAscii p then '-' :: lowerAscii p else lowerAscii p := by
  obtain ⟨vendor, groups, hgroups, rfl⟩ := h
  have hback := splitHumps_joinHumps hgroups.lower
  have hcustom := isCustom_joinHumps hgroups.lower
  by_cases hvendor : vendor = true ∧ bareVendor <+: loweredName groups
  · obtain ⟨rfl, hbare⟩ := hvendor
    have hstarts : (text "ms-").isPrefixOf (loweredName groups) = true :=
      List.isPrefixOf_iff_prefix.2 hbare
    rw [lowerAscii_hyphenated_true, if_neg (not_bareVendor_prefix_hyphen _), cssProperty,
      styleKey_of_bareVendor hgroups hbare]
    dsimp only
    rw [loweredName, hcustom, hback, hyphenated_false, ← loweredName, hstarts]
    rfl
  · have hkey : styleKey (hyphenated vendor groups) = joinHumps vendor (loweredName groups) :=
      styleKey_of_not_bareVendor hgroups fun htrue hbare => hvendor ⟨htrue, hbare⟩
    rw [cssProperty, hkey]
    dsimp only
    rw [loweredName, hcustom, hback, lowerAscii_hyphenated]
    simp only [Bool.false_eq_true, if_false, List.isPrefixOf_iff_prefix]
    rfl

/-- Names have the same key if they differ in the case of their letters only. -/
theorem styleKey_eq_of_lowerAscii (hp : IsPropertyName p) (hq : IsPropertyName q)
    (h : lowerAscii p = lowerAscii q) : styleKey p = styleKey q := by
  rw [styleKey, styleKey, not_isCustom hp, not_isCustom hq, h]
  rfl

/-- Names with the same key are the same up to case. -/
theorem lowerAscii_eq_of_styleKey (hp : IsPropertyName p) (hq : IsPropertyName q)
    (hbare : ¬ bareVendor <+: lowerAscii p) (hbare' : ¬ bareVendor <+: lowerAscii q)
    (h : styleKey p = styleKey q) : lowerAscii p = lowerAscii q := by
  have hcss : cssProperty p = cssProperty q := by rw [cssProperty, cssProperty, h]
  calc
    lowerAscii p = cssProperty p := by rw [cssProperty_eq hp, if_neg hbare]
    _ = cssProperty q := hcss
    _ = lowerAscii q := by rw [cssProperty_eq hq, if_neg hbare']

/-- A hyphen in front comes back. -/
theorem hyphen_prefix_cssProperty (hp : IsPropertyName p) (h : ['-'] <+: p) :
    ['-'] <+: cssProperty p := by
  obtain ⟨rest, rfl⟩ := h
  rw [cssProperty_eq hp]
  split
  · exact ⟨_, rfl⟩
  · exact ⟨lowerAscii rest, rfl⟩

/-- A custom name is its own key. -/
theorem styleKey_of_isCustom (h : isCustom p = true) : styleKey p = p := by
  rw [styleKey, if_pos h]

/-- A custom name is written as it stands. -/
theorem cssProperty_of_isCustom (h : isCustom p = true) : cssProperty p = p := by
  rw [cssProperty, styleKey_of_isCustom h]
  exact if_pos h

/-- Names of letters come back in small letters, unless they begin as the names of one vendor do but
without the hyphen. So their keys tell them apart up to case, and the names of vendors keep the hyphen in
front. Custom properties are never changed. -/
theorem propertyNames_return :
    (∀ p, IsPropertyName p → (cssProperty p = lowerAscii p ↔ ¬ bareVendor <+: lowerAscii p)) ∧
      (∀ p q, IsPropertyName p → IsPropertyName q → ¬ bareVendor <+: lowerAscii p →
        ¬ bareVendor <+: lowerAscii q → (styleKey p = styleKey q ↔ lowerAscii p = lowerAscii q)) ∧
        (∀ p, IsPropertyName p → ['-'] <+: p → ['-'] <+: cssProperty p) ∧
          ∀ p, text "--" <+: p → styleKey p = p ∧ cssProperty p = p := by
  refine ⟨fun p hp => ?_, fun p q hp hq hbare hbare' => ?_, fun p => hyphen_prefix_cssProperty,
    fun p hp => ?_⟩
  · rw [cssProperty_eq hp]
    split
    · next hbare => exact iff_of_false (List.cons_ne_self _ _) fun hnot => hnot hbare
    · next hbare => exact iff_of_true rfl hbare
  · exact ⟨lowerAscii_eq_of_styleKey hp hq hbare hbare', styleKey_eq_of_lowerAscii hp hq⟩
  · have hcustom : isCustom p = true := isCustom_iff.2 hp
    exact ⟨styleKey_of_isCustom hcustom, cssProperty_of_isCustom hcustom⟩

/-- Names of vendors come back in small letters with their hyphen, and custom names as they are. -/
theorem propertyNames_return_vendors :
    IsPropertyName (text "-Webkit-Flex") ∧ IsPropertyName (text "-webkit-flex") ∧
      ¬ bareVendor <+: lowerAscii (text "-Webkit-Flex") ∧
        cssProperty (text "-Webkit-Flex") = lowerAscii (text "-Webkit-Flex") ∧
          styleKey (text "-Webkit-Flex") = styleKey (text "-webkit-flex") ∧
            ['-'] <+: cssProperty (text "-MS-x") ∧ styleKey (text "--Brand") = text "--Brand" := by
  obtain ⟨hback, hkeys, hvendor, hcustom⟩ := propertyNames_return
  have hwebkit : IsPropertyName (text "-Webkit-Flex") :=
    ⟨true, [text "Webkit", text "Flex"], .of_all (by decide) (by decide), by decide⟩
  have hsmall : IsPropertyName (text "-webkit-flex") :=
    ⟨true, [text "webkit", text "flex"], .of_all (by decide) (by decide), by decide⟩
  have hms : IsPropertyName (text "-MS-x") :=
    ⟨true, [text "MS", ['x']], .of_all (by decide) (by decide), by decide⟩
  have hbare : ¬ bareVendor <+: lowerAscii (text "-Webkit-Flex") := by decide
  exact ⟨hwebkit, hsmall, hbare, (hback _ hwebkit).2 hbare,
    (hkeys _ _ hwebkit hsmall hbare (by decide)).2 (by decide), hvendor _ hms (by decide),
    (hcustom _ (by decide)).1⟩

/-! ## Written declarations -/

/-- A declaration that has been read is read again from how it is written. -/
theorem Declaration.IsRead.readDeclaration_write {d : Declaration} (h : d.IsRead) :
    readDeclaration d.write = some d := by
  rw [Template.readDeclaration_write h.colon, h.trim_property, h.trim_value,
    if_neg (not_or.2 ⟨h.property_ne, h.value_ne⟩)]

/-- The declarations of a style are read again from their written form. A rendered style is written in
this form with its properties back from their keys, so it is read as the same declarations exactly if its
properties have come back as they were. -/
theorem parseStyle_join_write (style : Text) :
    parseStyle (List.intercalate [';'] ((parseStyle style).map Declaration.write)) = parseStyle style ∧
      (∀ name, (Property.mk name (.style (parseStyle style))).render = writeAttribute (text "style")
        (List.intercalate [';'] ((parseStyle style).map fun d => d.respelled.write))) ∧
      (parseStyle (List.intercalate [';'] ((parseStyle style).map fun d => d.respelled.write)) =
          parseStyle style ↔
        ∀ d ∈ parseStyle style, cssProperty d.property = d.property) := by
  refine ⟨?_, fun _ => rfl, parseStyle_respelled_iff⟩
  have hread : (parseStyle style).filterMap (fun d => readDeclaration d.write) =
      (parseStyle style).map id :=
    List.filterMap_eq_map_iff_forall_eq_some.2 fun d hd => (mem_parseStyle hd).readDeclaration_write
  calc
    parseStyle (List.intercalate [';'] ((parseStyle style).map Declaration.write)) =
        (parseStyle style).filterMap fun d => readDeclaration d.write :=
      parseStyle_join (f := id) (fun _ => rfl) style
    _ = (parseStyle style).map id := hread
    _ = parseStyle style := List.map_id _

end Viewloom.Template
