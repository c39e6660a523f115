import Viewloom.Html.Document
import Viewloom.Proofs.Html.Content
import Viewloom.Proofs.Html.Growth

/-!
# Settled states

Between two nodes of a page that is read again nothing is pending: the open elements have the names that
the page says, they are in the right mode, and all formatting elements that are known are still open.
-/

namespace Viewloom.Html

namespace Builder

/-- The formatting elements that are known stand in the order in which they are open, between the
markers of the elements that limit them. Some that are open may have been forgotten. -/
inductive Follows : List Open → List Formatting → Prop where
  | nil : Follows [] []
  | marker {o : Open} {os : List Open} {fs : List Formatting} :
    o.name.isMarker = true → Follows os fs → Follows (o :: os) (.marker :: fs)
  | element {o : Open} {os : List Open} {fs : List Formatting} :
    o.name.isFormatting = true → Follows os fs → Follows (o :: os) (.element o :: fs)
  | other {o : Open} {os : List Open} {fs : List Formatting} :
    o.name.isMarker = false → Follows os fs → Follows (o :: os) fs

variable {b b' : Builder} {names : List Name} {name : Name} {o : Open} {os : List Open}
  {fs : List Formatting} {attributes : List Attribute}

/-! ## Names of open elements -/

/-- Different tags name different elements. -/
@[simp]
theorem html_inj {tag tag' : Text} : Name.html tag = Name.html tag' ↔ tag = tag' := by
  simp [Name.html]

theorem eq_html (h : name.space = .html) : name = Name.html name.name := by
  cases name
  cases h
  rfl

/-- The names of the open elements decide what is in scope. -/
theorem inScope_standIns (limit p : Name → Bool) (os : List Open) :
    inScope limit (fun o => p o.name) (standIns (os.map Open.name)) =
      inScope limit (fun o => p o.name) os := by
  induction os with
  | nil => rfl
  | cons o os ih =>
      rw [List.map_cons, standIns_cons, inScope, inScope, ih]

theorem selectMode_standIns (os : List Open) :
    selectMode (standIns (os.map Open.name)) = selectMode os := by
  induction os with
  | nil => rfl
  | cons o os ih =>
      rw [List.map_cons, standIns_cons, selectMode, selectMode, ih]

theorem itemToClose_standIns (items : List Text) (os : List Open) :
    itemToClose items (standIns (os.map Open.name)) = itemToClose items os := by
  induction os with
  | nil => rfl
  | cons o os ih =>
      rw [List.map_cons, standIns_cons, itemToClose, itemToClose, ih]

theorem modeOf_eq_modeIn (hhead : b.head.isSome = true) (htemplates : b.templateModes = [])
    (os : List Open) : b.modeOf os = modeIn (os.map Open.name) := by
  unfold modeIn
  induction os with
  | nil => rfl
  | cons o os ih =>
      have hempty : (standIns (os.map Open.name)).isEmpty = os.isEmpty := by cases os <;> rfl
      have hnil : standIns (os.map Open.name) ≠ [] ↔ os ≠ [] := by cases os <;> simp [standIns]
      rw [List.map_cons, standIns_cons, modeOf, modeOf, ih, selectMode_standIns, hempty, hhead,
        htemplates]
      simp only [hnil]
      rfl

theorem hasInScope_eq (limit : Name → Bool) (name : Text) (h : b.stack.map Open.name = names) :
    b.hasInScope limit name = hasOpen limit name names := by
  rw [hasInScope, hasOpen, ← h]
  exact (inScope_standIns limit (· == Name.html name) b.stack).symm

theorem currentIs_eq (p : Name → Bool) (h : b.stack.map Open.name = names) :
    b.currentIs p = innermost names p := by
  rw [← h, innermost, currentIs, current?, List.head?_map]
  cases b.stack.head? <;> rfl

/-! ## Formatting elements -/

theorem isMarker_of_isFormatting (h : name.isFormatting = true) : name.isMarker = false := by
  have hmarker : ∀ tag, (formattingTags.contains tag || tag == text "a" || tag == text "nobr") = true →
      [text "applet", text "caption", text "marquee", text "object", text "td", text "th"].contains
        tag = false := by
    intro tag htag
    rw [Bool.eq_false_iff]
    intro hmem
    simp only [List.contains_iff_mem, List.mem_cons, List.not_mem_nil, or_false] at hmem
    rcases hmem with rfl | rfl | rfl | rfl | rfl | rfl <;> exact absurd htag (by decide)
  simp only [Name.isFormatting, Bool.and_eq_true] at h
  rw [Name.isMarker, Name.isOneOf, hmarker _ h.2, Bool.and_false]

namespace Follows

theorem mem (h : Follows os fs) (hmem : Formatting.element o ∈ fs) : o ∈ os := by
  induction h with
  | nil => simp at hmem
  | marker _ _ ih => exact List.mem_cons_of_mem _ (ih (by simpa using hmem))
  | element _ _ ih =>
      rcases List.mem_cons.1 hmem with heq | hmem
      · cases heq
        exact List.mem_cons_self ..
      · exact List.mem_cons_of_mem _ (ih hmem)
  | other _ _ ih => exact List.mem_cons_of_mem _ (ih hmem)

/-- Formatting elements may be forgotten. -/
theorem filter (h : Follows os fs) (p : Formatting → Bool) (hmarker : p .marker = true) :
    Follows os (fs.filter p) := by
  induction h with
  | nil => exact .nil
  | marker hname _ ih =>
      rw [List.filter_cons_of_pos hmarker]
      exact .marker hname ih
  | @element o _ _ hname _ ih =>
      cases hp : p (.element o) with
      | true =>
          rw [List.filter_cons_of_pos hp]
          exact .element hname ih
      | false =>
          rw [List.filter_cons_of_neg (by simp [hp])]
          exact .other (isMarker_of_isFormatting hname) ih
  | other hname _ ih => exact .other hname ih

/-- Behind an element without a part in formatting nothing changes. -/
theorem tail_of_other (h : Follows (o :: os) fs) (hmarker : o.name.isMarker = false)
    (hformatting : o.name.isFormatting = false) : Follows os fs := by
  cases h with
  | marker hname => rw [hmarker] at hname; cases hname
  | element hname => rw [hformatting] at hname; cases hname
  | other _ h => exact h

theorem tail_of_marker (h : Follows (o :: os) fs) (hmarker : o.name.isMarker = true) :
    ∃ fs', fs = .marker :: fs' ∧ Follows os fs' := by
  cases h with
  | marker _ h => exact ⟨_, rfl, h⟩
  | element hname => rw [isMarker_of_isFormatting hname] at hmarker; cases hmarker
  | other hname => rw [hmarker] at hname; cases hname

/-- An innermost formatting element is known or has been forgotten. -/
theorem cases_of_formatting (h : Follows (o :: os) fs) (hformatting : o.name.isFormatting = true) :
    (∃ rest, fs = .element o :: rest ∧ Follows os rest) ∨ Follows os fs := by
  cases h with
  | marker hname => rw [isMarker_of_isFormatting hformatting] at hname; cases hname
  | element _ h => exact .inl ⟨_, rfl, h⟩
  | other _ h => exact .inr h

/-- Nothing that is known has to be reopened. -/
theorem closedFormatting (h : Follows b.stack b.formatting) :
    b.closedFormatting b.formatting = [] := by
  cases hf : b.formatting with
  | nil => rfl
  | cons f fs =>
      cases f with
      | marker => rfl
      | element o =>
          have hmem := h.mem (o := o) (by rw [hf]; exact List.mem_cons_self ..)
          have hopen : b.isOpenElement o.id = true :=
            List.any_eq_true.2 ⟨o, hmem, beq_self_eq_true _⟩
          rw [Builder.closedFormatting, if_pos hopen]

/-- With all formatting elements open, none is opened again. -/
theorem reconstruct (h : Follows b.stack b.formatting) : b.reconstruct = b := by
  rw [Builder.reconstruct, h.closedFormatting]
  rfl

/-- What is found in the formatting elements behind the last marker is open before one. -/
theorem find?_recent {tag : Text} (h : Follows os fs)
    (hscope : inScope Name.isMarker (fun o => o.name == Name.html tag) os = false) :
    ((fs.takeWhile (· != .marker)).filterMap fun
      | .element o => some o
      | .marker => none).find? (fun o => o.name.name = tag) = none := by
  induction h with
  | nil => rfl
  | marker => rfl
  | @element o _ _ hname _ ih =>
      rw [inScope] at hscope
      cases hwanted : o.name == Name.html tag with
      | true => simp [hwanted] at hscope
      | false =>
          have htag : o.name.name ≠ tag := by
            rintro rfl
            simp only [Name.isFormatting, Bool.and_eq_true, beq_iff_eq] at hname
            exact absurd (eq_html hname.1) (by simpa using hwanted)
          simp only [hwanted, Bool.false_eq_true, if_false, isMarker_of_isFormatting hname] at hscope
          simpa [htag] using ih hscope
  | @other o _ _ hname _ ih =>
      rw [inScope] at hscope
      cases hwanted : o.name == Name.html tag with
      | true => simp [hwanted] at hscope
      | false =>
          simp only [hwanted, hname, Bool.false_eq_true, if_false] at hscope
          exact ih hscope

end Follows

/-! ## Settled states -/

/-- The form that is open. -/
def openFormOf (stack : List Open) : Option Nat :=
  (stack.find? fun o => o.name == Name.html (text "form")).map Open.id

/-- Modes that differ at most in how a select element ends within a table. -/
def Agree (mode mode' : Mode) : Prop :=
  mode = mode' ∨ (isSelectMode mode = true ∧ isSelectMode mode' = true)

/-- What does not change from node to node. -/
structure IsCalm (b : Builder) : Prop where
  templateModes : b.templateModes = []
  head : b.head.isSome = true
  fostering : b.fostering = false
  quirks : b.quirks = true
  reading : b.reading = .data

/-- Every element has a number of its own. -/
structure IsNumbered (b : Builder) : Prop where
  trees : ∀ i ∈ Tree.idsAll b.trees, i < b.fresh
  stack : ∀ o ∈ b.stack, o.id < b.fresh
  nodup : (b.stack.map Open.id).Nodup

/-- Names of open elements without templates, annotations and nested forms. -/
structure IsPlain (names : List Name) : Prop where
  template : Name.html (text "template") ∉ names
  annotation : ⟨.mathml, text "annotation-xml"⟩ ∉ names
  form : names.count (Name.html (text "form")) ≤ 1

/-- A state between two nodes, within elements of some names. -/
structure Settled (b : Builder) (names : List Name) : Prop where
  stack : b.stack.map Open.name = names
  plain : IsPlain names
  numbered : b.IsNumbered
  formatting : Follows b.stack b.formatting
  form : b.form = openFormOf b.stack
  mode : Agree b.mode (modeIn names)
  calm : b.IsCalm
  dropNewline : b.dropNewline = false

/-- Whether a line break behind the tag of an element is dropped. -/
def dropsNewline (name : Name) : Bool := name.isOneOf [text "listing", text "pre"]

/-- An element has been opened; a line break may be dropped behind its tag. -/
structure Opened (b b' : Builder) (name : Name) (attributes : List Attribute) : Prop where
  stack : b'.stack = ⟨b.fresh, name, attributes⟩ :: b.stack
  trees : ∀ o os, b.stack = o :: os →
    b'.trees = Tree.appendAll o.id (.element b.fresh name attributes []) b.trees
  settled : Settled { b' with dropNewline := false } (name :: b.stack.map Open.name)
  dropNewline : b'.dropNewline = dropsNewline name

/-- The innermost element has been closed. -/
structure Closed (b b' : Builder) : Prop where
  stack : b'.stack = b.stack.tail
  trees : b'.trees = b.trees
  settled : Settled b' (b.stack.tail.map Open.name)

/-- Nodes have been added to the innermost element. -/
structure Grown (b b' : Builder) (pieces : List Tree) : Prop where
  stack : b'.stack = b.stack
  trees : ∀ o os, b.stack = o :: os → b'.trees = Tree.appendEach o.id pieces b.trees
  settled : Settled b' (b.stack.map Open.name)

/-- Two states that are the same up to formatting, forms and what belongs to the mode. -/
structure OnGround (b b' : Builder) : Prop where
  stack : b'.stack = b.stack
  trees : b'.trees = b.trees
  fresh : b'.fresh = b.fresh
  templateModes : b'.templateModes = b.templateModes
  head : b'.head = b.head
  fostering : b'.fostering = b.fostering
  quirks : b'.quirks = b.quirks
  reading : b'.reading = b.reading

/-- Two states that are the same up to framesets and texts of tables. -/
structure Similar (b b' : Builder) : Prop extends OnGround b b' where
  formatting : b'.formatting = b.formatting
  form : b'.form = b.form
  mode : b'.mode = b.mode

theorem Similar.refl (b : Builder) : Similar b b where
  stack := rfl
  trees := rfl
  fresh := rfl
  templateModes := rfl
  head := rfl
  fostering := rfl
  quirks := rfl
  reading := rfl
  formatting := rfl
  form := rfl
  mode := rfl

theorem Similar.noFrameset (b : Builder) : Similar b b.noFrameset := { Similar.refl b with }

/-- What is opened may be changed by what stays on its ground. -/
theorem Opened.of_onGround {b₁ : Builder} (h : Opened b₁ b' name attributes)
    (hground : OnGround b b₁) : Opened b b' name attributes where
  stack := by rw [h.stack, hground.stack, hground.fresh]
  trees := by
    rw [← hground.stack, ← hground.fresh, ← hground.trees]
    exact h.trees
  settled := by
    rw [← hground.stack]
    exact h.settled
  dropNewline := h.dropNewline

/-- A calm builder stays calm on its ground. -/
theorem OnGround.isCalm (h : OnGround b b') (hcalm : b.IsCalm) : b'.IsCalm where
  templateModes := h.templateModes.trans hcalm.templateModes
  head := h.head ▸ hcalm.head
  fostering := h.fostering.trans hcalm.fostering
  quirks := h.quirks.trans hcalm.quirks
  reading := h.reading.trans hcalm.reading

/-- A builder stays numbered on its ground. -/
theorem OnGround.isNumbered (h : OnGround b b') (hnumbered : b.IsNumbered) : b'.IsNumbered := by
  refine ⟨?_, ?_, ?_⟩
  · rw [h.trees, h.fresh]
    exact hnumbered.trees
  · rw [h.stack, h.fresh]
    exact hnumbered.stack
  · rw [h.stack]
    exact hnumbered.nodup

theorem Agree.refl (mode : Mode) : Agree mode mode := .inl rfl

theorem IsPlain.tail (h : IsPlain (name :: names)) : IsPlain names where
  template := fun hmem => h.template (List.mem_cons_of_mem _ hmem)
  annotation := fun hmem => h.annotation (List.mem_cons_of_mem _ hmem)
  form := List.count_le_count_cons.trans h.form

theorem openFormOf_cons (h : o.name ≠ Name.html (text "form")) (os : List Open) :
    openFormOf (o :: os) = openFormOf os := by
  rw [openFormOf, List.find?_cons_of_neg (by simpa using h)]
  rfl

namespace IsNumbered

theorem tail (h : b.IsNumbered) : b.pop.IsNumbered where
  trees := h.trees
  stack := fun o ho => h.stack o (List.mem_of_mem_tail ho)
  nodup := h.nodup.sublist ((List.tail_sublist _).map _)

/-- A piece without elements keeps the numbers apart. -/
theorem insert (h : b.IsNumbered) (parent : Nat) {piece : Tree} (hpiece : Tree.ids piece = []) :
    IsNumbered { b with trees := Tree.appendAll parent piece b.trees } where
  trees := by
    intro i hi
    rcases Tree.mem_idsAll_appendAll hi with hi | hi
    · exact h.trees i hi
    · rw [hpiece] at hi
      cases hi
  stack := h.stack
  nodup := h.nodup

/-- A new element has a number of its own. -/
theorem open' (h : b.IsNumbered) (parent : Nat) (name : Name) (attributes : List Attribute) :
    IsNumbered
      { b with
        trees := Tree.appendAll parent (.element b.fresh name attributes []) b.trees
        fresh := b.fresh + 1
        stack := ⟨b.fresh, name, attributes⟩ :: b.stack } where
  trees := by
    intro i hi
    rcases Tree.mem_idsAll_appendAll hi with hi | hi
    · exact Nat.lt_succ_of_lt (h.trees i hi)
    · have : i = b.fresh := by simpa [Tree.ids, Tree.idsAll] using hi
      exact this ▸ Nat.lt_succ_self _
  stack := by
    intro o ho
    rcases List.mem_cons.1 ho with rfl | ho
    · exact Nat.lt_succ_self _
    · exact Nat.lt_succ_of_lt (h.stack o ho)
  nodup := by
    refine List.nodup_cons.2 ⟨fun hmem => ?_, h.nodup⟩
    obtain ⟨o, ho, hid⟩ := List.mem_map.1 hmem
    exact absurd (h.stack o ho) (by rw [hid]; exact Nat.lt_irrefl _)

end IsNumbered

namespace Settled

variable (h : Settled b names)

include h

/-- The next piece goes into the innermost element. -/
theorem place_eq (hstack : b.stack = o :: os) : b.place = .inside o.id := by
  rw [place, current?, hstack]
  simp [placeFor, h.calm.fostering]

/-- Opening an element adds it to the innermost one. -/
theorem openElement_eq (hstack : b.stack = o :: os) (name : Name) (attributes : List Attribute) :
    b.openElement name attributes =
      { b with
        trees := Tree.appendAll o.id (.element b.fresh name attributes []) b.trees
        fresh := b.fresh + 1
        stack := ⟨b.fresh, name, attributes⟩ :: b.stack } := by
  rw [openElement, h.place_eq hstack]
  rfl

/-- A text is added to the innermost element. -/
theorem insertText_eq (hstack : b.stack = o :: os) (value : Text) :
    b.insertText value = { b with trees := Tree.appendAll o.id (.text value) b.trees } := by
  rw [insertText, h.place_eq hstack]
  rfl

/-- A comment is added to the innermost element. -/
theorem insertComment_eq (hstack : b.stack = o :: os) (value : Text) :
    b.insertComment value = { b with trees := Tree.appendAll o.id (.comment value) b.trees } := by
  rw [insertComment, h.place_eq hstack]
  rfl

/-- No formatting element is opened again. -/
theorem reconstruct_eq : b.reconstruct = b := h.formatting.reconstruct

theorem inTemplateElement_eq : b.inTemplateElement = false := by
  rw [inTemplateElement, isOpen, List.any_eq_false]
  intro o ho heq
  refine h.plain.template (h.stack ▸ List.mem_map.2 ⟨o, ho, ?_⟩)
  simpa using heq

/-- What is similar to a settled builder is settled. -/
theorem of_similar (hsimilar : Similar b b') (hdrop : b'.dropNewline = false) :
    Settled b' names where
  stack := by rw [hsimilar.stack, h.stack]
  plain := h.plain
  numbered := hsimilar.isNumbered h.numbered
  formatting := by
    rw [hsimilar.stack, hsimilar.formatting]
    exact h.formatting
  form := by rw [hsimilar.form, hsimilar.stack, h.form]
  mode := by
    rw [hsimilar.mode]
    exact h.mode
  calm := hsimilar.isCalm h.calm
  dropNewline := hdrop

/-- An element is opened by whatever keeps to its ground and sets the mode that fits. -/
theorem opened (hstack : b.stack = o :: os)
    (hground : OnGround (b.openElement name attributes) b') (hplain : IsPlain (name :: names))
    (hformatting : Follows (⟨b.fresh, name, attributes⟩ :: b.stack) b'.formatting)
    (hform : b'.form = openFormOf (⟨b.fresh, name, attributes⟩ :: b.stack))
    (hmode : Agree b'.mode (modeIn (name :: names)))
    (hdrop : b'.dropNewline = dropsNewline name) : Opened b b' name attributes := by
  let grown : Builder :=
    { b with
      trees := Tree.appendAll o.id (.element b.fresh name attributes []) b.trees
      fresh := b.fresh + 1
      stack := ⟨b.fresh, name, attributes⟩ :: b.stack }
  have hcalm : grown.IsCalm := { h.calm with }
  rw [h.openElement_eq hstack] at hground
  have hself : b'.stack = ⟨b.fresh, name, attributes⟩ :: b.stack := hground.stack
  exact {
    stack := hself
    trees := by
      intro o' os' hstack'
      obtain ⟨rfl, rfl⟩ := List.cons.inj (hstack.symm.trans hstack')
      exact hground.trees
    settled := {
      stack := by rw [hself, List.map_cons]
      plain := h.stack ▸ hplain
      numbered := by
        have hnumbered := hground.isNumbered (h.numbered.open' o.id name attributes)
        exact ⟨hnumbered.trees, hnumbered.stack, hnumbered.nodup⟩
      formatting := by
        rw [hself]
        exact hformatting
      form := by
        rw [hself]
        exact hform
      mode := h.stack ▸ hmode
      calm := { hground.isCalm hcalm with }
      dropNewline := rfl }
    dropNewline := hdrop }

/-- The innermost element is closed by whatever keeps to its ground and sets the mode that fits. -/
theorem closed (hstack : b.stack = o :: os) (hground : OnGround b.pop b')
    (hformatting : Follows os b'.formatting) (hform : b'.form = openFormOf os)
    (hmode : Agree b'.mode (modeIn names.tail)) (hdrop : b'.dropNewline = false) :
    Closed b b' := by
  have htail : b'.stack = os := by
    rw [hground.stack, pop, hstack]
    rfl
  have hnames : names = o.name :: os.map Open.name := by rw [← h.stack, hstack, List.map_cons]
  have hcalm : b.pop.IsCalm := { h.calm with }
  exact {
    stack := hground.stack
    trees := hground.trees
    settled := {
      stack := by rw [htail, hstack, List.tail_cons]
      plain := by
        rw [hstack, List.tail_cons]
        exact (hnames ▸ h.plain).tail
      numbered := hground.isNumbered h.numbered.tail
      formatting := by
        rw [htail]
        exact hformatting
      form := by rw [hform, htail]
      mode := by
        rw [hstack, List.tail_cons]
        rw [hnames, List.tail_cons] at hmode
        exact hmode
      calm := hground.isCalm hcalm
      dropNewline := hdrop } }

/-- A settled builder stays so when a piece without elements is added. -/
theorem insert (parent : Nat) {piece : Tree} (hpiece : Tree.ids piece = []) :
    Settled { b with trees := Tree.appendAll parent piece b.trees } names :=
  { h with
    numbered := h.numbered.insert parent hpiece
    calm := { h.calm with } }

/-- A settled builder stays so when an element without content is added. -/
theorem insertVoid (parent : Nat) (name : Name) (attributes : List Attribute) :
    Settled
      { b with
        trees := Tree.appendAll parent (.element b.fresh name attributes []) b.trees
        fresh := b.fresh + 1 } names :=
  { h with
    numbered := (h.numbered.open' parent name attributes).tail
    calm := { h.calm with } }

end Settled

/-- A node has been added, and nothing else that matters has changed. -/
theorem Settled.grown {c : Builder} {piece : Tree} (h : Settled c (b.stack.map Open.name))
    (hstack : c.stack = b.stack)
    (htrees : ∀ o os, b.stack = o :: os → c.trees = Tree.appendAll o.id piece b.trees)
    (hsimilar : Similar c b') (hdrop : b'.dropNewline = false) : Grown b b' [piece] where
  stack := hsimilar.stack.trans hstack
  trees := by
    intro o os hcurrent
    rw [hsimilar.trees, htrees o os hcurrent]
    rfl
  settled := h.of_similar hsimilar hdrop

end Builder

end Viewloom.Html
