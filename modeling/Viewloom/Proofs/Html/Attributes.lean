import Viewloom.Html.Document
import Viewloom.Proofs.Html.Trees

/-!
# Attributes of a document

Each step of construction gives new elements only attributes that a tag or an open element had before.
So what holds of the attributes of all tags holds of those of all elements.
-/

namespace Viewloom.Html

/-- What construction itself does to attributes: it makes up elements without any, adds missing ones,
and adjusts those of foreign elements. -/
structure Admits (p : List Attribute → Prop) : Prop where
  nil : p []
  cons : ∀ (a : Attribute) {attributes : List Attribute}, p attributes → p (consAttribute a attributes)
  missing : ∀ {attributes more : List Attribute}, p attributes → p more →
    p (attributes ++ more.filter fun a => !Attribute.has a.name attributes)
  foreign : ∀ (space : Space) {attributes : List Attribute}, p attributes →
    p (Builder.foreignAttributes space attributes)

/-- What the attributes of a token satisfy, if it opens an element. -/
def Token.Keeps (p : List Attribute → Prop) : Token → Prop
  | startTag _ attributes _ => p attributes
  | _ => True

namespace Builder

/-- What holds of the attributes of all elements that are in the document or may come into it. -/
structure Keeps (p : List Attribute → Prop) (b : Builder) : Prop where
  trees : Tree.EachOf p b.trees
  stack : ∀ o ∈ b.stack, p o.attributes
  formatting : ∀ o, Formatting.element o ∈ b.formatting → p o.attributes
  head : ∀ o, b.head = some o → p o.attributes

variable {p : List Attribute → Prop} {b b' : Builder} {name : Text} {attributes : List Attribute}

theorem keeps_empty : Keeps p empty where
  trees := trivial
  stack := by simp [empty]
  formatting := by simp [empty]
  head := by simp [empty]

namespace Keeps

/-- The rest of the state does not matter. -/
theorem congr (h : Keeps p b) (htrees : b'.trees = b.trees) (hstack : b'.stack = b.stack)
    (hformatting : b'.formatting = b.formatting) (hhead : b'.head = b.head) : Keeps p b' where
  trees := htrees ▸ h.trees
  stack := hstack ▸ h.stack
  formatting := hformatting ▸ h.formatting
  head := hhead ▸ h.head

theorem withStack (h : Keeps p b) {stack : List Open} (hstack : ∀ o ∈ stack, p o.attributes) :
    Keeps p { b with stack := stack } :=
  { h with stack := hstack }

theorem withFormatting (h : Keeps p b) {formatting : List Formatting}
    (hformatting : ∀ o, Formatting.element o ∈ formatting → p o.attributes) :
    Keeps p { b with formatting := formatting } :=
  { h with formatting := hformatting }

/-- Closing elements keeps a property of attributes. -/
theorem sublist (h : Keeps p b) {stack : List Open} (hstack : stack.Sublist b.stack) :
    Keeps p { b with stack := stack } :=
  h.withStack fun o ho => h.stack o (hstack.subset ho)

@[grind ←]
theorem pop (h : Keeps p b) : Keeps p b.pop := h.sublist (List.tail_sublist _)

@[grind ←]
theorem popWhile (h : Keeps p b) (q : Name → Bool) : Keeps p (b.popWhile q) :=
  h.sublist (List.dropWhile_sublist _)

@[grind ←]
theorem popThrough (h : Keeps p b) (q : Name → Bool) : Keeps p (b.popThrough q) :=
  h.sublist ((List.tail_sublist _).trans (List.dropWhile_sublist _))

@[grind ←]
theorem removeFromStack (h : Keeps p b) (id : Nat) : Keeps p (b.removeFromStack id) :=
  h.sublist List.filter_sublist

/-- Adding a piece keeps a property that its attributes have. -/
theorem insertAt (h : Keeps p b) (place : Place) {piece : Tree} (hpiece : piece.Each p) :
    Keeps p (b.insertAt place piece) := by
  cases place with
  | root => exact { h with trees := Tree.eachOf_addLast hpiece h.trees }
  | inside id => exact { h with trees := Tree.eachOf_appendAll id hpiece h.trees }
  | before id => exact { h with trees := Tree.eachOf_insertBeforeAll id hpiece h.trees }

@[grind ←]
theorem insertText (h : Keeps p b) (value : Text) : Keeps p (b.insertText value) :=
  h.insertAt _ trivial

@[grind ←]
theorem insertComment (h : Keeps p b) (value : Text) : Keeps p (b.insertComment value) :=
  h.insertAt _ trivial

/-- Opening an element keeps a property that its attributes have. -/
@[grind ←]
theorem openElement (h : Keeps p b) (name : Name) (hattributes : p attributes) :
    Keeps p (b.openElement name attributes) := by
  have hinsert : Keeps p (b.insertAt b.place (.element b.fresh name attributes [])) :=
    h.insertAt _ ⟨hattributes, trivial⟩
  refine { hinsert with stack := fun o ho => ?_ }
  rcases List.mem_cons.1 ho with rfl | ho
  · exact hattributes
  · exact hinsert.stack o ho

@[grind ←]
theorem openHtml (h : Keeps p b) (name : Text) (hattributes : p attributes) :
    Keeps p (b.openHtml name attributes) :=
  h.openElement _ hattributes

@[grind ←]
theorem withMode (h : Keeps p b) (mode : Mode) : Keeps p (b.withMode mode) := h.congr rfl rfl rfl rfl

@[grind ←]
theorem noFrameset (h : Keeps p b) : Keeps p b.noFrameset := h.congr rfl rfl rfl rfl

@[grind ←]
theorem resetMode (h : Keeps p b) : Keeps p b.resetMode := h.congr rfl rfl rfl rfl

theorem ite {c : Prop} [Decidable c] (h : Keeps p b) (h' : Keeps p b') :
    Keeps p (if c then b else b') := by
  split
  · exact h
  · exact h'

@[grind ←]
theorem popThroughNamed (h : Keeps p b) (name : Text) : Keeps p (b.popThroughNamed name) :=
  h.popThrough _

@[grind ←]
theorem popTo (h : Keeps p b) (q : Name → Bool) : Keeps p (b.popTo q) := h.popWhile _

@[grind ←]
theorem closeImplied (h : Keeps p b) : Keeps p b.closeImplied := h.popWhile _

@[grind ←]
theorem closeImpliedExcept (h : Keeps p b) (name : Text) : Keeps p (b.closeImpliedExcept name) :=
  h.popWhile _

@[grind ←]
theorem closeParagraph (h : Keeps p b) : Keeps p b.closeParagraph := by
  grind [Builder.closeParagraph]

@[grind ←]
theorem endParagraph (h : Keeps p b) : Keeps p b.endParagraph := by
  grind [Builder.endParagraph]

@[grind ←]
theorem insertVoid (h : Keeps p b) (name : Text) (hattributes : p attributes) :
    Keeps p (b.insertVoid name attributes) :=
  (h.openHtml name hattributes).pop

@[grind ←]
theorem openText (h : Keeps p b) (name : Text) (hattributes : p attributes) (reading : Reading) :
    Keeps p (b.openText name attributes reading) :=
  (h.openHtml name hattributes).congr rfl rfl rfl rfl

/-! ### Formatting elements -/

@[grind ←]
theorem pushMarker (h : Keeps p b) : Keeps p b.pushMarker :=
  h.withFormatting fun o ho => h.formatting o (by simpa using ho)

theorem fewerFormatting (h : Keeps p b) {formatting : List Formatting}
    (hsub : formatting.Sublist b.formatting) : Keeps p { b with formatting := formatting } :=
  h.withFormatting fun o ho => h.formatting o (hsub.subset ho)

@[grind ←]
theorem clearToMarker (h : Keeps p b) : Keeps p b.clearToMarker :=
  h.fewerFormatting ((List.tail_sublist _).trans (List.dropWhile_sublist _))

@[grind ←]
theorem removeFormatting (h : Keeps p b) (id : Nat) : Keeps p (b.removeFormatting id) :=
  h.fewerFormatting List.filter_sublist

/-- Opening an element once more keeps a property, since its attributes are the old ones. -/
theorem reopen (h : Keeps p b) {o : Open} (ho : p o.attributes) : Keeps p (b.reopen o) := by
  refine (h.openElement o.name ho).withFormatting fun o' ho' => ?_
  obtain ⟨entry, hentry, heq⟩ := List.mem_map.1 ho'
  split at heq
  · cases heq
    exact ho
  · exact (h.openElement o.name ho).formatting o' (heq ▸ hentry)

theorem mem_formatting_of_closed {o : Open} : ∀ {formatting : List Formatting},
    o ∈ b.closedFormatting formatting → Formatting.element o ∈ formatting
  | .element o' :: rest, ho => by
      rw [closedFormatting] at ho
      split at ho
      · cases ho
      · rcases List.mem_cons.1 ho with rfl | ho
        · exact List.mem_cons_self
        · exact List.mem_cons_of_mem _ (mem_formatting_of_closed ho)
  | .marker :: _, ho => by simp [closedFormatting] at ho
  | [], ho => by simp [closedFormatting] at ho

/-- Opening all formatting elements again keeps a property of attributes. -/
@[grind ←]
theorem reconstruct (h : Keeps p b) : Keeps p b.reconstruct := by
  have hall : ∀ (os : List Open) (b : Builder), Keeps p b → (∀ o ∈ os, p o.attributes) →
      Keeps p (os.foldl Builder.reopen b) := by
    intro os
    induction os with
    | nil => exact fun b h _ => h
    | cons o os ih =>
        intro b h hos
        simp only [List.mem_cons, forall_eq_or_imp] at hos
        exact ih _ (h.reopen hos.1) hos.2
  refine hall _ b h fun o ho => h.formatting o ?_
  exact mem_formatting_of_closed (List.mem_reverse.1 ho)

/-- Forgetting equal formatting elements keeps a property of attributes. -/
@[grind ←]
theorem limitEqual (h : Keeps p b) (name : Name) (attributes : List Attribute) :
    Keeps p (b.limitEqual name attributes) := by
  unfold Builder.limitEqual
  dsimp only
  split
  · split
    · exact h.removeFormatting _
    · exact h
  · exact h

@[grind ←]
theorem openFormatting (h : Keeps p b) (name : Text) (hattributes : p attributes) :
    Keeps p (b.openFormatting name attributes) := by
  have hlimit : Keeps p (b.limitEqual (Name.html name) attributes) := h.limitEqual _ _
  refine (hlimit.openHtml name hattributes).withFormatting fun o ho => ?_
  rcases List.mem_cons.1 ho with heq | ho
  · cases heq
    exact hattributes
  · exact (hlimit.openHtml name hattributes).formatting o ho

theorem of_mem_recent (h : Keeps p b) {o : Open} (ho : o ∈ b.recentFormatting) : p o.attributes := by
  obtain ⟨entry, hentry, heq⟩ := List.mem_filterMap.1 ho
  cases entry with
  | marker => cases heq
  | element o' =>
      cases heq
      exact h.formatting o ((List.takeWhile_sublist _).subset hentry)

/-! ### Misnested formatting -/

@[grind ←]
theorem closeNamed (h : Keeps p b) (name : Text) : Keeps p (b.closeNamed name) := by
  unfold Builder.closeNamed
  split
  · exact h
  · exact (h.closeImpliedExcept name).sublist ((List.tail_sublist _).trans (List.dropWhile_sublist _))

/-- What is carried through the elements keeps the property as well. -/
structure OfCarry (p : List Attribute → Prop) (c : Carry) : Prop where
  builder : Keeps p c.builder
  moved : c.moved.Each p
  kept : ∀ o ∈ c.kept, p o.attributes

theorem carryThrough {c : Carry} (h : OfCarry p c) {o : Open} (ho : p o.attributes) (count : Nat) :
    OfCarry p (Builder.carryThrough c o count) := by
  unfold Builder.carryThrough
  split
  · exact { h with builder := h.builder.removeFormatting _ }
  split
  · refine ⟨h.builder.withFormatting (fun o' ho' => ?_) |>.congr rfl rfl rfl rfl,
      ⟨ho, h.moved, trivial⟩, fun o' ho' => ?_⟩
    · obtain ⟨entry, hentry, heq⟩ := List.mem_map.1 ho'
      split at heq
      · split at heq
        · cases heq
          exact ho
        · exact h.builder.formatting o' (heq ▸ hentry)
      · cases heq
    · rcases List.mem_append.1 ho' with ho' | ho'
      · exact h.kept o' ho'
      · obtain rfl := List.mem_singleton.1 ho'
        exact ho
  · exact h

theorem carryAll {c : Carry} (h : OfCarry p c) {os : List Open} (hos : ∀ o ∈ os, p o.attributes)
    (count : Nat) : OfCarry p (Builder.carryAll c os count) := by
  induction os generalizing c count with
  | nil => exact h
  | cons o os ih =>
      simp only [List.mem_cons, forall_eq_or_imp] at hos
      exact ih (carryThrough h hos.1 count) hos.2 (count + 1)

/-- A replaced entry is the new one, and the others are old ones. -/
theorem eq_or_mem_of_replaceFormatting {bookmark : Option Nat} {old : Nat} {new o : Open} :
    ∀ {formatting : List Formatting},
      Formatting.element o ∈ replaceFormatting bookmark old new formatting →
        o = new ∨ Formatting.element o ∈ formatting
  | [], ho => by cases ho
  | .marker :: rest, ho => by
      rw [replaceFormatting] at ho
      rcases List.mem_cons.1 ho with heq | ho
      · cases heq
      · exact (eq_or_mem_of_replaceFormatting ho).imp id (List.mem_cons_of_mem _)
  | .element o' :: rest, ho => by
      have hrest : Formatting.element o ∈ replaceFormatting bookmark old new rest →
          o = new ∨ Formatting.element o ∈ Formatting.element o' :: rest :=
        fun ho => (eq_or_mem_of_replaceFormatting ho).imp id (List.mem_cons_of_mem _)
      cases bookmark <;> rw [replaceFormatting] at ho <;> grind

/-- Dividing an element around a block keeps a property of attributes. -/
theorem splitAround (h : Keeps p b) {element block : Open} (helement : p element.attributes)
    (hblock : p block.attributes) : Keeps p (b.splitAround element block) := by
  unfold Builder.splitAround
  extract_lets inner outer above between content copy moved start carried state stacked placed
  have hinner : ∀ o ∈ inner, p o.attributes := fun o ho =>
    h.stack o ((List.takeWhile_sublist _).subset ho)
  have houter : ∀ o ∈ outer, p o.attributes := fun o ho =>
    h.stack o ((List.dropWhile_sublist _).subset (List.mem_of_mem_tail ho))
  have habove : ∀ o ∈ above, p o.attributes := fun o ho =>
    hinner o ((List.takeWhile_sublist _).subset ho)
  have hbetween : ∀ o ∈ between, p o.attributes := fun o ho =>
    hinner o ((List.dropWhile_sublist _).subset (List.mem_of_mem_tail ho))
  have hcontent : Tree.EachOf p content := by
    unfold content
    cases hfind : Tree.findAll? block.id b.trees with
    | none => trivial
    | some found => exact Tree.eachOf_children (Tree.each_of_findAll? h.trees hfind)
  have hstart : OfCarry p start :=
    { builder := { h with trees := Tree.eachOf_removeAll block.id h.trees }
      moved := ⟨hblock, ⟨helement, hcontent⟩, trivial⟩
      kept := by simp [start] }
  have hcarried : OfCarry p carried := carryAll hstart hbetween 1
  have hstacked : Keeps p stacked := by
    refine hcarried.builder.withStack fun o ho => ?_
    simp only [List.append_assoc, List.cons_append, List.mem_append, List.mem_cons] at ho
    rcases ho with ho | rfl | ho | rfl | ho
    · exact habove o ho
    · exact hblock
    · exact hcarried.kept o ho
    · exact helement
    · exact houter o ho
  have hplaced : Keeps p placed := by
    clear_value outer stacked carried
    unfold placed
    split
    · exact hstacked.insertAt _ hcarried.moved
    · exact hstacked
  refine { hplaced with stack := fun o ho => ?_, formatting := fun o ho => ?_ }
  · simp only [List.append_assoc, List.cons_append, List.mem_append, List.mem_cons] at ho
    rcases ho with ho | rfl | rfl | ho | ho
    · exact habove o ho
    · exact helement
    · exact hblock
    · exact hcarried.kept o ho
    · exact houter o ho
  · rcases eq_or_mem_of_replaceFormatting ho with rfl | ho
    · exact helement
    · exact hplaced.formatting o ho

/-- A round of adoption keeps a property of attributes. -/
theorem adoptOnce (h : Keeps p b) (name : Text) : Keeps p (b.adoptOnce name).1 := by
  unfold Builder.adoptOnce
  split
  · exact h.closeNamed name
  next element helement =>
    have helement : p element.attributes := h.of_mem_recent (List.mem_of_find?_eq_some helement)
    split
    · exact h.removeFormatting _
    split
    · exact h
    dsimp only
    split
    · exact (h.sublist ((List.tail_sublist _).trans (List.dropWhile_sublist _))).removeFormatting _
    next block hblock =>
      refine h.splitAround helement (h.stack block ?_)
      exact (List.takeWhile_sublist _).subset (List.mem_reverse.1 (List.mem_of_find?_eq_some hblock))

theorem adoptRounds (h : Keeps p b) (name : Text) (rounds : Nat) :
    Keeps p (Builder.adoptRounds name rounds b) := by
  induction rounds generalizing b with
  | zero => exact h
  | succ rounds ih =>
      unfold Builder.adoptRounds
      dsimp only
      split
      · exact ih (h.adoptOnce name)
      · exact h.adoptOnce name

/-- Adoption keeps a property of attributes. -/
@[grind ←]
theorem adopt (h : Keeps p b) (name : Text) : Keeps p (b.adopt name) := by
  unfold Builder.adopt
  split
  · exact h.pop.ite (h.adoptRounds name 8)
  · exact h

end Keeps

end Builder

end Viewloom.Html
