import Viewloom.Html.Tree

/-!
# Attributes in trees under construction

Construction moves elements and adds new ones. What holds of the attributes of all elements before and
of all new ones holds of them afterwards.
-/

namespace Viewloom.Html.Tree

mutual

/-- What holds of the attributes of all elements of a tree. -/
def Each (p : List Attribute → Prop) : Tree → Prop
  | element _ _ attributes children => p attributes ∧ EachOf p children
  | _ => True

def EachOf (p : List Attribute → Prop) : List Tree → Prop
  | [] => True
  | tree :: trees => tree.Each p ∧ EachOf p trees

end

variable {p : List Attribute → Prop} {piece : Tree}

@[simp]
theorem eachOf_append {trees more : List Tree} :
    EachOf p (trees ++ more) ↔ EachOf p trees ∧ EachOf p more := by
  induction trees with
  | nil => simp [EachOf]
  | cons tree trees ih => simp [EachOf, ih, and_assoc]

theorem eachOf_children {tree : Tree} (h : tree.Each p) : EachOf p tree.children := by
  cases tree with
  | element id name attributes children => exact h.2
  | text value => trivial
  | comment value => trivial

/-- Adding a piece keeps a property of attributes that the piece has. -/
theorem eachOf_addLast (hpiece : piece.Each p) :
    ∀ {trees : List Tree}, EachOf p trees → EachOf p (addLast piece trees)
  | [], _ => by simp [addLast, EachOf, hpiece]
  | [last], h => by
      unfold addLast
      split
      · simp [EachOf, Each]
      · exact ⟨h.1, hpiece, trivial⟩
  | tree :: next :: trees, h => ⟨h.1, eachOf_addLast hpiece h.2⟩

theorem eachOf_addBetween (hpiece : piece.Each p) {before : Tree} (hbefore : before.Each p)
    {after : List Tree} (hafter : EachOf p after) : EachOf p (addBetween piece before after) := by
  unfold addBetween
  split
  · exact ⟨trivial, hafter⟩
  · exact ⟨hbefore, hpiece, hafter⟩

mutual

/-- Adding a piece within a tree keeps a property of attributes that the piece has. -/
theorem each_append (parent : Nat) (hpiece : piece.Each p) :
    ∀ {tree : Tree}, tree.Each p → (append parent piece tree).Each p
  | element id name attributes children, h => by
      unfold append
      split
      · exact ⟨h.1, eachOf_addLast hpiece h.2⟩
      · exact ⟨h.1, eachOf_appendAll parent hpiece h.2⟩
  | text _, _ => trivial
  | comment _, _ => trivial

theorem eachOf_appendAll (parent : Nat) (hpiece : piece.Each p) :
    ∀ {trees : List Tree}, EachOf p trees → EachOf p (appendAll parent piece trees)
  | [], _ => trivial
  | _ :: _, h => ⟨each_append parent hpiece h.1, eachOf_appendAll parent hpiece h.2⟩

end

mutual

theorem each_insertBefore (sibling : Nat) (hpiece : piece.Each p) :
    ∀ {tree : Tree}, tree.Each p → (insertBefore sibling piece tree).Each p
  | element _ _ _ _, h => ⟨h.1, eachOf_insertBeforeAll sibling hpiece h.2⟩
  | text _, _ => trivial
  | comment _, _ => trivial

theorem eachOf_insertBeforeAll (sibling : Nat) (hpiece : piece.Each p) :
    ∀ {trees : List Tree}, EachOf p trees → EachOf p (insertBeforeAll sibling piece trees)
  | [], _ => trivial
  | tree :: trees, h => by
      unfold insertBeforeAll
      split
      · exact ⟨hpiece, h⟩
      · split
        · exact eachOf_addBetween hpiece h.1 h.2
        · exact ⟨each_insertBefore sibling hpiece h.1, eachOf_insertBeforeAll sibling hpiece h.2⟩

end

mutual

/-- Taking out a tree keeps a property of attributes. -/
theorem eachOf_remove (id : Nat) : ∀ {tree : Tree}, tree.Each p → EachOf p (tree.remove id)
  | element _ _ _ _, h => by
      unfold remove
      split
      · trivial
      · exact ⟨⟨h.1, eachOf_removeAll id h.2⟩, trivial⟩
  | text _, _ => ⟨trivial, trivial⟩
  | comment _, _ => ⟨trivial, trivial⟩

theorem eachOf_removeAll (id : Nat) :
    ∀ {trees : List Tree}, EachOf p trees → EachOf p (removeAll id trees)
  | [], _ => trivial
  | _ :: _, h => eachOf_append.2 ⟨eachOf_remove id h.1, eachOf_removeAll id h.2⟩

end

mutual

/-- A tree that has been found has the property of attributes of the whole. -/
theorem each_of_find? {id : Nat} {found : Tree} :
    ∀ {tree : Tree}, tree.Each p → tree.find? id = some found → found.Each p
  | element _ _ _ _, h, hfound => by
      unfold find? at hfound
      split at hfound
      · exact Option.some.inj hfound ▸ h
      · exact each_of_findAll? h.2 hfound
  | text _, _, hfound => by simp [find?] at hfound
  | comment _, _, hfound => by simp [find?] at hfound

theorem each_of_findAll? {id : Nat} {found : Tree} :
    ∀ {trees : List Tree}, EachOf p trees → findAll? id trees = some found → found.Each p
  | [], _, hfound => by simp [findAll?] at hfound
  | _ :: _, h, hfound => by
      unfold findAll? at hfound
      split at hfound
      · next hfirst => exact each_of_find? h.1 (hfirst.trans hfound)
      · exact each_of_findAll? h.2 hfound

end

mutual

/-- Adding missing attributes keeps a property of attributes that admits it. -/
theorem each_addMissing {id : Nat} {more : List Attribute} (hmore : ∀ {attributes : List Attribute},
      p attributes → p (attributes ++ more.filter fun a => !Attribute.has a.name attributes)) :
    ∀ {tree : Tree}, tree.Each p → (tree.addMissing id more).Each p
  | element _ _ _ _, h => by
      unfold addMissing
      split
      · exact ⟨hmore h.1, h.2⟩
      · exact ⟨h.1, eachOf_addMissingAll hmore h.2⟩
  | text _, _ => trivial
  | comment _, _ => trivial

theorem eachOf_addMissingAll {id : Nat} {more : List Attribute}
    (hmore : ∀ {attributes : List Attribute},
      p attributes → p (attributes ++ more.filter fun a => !Attribute.has a.name attributes)) :
    ∀ {trees : List Tree}, EachOf p trees → EachOf p (addMissingAll id more trees)
  | [], _ => trivial
  | _ :: _, h => ⟨each_addMissing hmore h.1, eachOf_addMissingAll hmore h.2⟩

end

mutual

/-- The content of an element has the property of attributes of the whole. -/
theorem eachOf_of_contentOf? {name : Text} : ∀ {tree : Tree} {content : List Tree},
    tree.Each p → tree.contentOf? name = some content → EachOf p content
  | element _ _ _ _, _, h, hcontent => by
      unfold contentOf? at hcontent
      split at hcontent
      · exact Option.some.inj hcontent ▸ h.2
      · split at hcontent
        · cases hcontent
        · exact eachOf_of_contentOfAll? h.2 hcontent
  | text _, _, _, hcontent => by simp [contentOf?] at hcontent
  | comment _, _, _, hcontent => by simp [contentOf?] at hcontent

theorem eachOf_of_contentOfAll? {name : Text} : ∀ {trees content : List Tree},
    EachOf p trees → contentOfAll? name trees = some content → EachOf p content
  | [], _, _, hcontent => by simp [contentOfAll?] at hcontent
  | _ :: _, _, h, hcontent => by
      unfold contentOfAll? at hcontent
      split at hcontent
      · next hfirst => exact eachOf_of_contentOf? h.1 (hfirst.trans hcontent)
      · exact eachOf_of_contentOfAll? h.2 hcontent

end

end Viewloom.Html.Tree
