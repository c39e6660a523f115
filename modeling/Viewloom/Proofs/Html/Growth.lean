import Mathlib.Data.List.Chain
import Viewloom.Html.Tree

/-!
# Growing trees

An element that is being read grows at its end. What is added to an element that has just been added
itself could as well have stood in it from the beginning.
-/

namespace Viewloom.Html.Tree

mutual

/-- The numbers of the elements of a tree. -/
def ids : Tree → List Nat
  | element id _ _ children => id :: idsAll children
  | _ => []

/-- The numbers of all elements, in the order of the document. -/
def idsAll : List Tree → List Nat
  | [] => []
  | tree :: trees => ids tree ++ idsAll trees

end

/-- Adds several nodes as the last children of an element. -/
def appendEach (parent : Nat) (pieces trees : List Tree) : List Tree :=
  pieces.foldl (fun trees piece => appendAll parent piece trees) trees

def isText : Tree → Bool
  | text _ => true
  | _ => false

variable {piece : Tree} {pieces trees : List Tree} {parent id : Nat}

@[simp]
theorem idsAll_append (trees more : List Tree) : idsAll (trees ++ more) = idsAll trees ++ idsAll more := by
  induction trees with
  | nil => rfl
  | cons tree trees ih => simp [idsAll, ih]

/-! ## Adding one node -/

/-- What is added last does not depend on the first trees. -/
theorem addLast_append (piece : Tree) (before : List Tree) {after : List Tree} (h : after ≠ []) :
    addLast piece (before ++ after) = before ++ addLast piece after := by
  induction before with
  | nil => rfl
  | cons tree before ih =>
      cases hrest : before ++ after with
      | nil => exact absurd (List.append_eq_nil_iff.1 hrest).2 h
      | cons next rest =>
          rw [List.cons_append, hrest, addLast, ← hrest, ih, List.cons_append]
          simp

theorem addLast_concat (piece : Tree) (trees : List Tree) (last : Tree) :
    addLast piece (trees ++ [last]) = trees ++ addLast piece [last] :=
  addLast_append piece trees (by simp)

/-- Only a text is joined to what stands before it. -/
theorem addLast_of_not_isText (h : piece.isText = false) (trees : List Tree) :
    addLast piece trees = trees ++ [piece] := by
  rcases List.eq_nil_or_concat trees with rfl | ⟨before, last, rfl⟩
  · rfl
  · rw [List.concat_eq_append, addLast_concat]
    cases piece with
    | text value => cases h
    | element id name attributes children => cases last <;> simp [addLast]
    | comment value => cases last <;> simp [addLast]

/-- Texts that are added one behind the other are one text. -/
theorem addLast_text_text (v w : Text) (trees : List Tree) :
    addLast (text w) (addLast (text v) trees) = addLast (text (v ++ w)) trees := by
  rcases List.eq_nil_or_concat trees with rfl | ⟨before, last, rfl⟩
  · rfl
  · rw [List.concat_eq_append, addLast_concat, addLast_concat]
    cases last with
    | text value => rw [addLast, addLast_concat, addLast, addLast, List.append_assoc]
    | element id name attributes children =>
        rw [addLast_append _ _ (by simp [addLast])]
        simp [addLast]
    | comment value =>
        rw [addLast_append _ _ (by simp [addLast])]
        simp [addLast]

/-- A piece that is added last brings its own numbers. -/
theorem idsAll_addLast (piece : Tree) (trees : List Tree) :
    idsAll (addLast piece trees) = idsAll trees ++ ids piece := by
  cases hpiece : piece.isText with
  | false => simp [addLast_of_not_isText hpiece, idsAll]
  | true =>
      rcases List.eq_nil_or_concat trees with rfl | ⟨before, last, rfl⟩
      · simp [addLast, idsAll]
      · rw [List.concat_eq_append, addLast_concat]
        cases piece with
        | text value => cases last <;> simp [addLast, idsAll, ids]
        | element id name attributes children => cases hpiece
        | comment value => cases hpiece

theorem appendAll_append (trees more : List Tree) :
    appendAll parent piece (trees ++ more) =
      appendAll parent piece trees ++ appendAll parent piece more := by
  induction trees with
  | nil => simp [appendAll]
  | cons tree trees ih => simp [appendAll, ih]

mutual

/-- A tree without the number of an element is not changed by adding to the element. -/
theorem append_of_not_mem (piece : Tree) : ∀ {tree : Tree}, id ∉ ids tree → append id piece tree = tree
  | element id' _ _ children, h => by
      rw [ids, List.mem_cons, not_or] at h
      rw [append, if_neg (Ne.symm h.1), appendAll_of_not_mem piece h.2]
  | text _, _ => by simp [append]
  | comment _, _ => by simp [append]

theorem appendAll_of_not_mem (piece : Tree) :
    ∀ {trees : List Tree}, id ∉ idsAll trees → appendAll id piece trees = trees
  | [], _ => by simp [appendAll]
  | _ :: _, h => by
      rw [idsAll, List.mem_append, not_or] at h
      rw [appendAll, append_of_not_mem piece h.1, appendAll_of_not_mem piece h.2]

end

mutual

/-- Texts that are added to an element one behind the other are one text. -/
theorem append_text_text (parent : Nat) (v w : Text) :
    ∀ tree : Tree, append parent (text w) (append parent (text v) tree) =
      append parent (text (v ++ w)) tree
  | element id _ _ children => by
      by_cases h : id = parent
      · simp only [append, h, if_true, addLast_text_text]
      · simp only [append, h, if_false, appendAll_text_text parent v w children]
  | text _ => by simp [append]
  | comment _ => by simp [append]

/-- Two texts that are added one after the other are one text. -/
theorem appendAll_text_text (parent : Nat) (v w : Text) :
    ∀ trees : List Tree, appendAll parent (text w) (appendAll parent (text v) trees) =
      appendAll parent (text (v ++ w)) trees
  | [] => by simp [appendAll]
  | tree :: trees => by
      simp only [appendAll, append_text_text parent v w tree, appendAll_text_text parent v w trees]

end

mutual

/-- The numbers of a grown tree are its own and those of the piece. -/
theorem mem_ids_append {i : Nat} :
    ∀ {tree : Tree}, i ∈ ids (append parent piece tree) → i ∈ ids tree ∨ i ∈ ids piece
  | element id _ _ children, h => by
      rw [append] at h
      split at h
      · rw [ids, List.mem_cons, idsAll_addLast, List.mem_append] at h
        rw [ids, List.mem_cons, or_assoc]
        exact h
      · rw [ids, List.mem_cons] at h
        rw [ids, List.mem_cons, or_assoc]
        exact h.imp (fun h => h) mem_idsAll_appendAll
  | text _, h => by simp [append, ids] at h
  | comment _, h => by simp [append, ids] at h

theorem mem_idsAll_appendAll {i : Nat} : ∀ {trees : List Tree},
    i ∈ idsAll (appendAll parent piece trees) → i ∈ idsAll trees ∨ i ∈ ids piece
  | [], h => by simp [appendAll, idsAll] at h
  | _ :: _, h => by
      rw [appendAll, idsAll, List.mem_append] at h
      rw [idsAll, List.mem_append]
      rcases h with h | h
      · exact (mem_ids_append h).imp Or.inl fun h => h
      · exact (mem_idsAll_appendAll h).imp Or.inr fun h => h

end

/-! ## Adding to what has just been added -/

section Inner

variable {name : Name} {attributes : List Attribute} {children : List Tree}

mutual

/-- Adding to a new element is adding a fuller element. -/
theorem append_inner (piece : Tree) (hne : id ≠ parent) : ∀ {tree : Tree}, id ∉ ids tree →
    append id piece (append parent (element id name attributes children) tree) =
      append parent (element id name attributes (addLast piece children)) tree
  | element id' _ _ siblings, h => by
      rw [ids, List.mem_cons, not_or] at h
      have hself : (element id name attributes children).isText = false := rfl
      have hgrown : (element id name attributes (addLast piece children)).isText = false := rfl
      by_cases hparent : id' = parent
      · simp only [append, hparent, if_true, hne.symm, if_false, addLast_of_not_isText hself,
          addLast_of_not_isText hgrown, appendAll_append, appendAll_of_not_mem piece h.2, appendAll]
      · simp only [append, hparent, if_false, Ne.symm h.1, appendAll_inner piece hne h.2]
  | text _, _ => by simp [append]
  | comment _, _ => by simp [append]

/-- What is added to a new element could as well have stood in it when it was added. -/
theorem appendAll_inner (piece : Tree) (hne : id ≠ parent) : ∀ {trees : List Tree},
    id ∉ idsAll trees →
      appendAll id piece (appendAll parent (element id name attributes children) trees) =
        appendAll parent (element id name attributes (addLast piece children)) trees
  | [], _ => by simp [appendAll]
  | _ :: _, h => by
      rw [idsAll, List.mem_append, not_or] at h
      rw [appendAll, appendAll, append_inner piece hne h.1, appendAll_inner piece hne h.2, appendAll]

end

end Inner

/-- The children of an element to which several nodes are added. -/
def addEach (pieces children : List Tree) : List Tree :=
  pieces.foldl (fun children piece => addLast piece children) children

/-- Adding several pieces to a new element is adding an element that holds them. -/
theorem appendEach_inner (pieces : List Tree) (hne : id ≠ parent) {trees : List Tree}
    (h : id ∉ idsAll trees) (name : Name) (attributes : List Attribute) (children : List Tree) :
    appendEach id pieces (appendAll parent (element id name attributes children) trees) =
      appendAll parent (element id name attributes (addEach pieces children)) trees := by
  induction pieces generalizing children with
  | nil => rfl
  | cons piece pieces ih =>
      have hstep := ih (addLast piece children)
      rw [← appendAll_inner piece hne h] at hstep
      exact hstep

/-- No text stands next to a text. -/
def IsApart (trees : List Tree) : Prop :=
  trees.IsChain fun tree next => ¬ (tree.isText = true ∧ next.isText = true)

/-- Pieces among which no two texts meet are added as they are. -/
theorem addEach_eq_append {children : List Tree} (h : IsApart (children ++ pieces)) :
    addEach pieces children = children ++ pieces := by
  induction pieces generalizing children with
  | nil => simp [addEach]
  | cons piece pieces ih =>
      have hlast : addLast piece children = children ++ [piece] := by
        cases hpiece : piece.isText with
        | false => exact addLast_of_not_isText hpiece children
        | true =>
            rcases List.eq_nil_or_concat children with rfl | ⟨before, last, rfl⟩
            · rfl
            · rw [List.concat_eq_append, List.append_assoc, List.singleton_append, IsApart,
                List.isChain_append_cons_cons] at h
              have htext : last.isText = false := by simpa [hpiece] using h.2.1
              rw [List.concat_eq_append, addLast_concat, List.append_assoc]
              cases last with
              | text value => cases htext
              | element id name attributes children => simp [addLast]
              | comment value => simp [addLast]
      have hrest : IsApart ((children ++ [piece]) ++ pieces) := by simpa using h
      rw [addEach, List.foldl_cons, hlast, ← addEach, ih hrest]
      simp

end Viewloom.Html.Tree
