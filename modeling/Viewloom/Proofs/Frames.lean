import Viewloom.Proofs.Html.Stability
import Viewloom.Proofs.Markers

/-!
# Frames of pages

The frame of a page is the page without its texts. It decides what is taken out of the page, what is
cleaned up and which sockets there are, and a page that is printed and read again has the same frame.
-/

namespace Viewloom

namespace Markup

mutual

/-- A node without its texts, but for those of stylesheets; the flag tells whether its text is one. -/
def Node.frame (css : Bool) : Node → List Node
  | .element tag attributes children =>
    [.element tag attributes (frameAll (tag == Viewloom.text "style") children)]
  | .text value => if css then [.text value] else []
  | .comment value => [.comment value]

def Node.frameAll (css : Bool) : List Node → List Node
  | [] => []
  | n :: ns => n.frame css ++ frameAll css ns

end

variable {ns ms : List Node}

theorem frameAll_append (css : Bool) (ns ms : List Node) :
    Node.frameAll css (ns ++ ms) = Node.frameAll css ns ++ Node.frameAll css ms := by
  induction ns with
  | nil => rfl
  | cons n ns ih => rw [List.cons_append, Node.frameAll, ih, Node.frameAll, List.append_assoc]

/-! ## What the frame decides -/

section Decides

variable {p : Text → List Attribute → Prop}

mutual

/-- The elements of a page are those of its frame. -/
theorem allOf_frame (css : Bool) : ∀ n : Node, Node.AllOf p (n.frame css) ↔ n.All p
  | .element _ _ children => by
      rw [Node.frame, Node.AllOf, Node.All, allOf_frameAll _ children, Node.All]
      exact and_iff_left trivial
  | .text _ => by
      rw [Node.frame]
      split <;> simp [Node.AllOf, Node.All]
  | .comment _ => by simp [Node.frame, Node.AllOf, Node.All]

theorem allOf_frameAll (css : Bool) :
    ∀ ns : List Node, Node.AllOf p (Node.frameAll css ns) ↔ Node.AllOf p ns
  | [] => Iff.rfl
  | n :: ns => by
      rw [Node.frameAll, Node.allOf_append, allOf_frame css n, allOf_frameAll css ns, Node.AllOf]

end

mutual

/-- The sockets of a page are those of its frame. -/
theorem sockets_frame (css : Bool) :
    ∀ n : Node, (Node.tagSocketsAll (n.frame css)).2 = (Node.tagSocketsAll [n]).2
  | .element _ _ children => by
      rw [Node.frame, sockets_element, sockets_frameAll _ children, sockets_element]
  | .text _ => by
      rw [Node.frame]
      split <;> rfl
  | .comment _ => rfl

theorem sockets_frameAll (css : Bool) :
    ∀ ns : List Node, (Node.tagSocketsAll (Node.frameAll css ns)).2 = (Node.tagSocketsAll ns).2
  | [] => rfl
  | n :: ns => by
      rw [Node.frameAll, tagSocketsAll_append, sockets_frame css n, sockets_frameAll css ns,
        ← tagSocketsAll_append, List.singleton_append]

end

theorem scopeAll_append (css : Bool) (ns ms : List Node) :
    Node.scopeAll css (ns ++ ms) = Node.scopeAll css ns ++ Node.scopeAll css ms := by
  induction ns with
  | nil => rfl
  | cons n ns ih => rw [List.cons_append, Node.scopeAll, ih, Node.scopeAll, List.cons_append]

theorem length_scopeAll (css : Bool) (ns : List Node) :
    (Node.scopeAll css ns).length = ns.length := by
  induction ns with
  | nil => rfl
  | cons n ns ih => rw [Node.scopeAll, List.length_cons, ih, List.length_cons]

mutual

/-- Whether a page is scoped shows in its frame. -/
theorem scopeAll_frame_iff (css : Bool) :
    ∀ n : Node, Node.scopeAll css (n.frame css) = n.frame css ↔ n.scope css = n
  | .element tag _ children => by
      simp [Node.frame, Node.scopeAll, Node.scope, scopeAll_frameAll_iff _ children]
  | .text _ => by
      cases css <;> simp [Node.frame, Node.scopeAll, Node.scope]
  | .comment _ => by simp [Node.frame, Node.scopeAll, Node.scope]

/-- Whether a page is scoped can be seen from its frame. -/
theorem scopeAll_frameAll_iff (css : Bool) : ∀ ns : List Node,
    Node.scopeAll css (Node.frameAll css ns) = Node.frameAll css ns ↔ Node.scopeAll css ns = ns
  | [] => Iff.rfl
  | n :: ns => by
      rw [Node.scopeAll, List.cons.injEq, ← scopeAll_frame_iff css n, ← scopeAll_frameAll_iff css ns,
        Node.frameAll, scopeAll_append]
      exact ⟨fun h => List.append_inj h (length_scopeAll ..), fun ⟨hn, hns⟩ => by rw [hn, hns]⟩

end

end Decides

/-! ## What keeps the frame -/

/-- Reading the content of an element again keeps its frame. -/
theorem frameAll_readContent (tag : Text) (ns : List Node) :
    Node.frameAll (tag == Viewloom.text "style") (Html.readContent tag ns) =
      Node.frameAll (tag == Viewloom.text "style") ns := by
  have hplain : ∀ tag ∈ escapedTags ++ breakTags, (tag == Viewloom.text "style") = false := by decide
  rw [Html.readContent]
  split
  · next htag =>
    rw [hplain tag (List.mem_append_left _ (List.contains_iff_mem.1 htag))]
    induction ns with
    | nil => rfl
    | cons n ns ih => cases n <;> simp [Html.escapeNode, Node.frameAll, Node.frame, ih]
  · split
    · next htag =>
      rw [hplain tag (List.mem_append_right _ (List.contains_iff_mem.1 htag))]
      cases ns with
      | nil => rfl
      | cons n ns =>
          cases n with
          | element | comment => rfl
          | text value =>
              rw [Html.dropBreakAll, textNodes]
              split <;> rfl
    · rfl

mutual

/-- Reading a node again keeps its frame. -/
theorem frame_reread (css : Bool) : ∀ n : Node, (Html.reread n).frame css = n.frame css
  | .element tag _ children => by
      rw [Html.reread, Node.frame, frameAll_readContent, frameAll_rereadAll _ children, Node.frame]
  | .text _ => rfl
  | .comment _ => rfl

theorem frameAll_rereadAll (css : Bool) :
    ∀ ns : List Node, Node.frameAll css (Html.rereadAll ns) = Node.frameAll css ns
  | [] => rfl
  | n :: ns => by
      rw [Html.rereadAll, Node.frameAll, frame_reread css n, frameAll_rereadAll css ns, Node.frameAll]

end

theorem frameAll_breakEach (depth : Nat) (ns : List Node) :
    Node.frameAll false (breakEach depth ns) = Node.frameAll false ns := by
  induction ns with
  | nil => rfl
  | cons n ns ih =>
      rw [breakEach_cons, Node.frameAll, Node.frameAll, ih, Node.frameAll]
      rfl

theorem frameAll_joinText (value : Text) (ns : List Node) :
    Node.frameAll false (joinText value ns) = Node.frameAll false ns := by
  cases ns with
  | nil => rfl
  | cons n ns => cases n <;> rfl

/-- Joining texts keeps the frame. -/
theorem frameAll_fuse (ns : List Node) : Node.frameAll false (fuse ns) = Node.frameAll false ns := by
  induction ns with
  | nil => rfl
  | cons n ns ih =>
      cases n with
      | text value =>
          rw [fuse, frameAll_joinText, ih]
          rfl
      | element | comment => simp [fuse, Node.frameAll, ih]

mutual

/-- Laying out a node keeps its frame. -/
theorem frameAll_laid (depth : Nat) :
    ∀ n : Node, Node.frameAll false (n.laid? depth).toList = n.frame false
  | .text value => by
      rw [Node.laid?]
      split <;> rfl
  | .comment _ => rfl
  | .element tag attributes children => by
      rw [Node.laid?]
      split
      · exact List.append_nil _
      · next hblock =>
        have hstyle : (tag == Viewloom.text "style") = false := by
          rw [beq_eq_false_iff_ne]
          rintro rfl
          exact hblock (by simp [keepsOneLine, show isRawText (Viewloom.text "style") = true by decide])
        rw [Option.toList_some, Node.frameAll, Node.frame, hstyle, frameAll_append,
          frameAll_breakEach, frameAll_laidAll (depth + 1) children, Node.frame, hstyle]
        simp [Node.frameAll, Node.frame]

theorem frameAll_laidAll (depth : Nat) :
    ∀ ns : List Node, Node.frameAll false (Node.laidAll depth ns) = Node.frameAll false ns
  | [] => rfl
  | n :: ns => by
      rw [Node.laidAll, frameAll_append, frameAll_laid depth n, frameAll_laidAll depth ns,
        Node.frameAll]

end

/-- Laying out a page keeps its frame. -/
theorem frameAll_laidOut (ns : List Node) : Node.frameAll false (laidOut ns) = Node.frameAll false ns := by
  rw [laidOut, frameAll_fuse, ← frameAll_laidAll 0 ns, ← frameAll_breakEach 0 (Node.laidAll 0 ns)]
  cases Node.laidAll 0 ns <;> rfl

/-! ## Pages without child views -/

/-- Nothing names a child view. -/
def Childless (_tag : Text) (attributes : List Attribute) : Prop :=
  Attribute.get? childMarker attributes = none

mutual

/-- A page without markers has no child markers. -/
theorem all_childless : ∀ {n : Node}, n.markers = 0 → n.All Childless
  | .element _ attributes _, h => by
      rw [Node.markers, Nat.add_eq_zero_iff, markersOf, List.countP_eq_zero] at h
      refine ⟨Attribute.get?_eq_none_iff.2 fun a ha hname => h.1 a ha ?_, allOf_childless h.2⟩
      rw [hname, beq_self_eq_true]
  | .text _, _ => trivial
  | .comment _, _ => trivial

theorem allOf_childless : ∀ {ns : List Node}, Node.markersAll ns = 0 → Node.AllOf Childless ns
  | [], _ => trivial
  | _ :: _, h => by
      rw [Node.markersAll, Nat.add_eq_zero_iff] at h
      exact ⟨all_childless h.1, allOf_childless h.2⟩

end

mutual

/-- Nothing is extracted from a page without child markers. -/
theorem ofNode_of_childless :
    ∀ {n : Node}, n.All Childless → Extraction.ofNode n = .ok (n, [])
  | .element tag attributes children, h => by
      have hnone : Attribute.get? childMarker attributes = none := h.1
      simp only [Extraction.ofNode, hnone, ofNodes_of_childless h.2]
  | .text _, _ => rfl
  | .comment _, _ => rfl

theorem ofNodes_of_childless :
    ∀ {ns : List Node}, Node.AllOf Childless ns → Extraction.ofNodes ns = .ok (ns, [])
  | [], _ => rfl
  | _ :: _, h => by
      simp only [Extraction.ofNodes, ofNode_of_childless h.1, ofNodes_of_childless h.2,
        List.append_nil]

end

/-- A page without child markers is decomposed by cleaning it up. -/
theorem decompose_of_childless (h : Node.AllOf Childless ns) : decompose ns = .ok (cleanUp ns, []) := by
  rw [decompose, ofNodes_of_childless h]

theorem class_ne_emptyMarker : Viewloom.text "class" ≠ emptyMarker := by decide

mutual

/-- Cleaning up keeps a scoped page scoped. -/
theorem scopeAll_cleanUp_singleton {css : Bool} : ∀ {n : Node}, n.scope css = n →
    Node.scopeAll css (cleanUp [n]) = cleanUp [n]
  | .element tag attributes children, h => by
      rw [Node.scope, Node.element.injEq] at h
      rw [cleanUp_element]
      split
      · rfl
      · split
        · simp [Node.scopeAll, Node.scope, scopeAttributes_erase class_ne_emptyMarker, h.2.1]
        · simp [Node.scopeAll, Node.scope, h.2.1, scopeAll_cleanUp h.2.2]
  | .text _, h => by rw [cleanUp_text, Node.scopeAll, h, Node.scopeAll]
  | .comment _, _ => rfl

/-- Clean-up leaves a scoped page scoped. -/
theorem scopeAll_cleanUp {css : Bool} : ∀ {ns : List Node}, Node.scopeAll css ns = ns →
    Node.scopeAll css (cleanUp ns) = cleanUp ns
  | [], _ => rfl
  | n :: ns, h => by
      rw [Node.scopeAll, List.cons.injEq] at h
      rw [cleanUp_cons, scopeAll_append, scopeAll_cleanUp_singleton h.1, scopeAll_cleanUp h.2]

end

mutual

/-- A clean page is not changed by the clean-up. -/
theorem cleanUp_singleton_of_cleared : ∀ {n : Node}, n.All IsCleared → cleanUp [n] = [n]
  | .element tag attributes children, h => by
      have hignore : Attribute.has ignoreMarker attributes = false := by
        rw [Attribute.has, h.1.ignore]
        rfl
      have hempty : Attribute.has emptyMarker attributes = false := by
        rw [Attribute.has, h.1.empty]
        rfl
      rw [cleanUp_element, if_neg (by simp [hignore, h.1.tag_ne]), if_neg (by simp [hempty]),
        cleanUp_of_cleared h.2]
  | .text _, _ => rfl
  | .comment _, _ => rfl

theorem cleanUp_of_cleared : ∀ {ns : List Node}, Node.AllOf IsCleared ns → cleanUp ns = ns
  | [], _ => rfl
  | n :: ns, h => by
      rw [cleanUp_cons, cleanUp_singleton_of_cleared h.1, cleanUp_of_cleared h.2,
        List.singleton_append]

end

/-- A page without child markers is left clean and scoped, and as a whole. -/
theorem remainder_of_markersAll {page : List Node} (h : Node.markersAll page = 0) :
    remainder page = cleanUp (scope page) ∧ extractions page = [] := by
  have hscoped : Node.markersAll (scope page) = 0 := by
    rw [scope, Node.markersAll_scopeAll, h]
  rw [remainder, extractions, decompose_of_childless (allOf_childless hscoped)]
  exact ⟨rfl, rfl⟩

/-- What is left of a page without child markers is scoped. -/
theorem scope_remainder {page : List Node} (h : Node.markersAll page = 0) :
    scope (remainder page) = remainder page := by
  rw [(remainder_of_markersAll h).1]
  exact scopeAll_cleanUp (scope_scope page)

/-- A page with the frame of one that has been cleaned up stays as it is. -/
theorem decompose_of_frame {rest : List Node} (hcleared : Node.AllOf IsCleared rest)
    (hscope : scope rest = rest) (hframe : Node.frameAll false ns = Node.frameAll false rest) :
    decompose (scope ns) = .ok (ns, []) := by
  have hself : scope ns = ns := by
    rw [scope, ← scopeAll_frameAll_iff, hframe, scopeAll_frameAll_iff]
    exact hscope
  have hall : Node.AllOf IsCleared ns := by
    rw [← allOf_frameAll false, hframe, allOf_frameAll]
    exact hcleared
  have hchildless : Node.AllOf Childless ns := Node.allOf_imp (fun _ _ h => h.child) hall
  rw [hself, decompose_of_childless hchildless, cleanUp_of_cleared hall]

end Markup

end Viewloom
