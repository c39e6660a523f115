import Viewloom.Proofs.Binding
import Viewloom.Proofs.Unmarked

/-!
# Properties of all elements

What holds of all elements of a page holds of them after scoping, extraction and clean-up. Authored
elements are those that do not read as something that the compiler makes up.
-/

namespace Viewloom

open Markup (Node)

namespace Markup

mutual

/-- What holds of all elements of a node. -/
def Node.All (p : Text → List Attribute → Prop) : Node → Prop
  | .element tag attributes children => p tag attributes ∧ AllOf p children
  | _ => True

def Node.AllOf (p : Text → List Attribute → Prop) : List Node → Prop
  | [] => True
  | n :: ns => n.All p ∧ AllOf p ns

end

mutual

/-- No element with a socket marker stands within another one. -/
def Node.SocketsApart : Node → Prop
  | .element _ attributes children =>
    (Attribute.has socketMarker attributes = true → (tagSocketsAll children).2 = []) ∧
      SocketsApartAll children
  | _ => True

def Node.SocketsApartAll : List Node → Prop
  | [] => True
  | n :: ns => n.SocketsApart ∧ SocketsApartAll ns

end

mutual

def Node.decidableAll (p : Text → List Attribute → Prop)
    [∀ tag attributes, Decidable (p tag attributes)] : ∀ n : Node, Decidable (n.All p)
  | .element tag attributes children =>
    have := decidableAllOf p children
    inferInstanceAs (Decidable (p tag attributes ∧ AllOf p children))
  | .text _ => .isTrue trivial
  | .comment _ => .isTrue trivial

def Node.decidableAllOf (p : Text → List Attribute → Prop)
    [∀ tag attributes, Decidable (p tag attributes)] : ∀ ns : List Node, Decidable (AllOf p ns)
  | [] => .isTrue trivial
  | n :: ns =>
    have := decidableAll p n
    have := decidableAllOf p ns
    inferInstanceAs (Decidable (n.All p ∧ AllOf p ns))

end

mutual

def Node.decidableSocketsApart : ∀ n : Node, Decidable n.SocketsApart
  | .element _ attributes children =>
    have := decidableSocketsApartAll children
    inferInstanceAs (Decidable ((Attribute.has socketMarker attributes = true →
      (tagSocketsAll children).2 = []) ∧ SocketsApartAll children))
  | .text _ => .isTrue trivial
  | .comment _ => .isTrue trivial

def Node.decidableSocketsApartAll : ∀ ns : List Node, Decidable (SocketsApartAll ns)
  | [] => .isTrue trivial
  | n :: ns =>
    have := decidableSocketsApart n
    have := decidableSocketsApartAll ns
    inferInstanceAs (Decidable (n.SocketsApart ∧ SocketsApartAll ns))

end

instance (p : Text → List Attribute → Prop) [∀ tag attributes, Decidable (p tag attributes)]
    (ns : List Node) : Decidable (Node.AllOf p ns) := Node.decidableAllOf p ns

instance (ns : List Node) : Decidable (Node.SocketsApartAll ns) := Node.decidableSocketsApartAll ns

end Markup

/-! ## Authored elements -/

/-- An element as authors write it: its attributes differ, and nothing about it reads as one of the
tags that the compiler makes up. -/
structure Authored (tag : Text) (attributes : List Attribute) : Prop where
  nodup : (attributes.map Attribute.name).Nodup
  tag_start : ¬ text "af-" <+: tag
  tag_mark : ¬ openMark <:+: tag
  label_mark : ∀ label names, Attribute.get? childMarker attributes = some label →
    Names.ofLabel label = .ok names → ¬ text "af-sock" <:+: names.elementTag

/-- Whether a text does not hold a word. -/
def lacks (word s : Text) : Bool := (Text.splitOnce word s).isNone

theorem lacks_iff {word s : Text} (h : word ≠ []) : lacks word s = true ↔ ¬ word <:+: s := by
  rw [lacks, Option.isNone_iff_eq_none, Text.splitOnce_eq_none_iff h]

/-- Whether the label of a child marker gives a tag without the text of a socket marker. -/
def hasPlainLabel (attributes : List Attribute) : Bool :=
  (Attribute.get? childMarker attributes).all fun label =>
    match Names.ofLabel label with
    | .ok names => lacks (text "af-sock") names.elementTag
    | .error _ => true

/-- A plain label gives no tag with the mark of a socket. -/
theorem hasPlainLabel_iff {attributes : List Attribute} :
    hasPlainLabel attributes = true ↔ ∀ label names,
      Attribute.get? childMarker attributes = some label → Names.ofLabel label = .ok names →
        ¬ text "af-sock" <:+: names.elementTag := by
  have hword : text "af-sock" ≠ [] := by decide
  unfold hasPlainLabel
  cases hlabel : Attribute.get? childMarker attributes with
  | none => simp
  | some label =>
      rw [Option.all_some]
      constructor
      · intro h label' names hlabel' hnames
        obtain rfl := Option.some.inj hlabel'
        rw [hnames] at h
        exact (lacks_iff hword).1 h
      · intro h
        cases hnames : Names.ofLabel label with
        | error e => rfl
        | ok names => exact (lacks_iff hword).2 (h label names rfl hnames)

/-- Whether an element is as a page may be written: no attribute is repeated, its tag is not one of
those that are given out, and its labels are plain. -/
def isAuthored (tag : Text) (attributes : List Attribute) : Bool :=
  (firstRepeated [] (attributes.map Attribute.name)).isNone && !(text "af-").isPrefixOf tag &&
    lacks openMark tag && hasPlainLabel attributes

/-- Whether an element is as a page may be written can be computed. -/
theorem isAuthored_iff {tag : Text} {attributes : List Attribute} :
    isAuthored tag attributes = true ↔ Authored tag attributes := by
  have hmark : openMark ≠ [] := by decide
  have hstart : ¬ text "af-" <+: tag ↔ (text "af-").isPrefixOf tag = false := by
    rw [← List.isPrefixOf_iff_prefix, Bool.not_eq_true]
  simp only [isAuthored, Bool.and_eq_true, Option.isNone_iff_eq_none, firstRepeated_eq_none_iff,
    Bool.not_eq_true', lacks_iff hmark, hasPlainLabel_iff]
  constructor
  · rintro ⟨⟨⟨⟨hnodup, -⟩, htag⟩, hlacks⟩, hlabel⟩
    exact ⟨hnodup, hstart.2 htag, hlacks, hlabel⟩
  · rintro ⟨hnodup, htag, hlacks, hlabel⟩
    exact ⟨⟨⟨⟨hnodup, by simp⟩, hstart.1 htag⟩, hlacks⟩, hlabel⟩

instance (tag : Text) (attributes : List Attribute) : Decidable (Authored tag attributes) :=
  decidable_of_iff (isAuthored tag attributes = true) isAuthored_iff

namespace Attribute

theorem erase_sublist (name : Text) (attributes : List Attribute) :
    (erase name attributes).Sublist attributes := by
  induction attributes with
  | nil => exact .slnil
  | cons a as ih =>
      rw [erase]
      split
      · exact List.sublist_cons_self a as
      · exact ih.cons_cons a

/-- Among different names there is no second attribute of a name. -/
theorem get?_erase_self {name : Text} {attributes : List Attribute}
    (h : (attributes.map Attribute.name).Nodup) : get? name (erase name attributes) = none := by
  induction attributes with
  | nil => rfl
  | cons a as ih =>
      simp only [List.map_cons, List.nodup_cons, List.mem_map, not_exists, not_and] at h
      by_cases ha : a.name = name
      · rw [erase, if_pos ha]
        exact get?_eq_none_iff.2 fun b hb hname => h.1 b hb (by rw [hname, ha])
      · simp [erase, get?, ha, ih h.2]

theorem map_name_set {name value : Text} {attributes : List Attribute}
    (h : has name attributes = true) :
    (set name value attributes).map Attribute.name = attributes.map Attribute.name := by
  induction attributes with
  | nil => simp [has, get?] at h
  | cons a as ih =>
      by_cases ha : a.name = name
      · simp [set, ha]
      · simp [set, ha, ih (by simpa [has, get?, ha] using h)]

end Attribute

namespace Authored

variable {tag : Text} {attributes : List Attribute}

/-- Fewer attributes are authored as well, if no other child marker comes to light. -/
theorem of_sublist (h : Authored tag attributes) {attributes' : List Attribute}
    (hsub : attributes'.Sublist attributes)
    (hchild : Attribute.get? childMarker attributes' = none) : Authored tag attributes' where
  nodup := h.nodup.sublist (hsub.map Attribute.name)
  tag_start := h.tag_start
  tag_mark := h.tag_mark
  label_mark := by simp [hchild]

/-- Scoping keeps elements as a page may be written. -/
theorem scope (h : Authored tag attributes) : Authored tag (Markup.scopeAttributes attributes) where
  nodup := by
    unfold Markup.scopeAttributes
    split
    · next value hvalue =>
      rw [Attribute.map_name_set (by simp [Attribute.has, hvalue])]
      exact h.nodup
    · exact h.nodup
  tag_start := h.tag_start
  tag_mark := h.tag_mark
  label_mark := by
    rw [Markup.get?_scopeAttributes Markup.class_ne_childMarker]
    exact h.label_mark

/-- Dropping markers keeps elements as a page may be written. -/
theorem unmarked (h : Authored tag attributes) : Authored tag (Markup.unmarked attributes) :=
  h.of_sublist List.filter_sublist (Markup.get?_unmarked_of_marker (Or.inl rfl) attributes)

/-- No second child marker is left when the first one goes. -/
theorem get?_erase_childMarker (h : Authored tag attributes) :
    Attribute.get? childMarker (Attribute.erase childMarker attributes) = none :=
  Attribute.get?_erase_self h.nodup

/-- An element without its own markers is as a page may be written. -/
theorem extracted (h : Authored tag attributes) :
    Authored tag (Attribute.erase socketMarker (Attribute.erase childMarker attributes)) := by
  refine h.of_sublist ((Attribute.erase_sublist ..).trans (Attribute.erase_sublist ..)) ?_
  rw [Attribute.get?_erase_of_ne (by decide)]
  exact h.get?_erase_childMarker

end Authored

/-! ## Elements of a forest -/

namespace Markup

variable {p q : Text → List Attribute → Prop}

theorem Node.allOf_append {ns ms : List Node} :
    Node.AllOf p (ns ++ ms) ↔ Node.AllOf p ns ∧ Node.AllOf p ms := by
  induction ns with
  | nil => simp [Node.AllOf]
  | cons n ns ih => simp [Node.AllOf, ih, and_assoc]

mutual

/-- What holds of all elements holds in every weaker form. -/
theorem Node.all_imp (h : ∀ tag attributes, p tag attributes → q tag attributes) :
    ∀ {n : Node}, n.All p → n.All q
  | .element _ _ _, hn => ⟨h _ _ hn.1, Node.allOf_imp h hn.2⟩
  | .text _, _ => trivial
  | .comment _, _ => trivial

theorem Node.allOf_imp (h : ∀ tag attributes, p tag attributes → q tag attributes) :
    ∀ {ns : List Node}, Node.AllOf p ns → Node.AllOf q ns
  | [], _ => trivial
  | _ :: _, hns => ⟨Node.all_imp h hns.1, Node.allOf_imp h hns.2⟩

end

mutual

/-- What scoping keeps at each element it keeps in a whole page. -/
theorem Node.all_scope (h : ∀ tag attributes, p tag attributes → q tag (scopeAttributes attributes))
    (css : Bool) : ∀ {n : Node}, n.All p → (n.scope css).All q
  | .element _ _ _, hn => ⟨h _ _ hn.1, Node.allOf_scopeAll h _ hn.2⟩
  | .text _, _ => trivial
  | .comment _, _ => trivial

theorem Node.allOf_scopeAll
    (h : ∀ tag attributes, p tag attributes → q tag (scopeAttributes attributes)) (css : Bool) :
    ∀ {ns : List Node}, Node.AllOf p ns → Node.AllOf q (Node.scopeAll css ns)
  | [], _ => trivial
  | _ :: _, hns => ⟨Node.all_scope h css hns.1, Node.allOf_scopeAll h css hns.2⟩

end

mutual

/-- What dropping markers keeps at each element it keeps in a whole page. -/
theorem Node.all_unmark (h : ∀ tag attributes, p tag attributes → q tag (unmarked attributes)) :
    ∀ {n : Node}, n.All p → n.unmark.All q
  | .element _ _ _, hn => ⟨h _ _ hn.1, Node.allOf_unmarkAll h hn.2⟩
  | .text _, _ => trivial
  | .comment _, _ => trivial

theorem Node.allOf_unmarkAll (h : ∀ tag attributes, p tag attributes → q tag (unmarked attributes)) :
    ∀ {ns : List Node}, Node.AllOf p ns → Node.AllOf q (Node.unmarkAll ns)
  | [], _ => trivial
  | _ :: _, hns => ⟨Node.all_unmark h hns.1, Node.allOf_unmarkAll h hns.2⟩

end

mutual

theorem Node.all_and : ∀ {n : Node}, n.All p → n.All q →
    n.All fun tag attributes => p tag attributes ∧ q tag attributes
  | .element _ _ _, hp, hq => ⟨⟨hp.1, hq.1⟩, Node.allOf_and hp.2 hq.2⟩
  | .text _, _, _ => trivial
  | .comment _, _, _ => trivial

theorem Node.allOf_and : ∀ {ns : List Node}, Node.AllOf p ns → Node.AllOf q ns →
    Node.AllOf (fun tag attributes => p tag attributes ∧ q tag attributes) ns
  | [], _, _ => trivial
  | _ :: _, hp, hq => ⟨Node.all_and hp.1 hq.1, Node.allOf_and hp.2 hq.2⟩

end

mutual

/-- What is taken out is an element of the page without its markers. -/
theorem all_of_mem_ofNode (hchild : ∀ tag attributes, p tag attributes →
      p tag (Attribute.erase socketMarker (Attribute.erase childMarker attributes))) :
    ∀ {n m : Node} {es : List Extraction}, n.All p → Extraction.ofNode n = .ok (m, es) →
      ∀ e ∈ es, Node.AllOf p [e.element.toNode]
  | .element _ _ _, _, _, hn, h, e, he => by
      rcases Extraction.ofNode_element h with ⟨_, _, _, _, _, rfl⟩ | ⟨_, _, hms, _⟩
      · simp only [List.mem_singleton] at he
        subst he
        exact ⟨⟨hchild _ _ hn.1, hn.2⟩, trivial⟩
      · exact all_of_mem_ofNodes hchild hn.2 hms e he
  | .text _, _, _, _, h, e, he => by
      obtain ⟨rfl, rfl⟩ := Extraction.ofNode_text h
      cases he
  | .comment _, _, _, _, h, e, he => by
      obtain ⟨rfl, rfl⟩ := Extraction.ofNode_comment h
      cases he

/-- What holds of all elements of a page holds in those that are taken out. -/
theorem all_of_mem_ofNodes (hchild : ∀ tag attributes, p tag attributes →
      p tag (Attribute.erase socketMarker (Attribute.erase childMarker attributes))) :
    ∀ {ns ms : List Node} {es : List Extraction}, Node.AllOf p ns →
      Extraction.ofNodes ns = .ok (ms, es) → ∀ e ∈ es, Node.AllOf p [e.element.toNode]
  | [], _, _, _, h, e, he => by
      obtain ⟨rfl, rfl⟩ := Extraction.ofNodes_nil h
      cases he
  | n :: ns, _, _, hns, h, e, he => by
      obtain ⟨_, _, _, _, hn, hms, _, rfl⟩ := Extraction.ofNodes_cons h
      rcases List.mem_append.1 he with he | he
      · exact all_of_mem_ofNode hchild hns.1 hn e he
      · exact all_of_mem_ofNodes hchild hns.2 hms e he

end

mutual

/-- What is left of a page consists of elements without a child marker and of placeholders. -/
theorem all_of_ofNode
    (hown : ∀ tag attributes, p tag attributes → Attribute.get? childMarker attributes = none →
      q tag attributes)
    (hplaceholder : ∀ tag attributes label names, p tag attributes →
      Attribute.get? childMarker attributes = some label → Names.ofLabel label = .ok names →
        q (Extraction.placeholderTag names.elementTag)
          ((Attribute.get? socketMarker attributes).map (Attribute.mk socketMarker)).toList) :
    ∀ {n m : Node} {es : List Extraction}, n.All p → Extraction.ofNode n = .ok (m, es) → m.All q
  | .element _ _ _, _, _, hn, h => by
      rcases Extraction.ofNode_element h with ⟨_, _, hlabel, hnames, rfl, _⟩ | ⟨hnone, _, hms, rfl⟩
      · exact ⟨hplaceholder _ _ _ _ hn.1 hlabel hnames, trivial⟩
      · exact ⟨hown _ _ hn.1 hnone, allOf_of_ofNodes hown hplaceholder hn.2 hms⟩
  | .text _, _, _, _, h => by
      obtain ⟨rfl, rfl⟩ := Extraction.ofNode_text h
      trivial
  | .comment _, _, _, _, h => by
      obtain ⟨rfl, rfl⟩ := Extraction.ofNode_comment h
      trivial

/-- The elements that extraction leaves are those of the page that name no child view, and
placeholders. -/
theorem allOf_of_ofNodes
    (hown : ∀ tag attributes, p tag attributes → Attribute.get? childMarker attributes = none →
      q tag attributes)
    (hplaceholder : ∀ tag attributes label names, p tag attributes →
      Attribute.get? childMarker attributes = some label → Names.ofLabel label = .ok names →
        q (Extraction.placeholderTag names.elementTag)
          ((Attribute.get? socketMarker attributes).map (Attribute.mk socketMarker)).toList) :
    ∀ {ns ms : List Node} {es : List Extraction}, Node.AllOf p ns →
      Extraction.ofNodes ns = .ok (ms, es) → Node.AllOf q ms
  | [], _, _, _, h => by
      obtain ⟨rfl, rfl⟩ := Extraction.ofNodes_nil h
      trivial
  | _ :: _, _, _, hns, h => by
      obtain ⟨_, _, _, _, hn, hms, rfl, _⟩ := Extraction.ofNodes_cons h
      exact ⟨all_of_ofNode hown hplaceholder hns.1 hn, allOf_of_ofNodes hown hplaceholder hns.2 hms⟩

end

mutual

/-- What is left behind the clean-up has neither scripts nor ignored elements. -/
theorem all_cleanUp
    (hkept : ∀ tag attributes, p tag attributes → tag ≠ Viewloom.text "script" →
      Attribute.has ignoreMarker attributes = false → Attribute.has emptyMarker attributes = false →
        q tag attributes)
    (hemptied : ∀ tag attributes, p tag attributes → tag ≠ Viewloom.text "script" →
      Attribute.has ignoreMarker attributes = false →
        q tag (Attribute.erase emptyMarker attributes)) :
    ∀ {n : Node}, n.All p → Node.AllOf q (cleanUp [n])
  | .element tag attributes children, hn => by
      rw [cleanUp_element]
      split
      · trivial
      next hdropped =>
        simp only [not_or, Bool.not_eq_true] at hdropped
        split
        · exact ⟨⟨hemptied _ _ hn.1 hdropped.2 hdropped.1, trivial⟩, trivial⟩
        next hempty =>
          exact ⟨⟨hkept _ _ hn.1 hdropped.2 hdropped.1 (by simpa using hempty),
            allOf_cleanUp hkept hemptied hn.2⟩, trivial⟩
  | .text _, _ => ⟨trivial, trivial⟩
  | .comment _, _ => ⟨trivial, trivial⟩

/-- Clean-up leaves the elements that are neither scripts nor ignored. -/
theorem allOf_cleanUp
    (hkept : ∀ tag attributes, p tag attributes → tag ≠ Viewloom.text "script" →
      Attribute.has ignoreMarker attributes = false → Attribute.has emptyMarker attributes = false →
        q tag attributes)
    (hemptied : ∀ tag attributes, p tag attributes → tag ≠ Viewloom.text "script" →
      Attribute.has ignoreMarker attributes = false →
        q tag (Attribute.erase emptyMarker attributes)) :
    ∀ {ns : List Node}, Node.AllOf p ns → Node.AllOf q (cleanUp ns)
  | [], _ => trivial
  | n :: ns, hns => by
      rw [cleanUp_cons]
      exact Node.allOf_append.2 ⟨all_cleanUp hkept hemptied hns.1, allOf_cleanUp hkept hemptied hns.2⟩

end

/-! ## Sockets apart -/

theorem Node.socketsApartAll_append {ns ms : List Node} :
    Node.SocketsApartAll (ns ++ ms) ↔ Node.SocketsApartAll ns ∧ Node.SocketsApartAll ms := by
  induction ns with
  | nil => simp [Node.SocketsApartAll]
  | cons n ns ih => simp [Node.SocketsApartAll, ih, and_assoc]

/-- Nothing carries a socket marker. -/
def Unsocketed (_tag : Text) (attributes : List Attribute) : Prop :=
  Attribute.get? socketMarker attributes = none

mutual

/-- A page without socket markers has no sockets to be told apart. -/
theorem socketsApart_of_all : ∀ {n : Node}, n.All Unsocketed →
    (Node.tagSocketsAll [n]).2 = [] ∧ n.SocketsApart
  | .element tag attributes children, hn => by
      obtain ⟨hnone, hapart⟩ := socketsApartAll_of_allOf hn.2
      refine ⟨?_, fun _ => hnone, hapart⟩
      rw [sockets_element, hnone, show Attribute.get? socketMarker attributes = none from hn.1]
      rfl
  | .text _, _ => ⟨rfl, trivial⟩
  | .comment _, _ => ⟨rfl, trivial⟩

theorem socketsApartAll_of_allOf : ∀ {ns : List Node}, Node.AllOf Unsocketed ns →
    (Node.tagSocketsAll ns).2 = [] ∧ Node.SocketsApartAll ns
  | [], _ => ⟨rfl, trivial⟩
  | n :: ns, hns => by
      obtain ⟨hn, hapart⟩ := socketsApart_of_all hns.1
      obtain ⟨hrest, haparts⟩ := socketsApartAll_of_allOf hns.2
      refine ⟨?_, hapart, haparts⟩
      rw [← List.singleton_append, tagSocketsAll_append, hn, hrest]
      rfl

end

mutual

/-- Dropping markers drops those of sockets. -/
theorem all_unsocketed_unmark : ∀ n : Node, n.unmark.All Unsocketed
  | .element _ attributes children =>
    ⟨get?_unmarked_of_marker (Or.inr rfl) attributes, allOf_unsocketed_unmarkAll children⟩
  | .text _ => trivial
  | .comment _ => trivial

theorem allOf_unsocketed_unmarkAll : ∀ ns : List Node, Node.AllOf Unsocketed (Node.unmarkAll ns)
  | [] => trivial
  | n :: ns => ⟨all_unsocketed_unmark n, allOf_unsocketed_unmarkAll ns⟩

end

/-- A cleaned page without markers has no sockets. -/
theorem allOf_unsocketed_cleanUp_unmarkAll (page : List Node) :
    Node.AllOf Unsocketed (cleanUp (Node.unmarkAll page)) := by
  refine allOf_cleanUp (fun _ _ h _ _ _ => h) (fun _ attributes h _ _ => ?_)
    (allOf_unsocketed_unmarkAll page)
  rw [Unsocketed, Attribute.get?_erase_of_ne (by decide)]
  exact h

/-- What a page without markers keeps holds no socket. -/
theorem unsocketed_cleanUp_unmarkAll (page : List Node) :
    (Node.tagSocketsAll (cleanUp (Node.unmarkAll page))).2 = [] ∧
      Node.SocketsApartAll (cleanUp (Node.unmarkAll page)) :=
  socketsApartAll_of_allOf (allOf_unsocketed_cleanUp_unmarkAll page)

end Markup

end Viewloom
