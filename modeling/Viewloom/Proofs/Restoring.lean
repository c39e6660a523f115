import Mathlib.Data.List.Forall2
import Viewloom.Proofs.Locality

/-!
# Extraction undone

Extraction touches a page only at the places of its outermost marked elements. Each of them holds a
placeholder then, and putting the elements back with their markers gives the page as it was, up to the
order of attributes.

## Implementation notes

A place is a path of positions among siblings, and the same path leads to a marked element in the page
and to its placeholder in the rest, since extraction neither adds nor removes nodes. Document order is
the lexicographic order of places.
-/

namespace Viewloom

open Markup (Node)

/-! ## Attributes put back -/

namespace Attribute

variable {name value : Text} {attributes : List Attribute}

theorem set_of_get?_eq_none (h : get? name attributes = none) :
    set name value attributes = attributes ++ [⟨name, value⟩] := by
  induction attributes with
  | nil => rfl
  | cons a as ih =>
      by_cases ha : a.name = name
      · simp [get?, ha] at h
      · rw [get?, if_neg ha] at h
        rw [set, if_neg ha, ih h, List.cons_append]

/-- Dropping an attribute and adding it again changes the order at most. -/
theorem perm_erase (h : get? name attributes = some value) :
    (⟨name, value⟩ :: erase name attributes).Perm attributes := by
  induction attributes with
  | nil => cases h
  | cons a as ih =>
      by_cases ha : a.name = name
      · rw [get?, if_pos ha, Option.some.injEq] at h
        rw [erase, if_pos ha, ← ha, ← h]
      · rw [get?, if_neg ha] at h
        rw [erase, if_neg ha]
        exact (List.Perm.swap a _ _).trans ((ih h).cons a)

/-- An attribute that has been taken away is put back. -/
theorem perm_set_erase (hnames : (attributes.map Attribute.name).Nodup)
    (h : get? name attributes = some value) :
    (set name value (erase name attributes)).Perm attributes := by
  rw [set_of_get?_eq_none (get?_erase_self hnames)]
  exact (List.perm_append_singleton _ _).trans (perm_erase h)

/-- Two missing attributes may be put back one way or the other round. -/
theorem perm_set_set {name' value' : Text} (hne : name ≠ name') (h : get? name attributes = none)
    (h' : get? name' attributes = none) :
    (set name value (set name' value' attributes)).Perm
      (set name' value' (set name value attributes)) := by
  have hset : get? name (set name' value' attributes) = none := by rw [get?_set_of_ne hne.symm, h]
  have hset' : get? name' (set name value attributes) = none := by rw [get?_set_of_ne hne, h']
  rw [set_of_get?_eq_none hset, set_of_get?_eq_none h', set_of_get?_eq_none hset',
    set_of_get?_eq_none h, List.append_assoc, List.append_assoc]
  exact List.perm_append_comm.append_left attributes

/-- Setting an attribute does not depend on the order of the others. -/
theorem perm_set {attributes' : List Attribute} (h : get? name attributes = none)
    (hperm : attributes.Perm attributes') :
    (set name value attributes).Perm (set name value attributes') := by
  have h' : get? name attributes' = none :=
    get?_eq_none_iff.2 fun a ha => get?_eq_none_iff.1 h a (hperm.mem_iff.2 ha)
  rw [set_of_get?_eq_none h, set_of_get?_eq_none h']
  exact hperm.append_right _

end Attribute

namespace Markup

variable {n m new : Node} {ns ms : List Node} {place : List Nat} {places : List (List Nat)}
  {es : List Extraction}

/-! ## Places -/

def Node.children : Node → List Node
  | .element _ _ children => children
  | _ => []

/-- Whether a node carries the marker of a child view. -/
def Node.isMarked : Node → Bool
  | .element _ attributes _ => Attribute.has childMarker attributes
  | _ => false

/-- What stands at a place in a node. -/
def Node.at? : List Nat → Node → Option Node
  | [], n => some n
  | i :: place, n => n.children[i]?.bind (Node.at? place)

/-- What stands at a place in a forest. -/
def at? : List Nat → List Node → Option Node
  | [], _ => none
  | i :: place, ns => ns[i]?.bind (Node.at? place)

def Node.mapChildren (f : List Node → List Node) : Node → Node
  | .element tag attributes children => .element tag attributes (f children)
  | n => n

/-- Puts another node at a place in a node. -/
def Node.replace (new : Node) : List Nat → Node → Node
  | [], _ => new
  | i :: place, n => n.mapChildren fun ns => ns.modify i (Node.replace new place)

/-- Puts another node at a place in a forest. -/
def replace (new : Node) : List Nat → List Node → List Node
  | [], ns => ns
  | i :: place, ns => ns.modify i (Node.replace new place)

/-- The place behind one more tree. -/
def later (place : List Nat) : List Nat := place.modifyHead (· + 1)

@[simp]
theorem at?_cons_zero : at? (0 :: place) (n :: ns) = n.at? place := rfl

@[simp]
theorem at?_later : at? (later place) (n :: ns) = at? place ns := by
  cases place <;> rfl

@[simp]
theorem replace_cons_zero :
    replace new (0 :: place) (n :: ns) = Node.replace new place n :: ns := rfl

@[simp]
theorem replace_later : replace new (later place) (n :: ns) = n :: replace new place ns := by
  cases place <;> rfl

theorem Node.at?_element {tag : Text} {attributes : List Attribute} (h : place ≠ []) :
    (Node.element tag attributes ns).at? place = Markup.at? place ns := by
  cases place with
  | nil => exact absurd rfl h
  | cons i place => rfl

theorem Node.replace_element {tag : Text} {attributes : List Attribute} (h : place ≠ []) :
    Node.replace new place (.element tag attributes ns) =
      .element tag attributes (Markup.replace new place ns) := by
  cases place with
  | nil => exact absurd rfl h
  | cons i place => rfl

/-! ## Outermost marked elements -/

mutual

/-- The places of the outermost marked elements of a node, in document order. -/
def Node.markedPlaces : Node → List (List Nat)
  | .element _ attributes children =>
    if Attribute.has childMarker attributes then [[]] else markedPlacesAll children
  | _ => []

/-- The places of the outermost marked elements of a forest, in document order. -/
def Node.markedPlacesAll : List Node → List (List Nat)
  | [] => []
  | n :: ns => n.markedPlaces.map (0 :: ·) ++ (markedPlacesAll ns).map later

end

/-- Whether the node that a view of places gives at one of them is marked, but none above it. -/
def IsOutermost (view : List Nat → Option Node) (place : List Nat) : Prop :=
  (view place).any Node.isMarked = true ∧
    ∀ above, above <+: place → above ≠ place → (view above).any Node.isMarked = false

theorem later_ne_nil (h : place ≠ []) : later place ≠ [] := by
  cases place with
  | nil => exact absurd rfl h
  | cons i place => simp [later]

theorem ne_nil_of_mem_markedPlacesAll (h : place ∈ Node.markedPlacesAll ns) : place ≠ [] := by
  induction ns generalizing place with
  | nil => simp [Node.markedPlacesAll] at h
  | cons n ns ih =>
      rw [Node.markedPlacesAll, List.mem_append, List.mem_map, List.mem_map] at h
      rcases h with ⟨p, _, rfl⟩ | ⟨p, hp, rfl⟩
      · exact List.cons_ne_nil 0 p
      · exact later_ne_nil (ih hp)

theorem isOutermost_cons_zero :
    IsOutermost (at? · (n :: ns)) (0 :: place) ↔ IsOutermost (n.at? ·) place := by
  constructor
  · rintro ⟨hmarked, habove⟩
    refine ⟨hmarked, fun above hprefix hne => ?_⟩
    exact habove (0 :: above) ((List.prefix_cons_inj 0).2 hprefix) (by simpa using hne)
  · rintro ⟨hmarked, habove⟩
    refine ⟨hmarked, fun above hprefix hne => ?_⟩
    rcases List.prefix_cons_iff.1 hprefix with rfl | ⟨p, rfl, hp⟩
    · rfl
    · exact habove p hp (by simpa using hne)

/-- A place among the later nodes is outermost exactly if it is so among them. -/
theorem isOutermost_later :
    IsOutermost (at? · (n :: ns)) (later place) ↔ IsOutermost (at? · ns) place := by
  cases place with
  | nil => simp [IsOutermost, later, at?]
  | cons i place =>
      constructor
      · rintro ⟨hmarked, habove⟩
        refine ⟨by simpa using hmarked, fun above hprefix hne => ?_⟩
        rcases List.prefix_cons_iff.1 hprefix with rfl | ⟨p, rfl, hp⟩
        · rfl
        · exact habove ((i + 1) :: p) ((List.prefix_cons_inj _).2 hp) (by simpa [later] using hne)
      · rintro ⟨hmarked, habove⟩
        refine ⟨by simpa using hmarked, fun above hprefix hne => ?_⟩
        rcases List.prefix_cons_iff.1 hprefix with rfl | ⟨p, rfl, hp⟩
        · rfl
        · exact habove (i :: p) ((List.prefix_cons_inj _).2 hp) (by simpa [later] using hne)

theorem not_isOutermost_nil : ¬ IsOutermost (at? · ns) [] := fun h => by simpa [at?] using h.1

/-- A place within an element without a marker is outermost exactly if it is so in the content. -/
theorem isOutermost_element {tag : Text} {attributes : List Attribute}
    (hmarked : Attribute.has childMarker attributes = false) :
    IsOutermost ((Node.element tag attributes ns).at? ·) place ↔ IsOutermost (at? · ns) place := by
  cases place with
  | nil => simp [IsOutermost, Node.at?, at?, Node.isMarked, hmarked]
  | cons i place =>
      have hroot : ((Node.element tag attributes ns).at? []).any Node.isMarked = false := by
        simpa [Node.at?, Node.isMarked] using hmarked
      refine and_congr Iff.rfl (forall_congr' fun above => ?_)
      cases above with
      | nil => simp [hroot, at?]
      | cons j above => exact Iff.rfl

mutual

/-- The marked places are the outermost ones with a marker. -/
theorem mem_markedPlaces_iff : ∀ {n : Node} {place : List Nat},
    place ∈ n.markedPlaces ↔ IsOutermost (n.at? ·) place
  | .element tag attributes children, place => by
      cases hmarked : Attribute.has childMarker attributes with
      | true =>
          rw [Node.markedPlaces, if_pos hmarked, List.mem_singleton]
          constructor
          · rintro rfl
            exact ⟨hmarked, fun above hprefix hne => absurd (List.prefix_nil.1 hprefix) hne⟩
          · rintro ⟨_, habove⟩
            by_contra hne
            have hroot := habove [] List.nil_prefix (Ne.symm hne)
            simp [Node.at?, Node.isMarked, hmarked] at hroot
      | false =>
          rw [Node.markedPlaces, if_neg (by simp [hmarked]), isOutermost_element hmarked]
          exact mem_markedPlacesAll_iff
  | .text value, place => by
      cases place <;> simp [Node.markedPlaces, IsOutermost, Node.at?, Node.children, Node.isMarked]
  | .comment value, place => by
      cases place <;> simp [Node.markedPlaces, IsOutermost, Node.at?, Node.children, Node.isMarked]

/-- The places are those of the outermost marked elements. -/
theorem mem_markedPlacesAll_iff : ∀ {ns : List Node} {place : List Nat},
    place ∈ Node.markedPlacesAll ns ↔ IsOutermost (at? · ns) place
  | [], place => by
      cases place <;> simp [Node.markedPlacesAll, IsOutermost, at?]
  | n :: ns, place => by
      rw [Node.markedPlacesAll, List.mem_append, List.mem_map, List.mem_map]
      constructor
      · rintro (⟨p, hp, rfl⟩ | ⟨p, hp, rfl⟩)
        · exact isOutermost_cons_zero.2 (mem_markedPlaces_iff.1 hp)
        · exact isOutermost_later.2 (mem_markedPlacesAll_iff.1 hp)
      · intro h
        match place with
        | [] => exact absurd h not_isOutermost_nil
        | 0 :: p => exact .inl ⟨p, mem_markedPlaces_iff.2 (isOutermost_cons_zero.1 h), rfl⟩
        | (i + 1) :: p =>
            have hlater : IsOutermost (at? · ns) (i :: p) := isOutermost_later.1 h
            exact .inr ⟨i :: p, mem_markedPlacesAll_iff.2 hlater, rfl⟩

end

theorem later_lt_later {p q : List Nat} (h : p < q) : later p < later q := by
  cases p with
  | nil =>
      cases q with
      | nil => exact absurd h (List.not_lt_nil [])
      | cons j q => exact List.nil_lt_cons ..
  | cons i p =>
      cases q with
      | nil => exact absurd h (List.not_lt_nil _)
      | cons j q =>
          rw [List.cons_lt_cons_iff] at h
          refine List.cons_lt_cons_iff.2 (h.imp Nat.succ_lt_succ ?_)
          rintro ⟨rfl, hpq⟩
          exact ⟨rfl, hpq⟩

mutual

/-- The marked places stand in the order of the page. -/
theorem pairwise_markedPlaces : ∀ n : Node, n.markedPlaces.Pairwise (· < ·)
  | .element _ attributes children => by
      rw [Node.markedPlaces]
      split
      · exact List.pairwise_singleton ..
      · exact pairwise_markedPlacesAll children
  | .text _ => .nil
  | .comment _ => .nil

/-- They are listed in document order. -/
theorem pairwise_markedPlacesAll : ∀ ns : List Node, (Node.markedPlacesAll ns).Pairwise (· < ·)
  | [] => .nil
  | n :: ns => by
      rw [Node.markedPlacesAll, List.pairwise_append, List.pairwise_map, List.pairwise_map]
      refine ⟨(pairwise_markedPlaces n).imp fun h => List.cons_lt_cons_iff.2 (.inr ⟨rfl, h⟩),
        (pairwise_markedPlacesAll ns).imp later_lt_later, ?_⟩
      intro p hp q hq
      obtain ⟨p, _, rfl⟩ := List.mem_map.1 hp
      obtain ⟨q, hmem, rfl⟩ := List.mem_map.1 hq
      cases q with
      | nil => exact absurd rfl (ne_nil_of_mem_markedPlacesAll hmem)
      | cons j q => exact List.cons_lt_cons_iff.2 (.inl (Nat.succ_pos j))

end

/-! ## What extraction leaves at a place -/

/-- A node without its content, and the number of nodes in it. -/
def Node.shell : Node → Node × Nat
  | .element tag attributes children => (.element tag attributes [], children.length)
  | n => (n, 0)

/-- An element of the page at a place that has become an extraction, with a placeholder at its place in
the rest. The views of places give what stands at a place in the page and in the rest. -/
structure IsTaken (page rest : List Nat → Option Node) (place : List Nat) (e : Extraction)
    (attributes : List Attribute) : Prop where
  element : page place = some (.element e.element.tag attributes e.element.children)
  label : Attribute.get? childMarker attributes = some e.label
  names : Names.ofLabel e.label = .ok e.names
  unmarked : Attribute.has childMarker e.element.attributes = false ∧
    Attribute.has socketMarker e.element.attributes = false
  placeholder : rest place = some (.element (text "af-" ++ e.names.elementTag)
    ((Attribute.get? socketMarker attributes).map (Attribute.mk socketMarker)).toList [])

variable {page rest page' rest' : List Nat → Option Node} {place' : List Nat}

/-- Whether an extraction has been taken from a place. -/
def Takes (page rest : List Nat → Option Node) (place : List Nat) (e : Extraction) : Prop :=
  ∃ attributes, IsTaken page rest place e attributes

theorem Takes.of_eq {e : Extraction} (h : Takes page rest place e) (hpage : page' place' = page place)
    (hrest : rest' place' = rest place) : Takes page' rest' place' e := by
  obtain ⟨attributes, h⟩ := h
  exact ⟨attributes, { h with element := hpage.trans h.element, placeholder := hrest.trans h.placeholder }⟩

theorem Takes.ne_nil {e : Extraction} (h : Takes (at? · ns) rest place e) : place ≠ [] := by
  rintro rfl
  obtain ⟨_, h⟩ := h
  exact absurd h.element (by simp [at?])

mutual

/-- Each extraction is taken from its place, where it leaves its placeholder. -/
theorem takes_ofNode : ∀ {n m : Node} {es : List Extraction}, n.All Distinct →
    Extraction.ofNode n = .ok (m, es) → List.Forall₂ (Takes (n.at? ·) (m.at? ·)) n.markedPlaces es
  | .element tag attributes children, m, es, hnames, h => by
      rcases Extraction.ofNode_element h with
        ⟨label, names, hlabel, hofLabel, rfl, rfl⟩ | ⟨hnone, ms, hms, rfl⟩
      · have hmarked : Attribute.has childMarker attributes = true := by simp [Attribute.has, hlabel]
        rw [Node.markedPlaces, if_pos hmarked]
        refine .cons ⟨attributes, rfl, hlabel, hofLabel, ⟨?_, ?_⟩, rfl⟩ .nil
        · rw [Attribute.has, Attribute.get?_erase_of_ne (by decide),
            Attribute.get?_erase_self hnames.1]
          rfl
        · rw [Attribute.has, Attribute.get?_erase_self
            (hnames.1.sublist ((Attribute.erase_sublist ..).map Attribute.name))]
          rfl
      · have hmarked : Attribute.has childMarker attributes = false := by simp [Attribute.has, hnone]
        rw [Node.markedPlaces, if_neg (by simp [hmarked])]
        exact (takes_ofNodes hnames.2 hms).imp fun _ _ h =>
          h.of_eq (Node.at?_element h.ne_nil) (Node.at?_element h.ne_nil)
  | .text _, _, _, _, h => by
      obtain ⟨rfl, rfl⟩ := Extraction.ofNode_text h
      exact .nil
  | .comment _, _, _, _, h => by
      obtain ⟨rfl, rfl⟩ := Extraction.ofNode_comment h
      exact .nil

/-- Each outermost marked element has become the extraction of its turn. -/
theorem takes_ofNodes : ∀ {ns ms : List Node} {es : List Extraction}, Node.AllOf Distinct ns →
    Extraction.ofNodes ns = .ok (ms, es) →
      List.Forall₂ (Takes (at? · ns) (at? · ms)) (Node.markedPlacesAll ns) es
  | [], _, _, _, h => by
      obtain ⟨rfl, rfl⟩ := Extraction.ofNodes_nil h
      exact .nil
  | n :: ns, _, _, hnames, h => by
      obtain ⟨m, ms, es₁, es₂, hn, hns, rfl, rfl⟩ := Extraction.ofNodes_cons h
      rw [Node.markedPlacesAll]
      refine List.rel_append ?_ ?_
      · rw [List.forall₂_map_left_iff]
        exact (takes_ofNode hnames.1 hn).imp fun _ _ h => h.of_eq rfl rfl
      · rw [List.forall₂_map_left_iff]
        exact (takes_ofNodes hnames.2 hns).imp fun _ _ h => h.of_eq at?_later at?_later

end

/-- Whether a place lies neither at nor below one of some places. -/
def Outside (places : List (List Nat)) (place : List Nat) : Prop := ∀ p ∈ places, ¬ p <+: place

theorem outside_append {places' : List (List Nat)} :
    Outside (places ++ places') place ↔ Outside places place ∧ Outside places' place := by
  simp only [Outside, List.mem_append, or_imp, forall_and]

/-- A place outside of some others in a first node is outside of them in the whole. -/
theorem Outside.of_cons_zero (h : Outside (places.map (0 :: ·)) (0 :: place)) :
    Outside places place := fun p hp hprefix =>
  h (0 :: p) (List.mem_map_of_mem hp) ((List.prefix_cons_inj 0).2 hprefix)

theorem Outside.of_later {i : Nat} (h : Outside (places.map later) ((i + 1) :: place)) :
    Outside places (i :: place) := fun p hp hprefix => by
  refine h (later p) (List.mem_map_of_mem hp) ?_
  cases p with
  | nil => exact List.nil_prefix
  | cons j p =>
      obtain ⟨rfl, hp⟩ := List.cons_prefix_cons.1 hprefix
      exact List.cons_prefix_cons.2 ⟨rfl, hp⟩

/-- Extraction keeps the number of nodes. -/
theorem length_ofNodes {ns ms : List Node} {es : List Extraction}
    (h : Extraction.ofNodes ns = .ok (ms, es)) : ms.length = ns.length := by
  induction ns generalizing ms es with
  | nil =>
      obtain ⟨rfl, rfl⟩ := Extraction.ofNodes_nil h
      rfl
  | cons n ns ih =>
      obtain ⟨m, ms, es₁, es₂, _, hns, rfl, _⟩ := Extraction.ofNodes_cons h
      rw [List.length_cons, List.length_cons, ih hns]

mutual

/-- Outside of the marked places, what a node is apart from its content stays as it is. -/
theorem shell_ofNode : ∀ {n m : Node} {es : List Extraction} {place : List Nat},
    Extraction.ofNode n = .ok (m, es) → Outside n.markedPlaces place →
      (m.at? place).map Node.shell = (n.at? place).map Node.shell
  | .element tag attributes children, m, es, place, h, hplace => by
      rcases Extraction.ofNode_element h with ⟨label, names, hlabel, _⟩ | ⟨hnone, ms, hms, rfl⟩
      · have hmarked : Attribute.has childMarker attributes = true := by simp [Attribute.has, hlabel]
        rw [Node.markedPlaces, if_pos hmarked] at hplace
        exact absurd List.nil_prefix (hplace [] (List.mem_singleton_self []))
      · have hmarked : Attribute.has childMarker attributes = false := by simp [Attribute.has, hnone]
        rw [Node.markedPlaces, if_neg (by simp [hmarked])] at hplace
        cases place with
        | nil => simp [Node.at?, Node.shell, length_ofNodes hms]
        | cons i place => exact shell_ofNodes hms hplace
  | .text _, _, _, _, h, _ => by
      obtain ⟨rfl, rfl⟩ := Extraction.ofNode_text h
      rfl
  | .comment _, _, _, _, h, _ => by
      obtain ⟨rfl, rfl⟩ := Extraction.ofNode_comment h
      rfl

/-- Off the outermost marked elements every node stays at its place, with its attributes and with the
number of nodes in it. -/
theorem shell_ofNodes : ∀ {ns ms : List Node} {es : List Extraction} {place : List Nat},
    Extraction.ofNodes ns = .ok (ms, es) → Outside (Node.markedPlacesAll ns) place →
      (at? place ms).map Node.shell = (at? place ns).map Node.shell
  | [], _, _, _, h, _ => by
      obtain ⟨rfl, rfl⟩ := Extraction.ofNodes_nil h
      rfl
  | n :: ns, _, _, place, h, hplace => by
      obtain ⟨m, ms, es₁, es₂, hn, hns, rfl, rfl⟩ := Extraction.ofNodes_cons h
      rw [Node.markedPlacesAll, outside_append] at hplace
      match place with
      | [] => rfl
      | 0 :: place => exact shell_ofNode hn hplace.1.of_cons_zero
      | (i + 1) :: place =>
          have hrest : (at? (i :: place) ms).map Node.shell = (at? (i :: place) ns).map Node.shell :=
            shell_ofNodes hns hplace.2.of_later
          exact hrest

end

/-- No element is left that names a child view. -/
theorem allOf_unmarked_ofNodes (hnames : Node.AllOf Distinct ns)
    (h : Extraction.ofNodes ns = .ok (ms, es)) :
    Node.AllOf (fun _ attributes => Attribute.has childMarker attributes = false) ms := by
  refine allOf_of_ofNodes ?_ ?_ hnames h
  · intro _ attributes _ hnone
    rw [Attribute.has, hnone]
    rfl
  · intro _ attributes _ _ _ _ _
    have hne : socketMarker ≠ childMarker := by decide
    cases Attribute.get? socketMarker attributes <;> simp [Attribute.has, Attribute.get?, hne]

/-! ## Elements put back -/

/-- The socket that a node names. -/
def Node.socket? : Node → Option Text
  | .element _ attributes _ => Attribute.get? socketMarker attributes
  | _ => none

/-- The element of an extraction with its markers. -/
def putBack (socket : Option Text) (e : Extraction) : Node :=
  let labelled := Attribute.set childMarker e.label e.element.attributes
  let attributes :=
    match socket with
    | some name => Attribute.set socketMarker name labelled
    | none => labelled
  .element e.element.tag attributes e.element.children

/-- Puts the elements of extractions back at places in a node. -/
def Node.restore : List (List Nat) → List Extraction → Node → Node
  | place :: places, e :: es, n =>
    Node.restore places es
      (Node.replace (putBack ((n.at? place).bind Node.socket?) e) place n)
  | _, _, n => n

/-- Puts the elements of extractions back at places in a forest. -/
def restore : List (List Nat) → List Extraction → List Node → List Node
  | place :: places, e :: es, ns =>
    restore places es (replace (putBack ((at? place ns).bind Node.socket?) e) place ns)
  | _, _, ns => ns

mutual

/-- Whether two nodes are the same up to the order of attributes. -/
def Node.Alike : Node → Node → Prop
  | .element tag attributes children, .element tag' attributes' children' =>
    tag = tag' ∧ attributes.Perm attributes' ∧ AlikeAll children children'
  | .text value, .text value' => value = value'
  | .comment value, .comment value' => value = value'
  | _, _ => False

def Node.AlikeAll : List Node → List Node → Prop
  | [], [] => True
  | n :: ns, m :: ms => n.Alike m ∧ AlikeAll ns ms
  | _, _ => False

end

mutual

theorem Node.Alike.refl : ∀ n : Node, n.Alike n
  | .element _ _ children => ⟨rfl, List.Perm.refl _, Node.AlikeAll.refl children⟩
  | .text _ => rfl
  | .comment _ => rfl

theorem Node.AlikeAll.refl : ∀ ns : List Node, Node.AlikeAll ns ns
  | [] => trivial
  | n :: ns => ⟨Node.Alike.refl n, Node.AlikeAll.refl ns⟩

end

theorem restore_cons_zero (places : List (List Nat)) (es : List Extraction) (n : Node) (ns : List Node) :
    restore (places.map (0 :: ·)) es (n :: ns) = Node.restore places es n :: ns := by
  induction places generalizing es n with
  | nil => rfl
  | cons place places ih =>
      cases es with
      | nil => rfl
      | cons e es =>
          rw [List.map_cons, restore, Node.restore, at?_cons_zero, replace_cons_zero]
          exact ih es _

theorem restore_later (places : List (List Nat)) (es : List Extraction) (n : Node) (ns : List Node) :
    restore (places.map later) es (n :: ns) = n :: restore places es ns := by
  induction places generalizing es ns with
  | nil => rfl
  | cons place places ih =>
      cases es with
      | nil => rfl
      | cons e es =>
          rw [List.map_cons, restore, restore, at?_later, replace_later]
          exact ih es _

/-- Extractions can be put back in two parts. -/
theorem restore_append {places places' : List (List Nat)} {es es' : List Extraction}
    (h : places.length = es.length) (ns : List Node) :
    restore (places ++ places') (es ++ es') ns = restore places' es' (restore places es ns) := by
  induction places generalizing es ns with
  | nil =>
      obtain rfl := List.length_eq_zero_iff.1 h.symm
      rfl
  | cons place places ih =>
      cases es with
      | nil => cases h
      | cons e es => exact ih (Nat.succ.inj h) _

theorem Node.restore_element {tag : Text} {attributes : List Attribute}
    (h : ∀ place ∈ places, place ≠ []) (es : List Extraction) (ns : List Node) :
    Node.restore places es (.element tag attributes ns) =
      .element tag attributes (Markup.restore places es ns) := by
  induction places generalizing es ns with
  | nil => rfl
  | cons place places ih =>
      cases es with
      | nil => rfl
      | cons e es =>
          rw [List.forall_mem_cons] at h
          rw [Node.restore, Markup.restore, Node.at?_element h.1, Node.replace_element h.1]
          exact ih h.2 es _

/-- A placeholder has the socket of the element in whose place it stands. -/
theorem socket?_placeholder (names : Names) (attributes : List Attribute) :
    (Extraction.placeholder names attributes).socket? = Attribute.get? socketMarker attributes := by
  cases h : Attribute.get? socketMarker attributes <;>
    simp [Extraction.placeholder, Node.socket?, Attribute.get?, h]

/-- The markers of an element are put back. -/
theorem alike_putBack {tag label : Text} {attributes : List Attribute} {children : List Node}
    (hnames : Distinct tag attributes) (hlabel : Attribute.get? childMarker attributes = some label)
    (names : Names) :
    (putBack (Attribute.get? socketMarker attributes) ⟨label, names, ⟨tag,
      Attribute.erase socketMarker (Attribute.erase childMarker attributes), children⟩⟩).Alike
        (.element tag attributes children) := by
  have hne : socketMarker ≠ childMarker := by decide
  have hunlabelled : ((Attribute.erase childMarker attributes).map Attribute.name).Nodup :=
    hnames.sublist ((Attribute.erase_sublist ..).map Attribute.name)
  have hbare : Attribute.get? childMarker (Attribute.erase childMarker attributes) = none :=
    Attribute.get?_erase_self hnames
  have hlabelled := Attribute.perm_set_erase hnames hlabel
  refine ⟨rfl, ?_, Node.AlikeAll.refl children⟩
  cases hsocket : Attribute.get? socketMarker attributes with
  | none =>
      have hnone : Attribute.get? socketMarker (Attribute.erase childMarker attributes) = none := by
        rw [Attribute.get?_erase_of_ne hne.symm, hsocket]
      rw [Attribute.erase_of_get?_eq_none hnone]
      exact hlabelled
  | some name =>
      have hsome : Attribute.get? socketMarker (Attribute.erase childMarker attributes) = some name := by
        rw [Attribute.get?_erase_of_ne hne.symm, hsocket]
      have hbare' : Attribute.get? childMarker
          (Attribute.erase socketMarker (Attribute.erase childMarker attributes)) = none := by
        rw [Attribute.get?_erase_of_ne hne, hbare]
      calc
        _ = Attribute.set socketMarker name (Attribute.set childMarker label
            (Attribute.erase socketMarker (Attribute.erase childMarker attributes))) := rfl
        List.Perm _ (Attribute.set childMarker label (Attribute.set socketMarker name
            (Attribute.erase socketMarker (Attribute.erase childMarker attributes)))) :=
          Attribute.perm_set_set hne (Attribute.get?_erase_self hunlabelled) hbare'
        List.Perm _ (Attribute.set childMarker label (Attribute.erase childMarker attributes)) :=
          Attribute.perm_set (by rw [Attribute.get?_set_of_ne hne, hbare'])
            (Attribute.perm_set_erase hunlabelled hsome)
        List.Perm _ attributes := hlabelled

mutual

/-- Putting the extractions back restores a node, up to the order of attributes. -/
theorem alike_restore_ofNode : ∀ {n m : Node} {es : List Extraction}, n.All Distinct →
    Extraction.ofNode n = .ok (m, es) → (Node.restore n.markedPlaces es m).Alike n
  | .element tag attributes children, m, es, hnames, h => by
      rcases Extraction.ofNode_element h with
        ⟨label, names, hlabel, _, rfl, rfl⟩ | ⟨hnone, ms, hms, rfl⟩
      · have hmarked : Attribute.has childMarker attributes = true := by simp [Attribute.has, hlabel]
        have hsocket := socket?_placeholder names attributes
        rw [Node.markedPlaces, if_pos hmarked, Node.restore, Node.restore, Node.at?,
          Option.bind_some, hsocket]
        · exact alike_putBack hnames.1 hlabel names
        · rintro _ _ _ _ _ ⟨⟩
      · have hmarked : Attribute.has childMarker attributes = false := by simp [Attribute.has, hnone]
        rw [Node.markedPlaces, if_neg (by simp [hmarked]),
          Node.restore_element fun _ => ne_nil_of_mem_markedPlacesAll]
        exact ⟨rfl, List.Perm.refl attributes, alike_restore_ofNodes hnames.2 hms⟩
  | .text _, _, _, _, h => by
      obtain ⟨rfl, rfl⟩ := Extraction.ofNode_text h
      rfl
  | .comment _, _, _, _, h => by
      obtain ⟨rfl, rfl⟩ := Extraction.ofNode_comment h
      rfl

/-- The page comes back, up to the order of attributes. -/
theorem alike_restore_ofNodes : ∀ {ns ms : List Node} {es : List Extraction}, Node.AllOf Distinct ns →
    Extraction.ofNodes ns = .ok (ms, es) →
      Node.AlikeAll (restore (Node.markedPlacesAll ns) es ms) ns
  | [], _, _, _, h => by
      obtain ⟨rfl, rfl⟩ := Extraction.ofNodes_nil h
      trivial
  | n :: ns, _, _, hnames, h => by
      obtain ⟨m, ms, es₁, es₂, hn, hns, rfl, rfl⟩ := Extraction.ofNodes_cons h
      have hlength : (n.markedPlaces.map (0 :: ·)).length = es₁.length := by
        rw [List.length_map]
        exact (takes_ofNode hnames.1 hn).length_eq
      rw [Node.markedPlacesAll, restore_append hlength, restore_cons_zero, restore_later]
      exact ⟨alike_restore_ofNode hnames.1 hn, alike_restore_ofNodes hnames.2 hns⟩

end

/-! ## Pages -/

/-- What extraction leaves of a page and takes from it, place by place. -/
structure IsUndone (page rest : List Node) (es : List Extraction) (places : List (List Nat)) :
    Prop where
  ordered : places.Pairwise (· < ·)
  outermost : ∀ place, place ∈ places ↔ IsOutermost (at? · page) place
  taken : List.Forall₂ (Takes (at? · page) (at? · rest)) places es
  restored : Node.AlikeAll (restore places es rest) page
  outside : ∀ place, Outside places place →
    (at? place rest).map Node.shell = (at? place page).map Node.shell
  unmarked : Node.AllOf (fun _ attributes => Attribute.has childMarker attributes = false) rest

/-- Extraction is undone by putting its elements back, with their markers, at the places of the outermost
marked elements in document order. Everything else has stayed as it was. -/
theorem isUndone_ofNodes {page rest : List Node} {es : List Extraction}
    (hnames : Node.AllOf Distinct page) (h : Extraction.ofNodes page = .ok (rest, es)) :
    IsUndone page rest es (Node.markedPlacesAll page) where
  ordered := pairwise_markedPlacesAll page
  outermost := fun _ => mem_markedPlacesAll_iff
  taken := takes_ofNodes hnames h
  restored := alike_restore_ofNodes hnames h
  outside := fun _ => shell_ofNodes h
  unmarked := allOf_unmarked_ofNodes hnames h

/-- A page with a marked element in another one, and one whose socket marker is its first attribute. -/
def barPage : List Node :=
  [.element (text "div") []
    [.element (text "header") [⟨childMarker, text "top bar"⟩, ⟨text "id", text "h"⟩]
      [.element (text "a") [⟨childMarker, text "inner"⟩] [.text (text "x")]],
    .text (text "y"),
    .element (text "main") []
      [.element (text "nav")
        [⟨socketMarker, text "menu"⟩, ⟨text "class", text "c"⟩, ⟨childMarker, text "nav"⟩] []]]]

/-- A bar and the menu in it are taken out and put back. -/
theorem isUndone_ofNodes_barPage : ∃ rest es, Extraction.ofNodes barPage = .ok (rest, es) ∧
    es.map Extraction.label = [text "top bar", text "nav"] ∧
      IsUndone barPage rest es [[0, 0], [0, 2, 0]] := by
  have hlabels : (Extraction.ofNodes barPage).toOption.any (fun found => decide
      (found.2.map Extraction.label = [text "top bar", text "nav"])) = true := by decide +kernel
  have hplaces : Node.markedPlacesAll barPage = [[0, 0], [0, 2, 0]] := by decide +kernel
  obtain ⟨⟨rest, es⟩, h, hlabels⟩ := exists_of_any hlabels
  refine ⟨rest, es, h, hlabels, ?_⟩
  rw [← hplaces]
  exact isUndone_ofNodes (by decide +kernel) h

end Markup

end Viewloom
