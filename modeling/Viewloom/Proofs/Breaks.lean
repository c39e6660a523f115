import Mathlib.Data.List.SplitBy
import Viewloom.Template.Print

/-!
# Line breaks of printed templates

A node is printed on one line or on several. Its lines are made of the same segments in the same order, so
several lines differ from one by line breaks and by the indentation behind them. The breaks stand wherever
no text stands beside the segments on both sides.
-/

namespace Viewloom.Template

/-- A segment of a printed node: what opens or closes one of the nodes in it that have children, or one
without children. -/
structure Segment where
  /-- The number of nodes around. -/
  level : Nat
  /-- Whether a text is among the nodes next to it, or next to a node around it. -/
  besideText : Bool
  shown : Text

namespace Node

/-- What stands in front of the children of a node. -/
def opening : Node → Text
  | element tag properties _ => openTag tag properties
  | component tag properties _ => openTag tag properties
  | socket name target _ content => socketHead name target content
  | _ => []

/-- What stands behind the children of a node. -/
def closing : Node → Text
  | element tag _ _ => closeTag tag
  | component tag _ _ => closeTag tag
  | socket _ target _ content => socketTail target content
  | _ => []

/-- The segments of a node around those of its children. -/
def around (level : Nat) (besideText : Bool) (n : Node) (inner : List Segment) : List Segment :=
  if n.children.isEmpty then [⟨level, besideText, n.inline⟩]
  else ⟨level, besideText, n.opening⟩ :: (inner ++ [⟨level, besideText, n.closing⟩])

mutual

/-- The segments of a node that stands beside a text or does not. -/
def segments (level : Nat) (besideText : Bool) : Node → List Segment
  | element tag properties children =>
    around level besideText (element tag properties children)
      (segmentsAll (level + 1) (besideText || children.any isText) children)
  | component tag properties children =>
    around level besideText (component tag properties children)
      (segmentsAll (level + 1) (besideText || children.any isText) children)
  | socket name target inner (.fallback nodes) =>
    around level besideText (socket name target inner (.fallback nodes))
      (segmentsAll (level + 1) (besideText || nodes.any isText) nodes)
  | socket name target inner (.nested nodes) =>
    around level besideText (socket name target inner (.nested nodes))
      (segmentsAll (level + 1) (besideText || nodes.any isText) nodes)
  | n => [⟨level, besideText, n.inline⟩]

def segmentsAll (level : Nat) (besideText : Bool) : List Node → List Segment
  | [] => []
  | n :: ns => n.segments level besideText ++ segmentsAll level besideText ns

end

end Node

namespace Segment

/-- Whether two segments in a row are not broken apart. -/
def staysWith (p q : Segment) : Bool := p.besideText || q.besideText

/-- The level of a line, which is that of its first segment. -/
def levelOf (line : List Segment) : Nat := (line.head?.map level).getD 0

/-- What a line shows, without its indentation. -/
def shownBy (line : List Segment) : Text := line.flatMap shown

/-- A line of segments, indented by the level of the first one. -/
def print (depth : Nat) (line : List Segment) : Text :=
  indented (depth + levelOf line) (shownBy line)

end Segment

open Segment (staysWith levelOf shownBy)

namespace Node

/-- The segments of a node line by line. -/
def rows (n : Node) : List (List Segment) := (n.segments 0 false).splitBy staysWith

variable {n : Node} {ns : List Node} {p q : Segment} {level depth : Nat} {besideText : Bool}

/-! ## Nodes by their children -/

mutual

/-- What a node has if its children have it is had by every node. -/
theorem of_children {P : Node → Prop} (step : ∀ n : Node, (∀ m ∈ n.children, P m) → P n) :
    ∀ n : Node, P n
  | element _ _ children => step _ (all_of_children step children)
  | component _ _ children => step _ (all_of_children step children)
  | text _ => step _ fun _ hm => absurd hm List.not_mem_nil
  | comment _ => step _ fun _ hm => absurd hm List.not_mem_nil
  | socket _ _ _ .proxied => step _ fun _ hm => absurd hm List.not_mem_nil
  | socket _ _ _ (.fallback nodes) => step _ (all_of_children step nodes)
  | socket _ _ _ (.nested nodes) => step _ (all_of_children step nodes)

/-- Nodes are reached by induction over what they hold. -/
theorem all_of_children {P : Node → Prop} (step : ∀ n : Node, (∀ m ∈ n.children, P m) → P n) :
    ∀ ns : List Node, ∀ m ∈ ns, P m
  | [] => fun _ hm => absurd hm List.not_mem_nil
  | n :: ns => List.forall_mem_cons.2 ⟨of_children step n, all_of_children step ns⟩

end

theorem inlineAll_eq_flatMap (ns : List Node) : inlineAll ns = ns.flatMap inline := by
  induction ns with
  | nil => rfl
  | cons n ns ih => rw [inlineAll, ih, List.flatMap_cons]

theorem blockAll_eq_flatMap (depth : Nat) (ns : List Node) :
    blockAll depth ns = ns.flatMap (block depth) := by
  induction ns with
  | nil => rfl
  | cons n ns ih => rw [blockAll, ih, List.flatMap_cons]

theorem segmentsAll_eq_flatMap (level : Nat) (besideText : Bool) (ns : List Node) :
    segmentsAll level besideText ns = ns.flatMap (segments level besideText) := by
  induction ns with
  | nil => rfl
  | cons n ns ih => rw [segmentsAll, ih, List.flatMap_cons]

/-- A node on one line is its opening, its content and its closing. -/
theorem inline_eq (h : n.children ≠ []) :
    n.inline = n.opening ++ n.children.flatMap inline ++ n.closing := by
  rw [← inlineAll_eq_flatMap]
  match n, h with
  | element _ _ (_ :: _), _ => rfl
  | component _ _ (_ :: _), _ => rfl
  | socket _ _ _ (.fallback (_ :: _)), _ => rfl
  | socket _ _ _ (.nested (_ :: _)), _ => rfl

/-- A node stands on lines of its own together with its children if it has some and none is a text. -/
theorem block_eq (depth : Nat) (n : Node) : n.block depth =
    if breaksLines n.children then
      enclosed (indented depth n.opening) (n.children.flatMap (block (depth + 1)))
        (indented depth n.closing)
    else [indented depth n.inline] := by
  rw [← blockAll_eq_flatMap]
  match n with
  | element _ _ _ => rw [block]; rfl
  | component _ _ _ => rw [block]; rfl
  | text _ => rfl
  | comment _ => rfl
  | socket _ _ _ .proxied => rfl
  | socket _ _ _ (.fallback _) => rw [block]; rfl
  | socket _ _ _ (.nested _) => rw [block]; rfl

/-- The segments of a node are those of its content between its own. -/
theorem segments_eq (level : Nat) (besideText : Bool) (n : Node) : n.segments level besideText =
    around level besideText n
      (n.children.flatMap (segments (level + 1) (besideText || n.children.any isText))) := by
  rw [← segmentsAll_eq_flatMap]
  match n with
  | element _ _ _ => rw [segments]; rfl
  | component _ _ _ => rw [segments]; rfl
  | text _ => rfl
  | comment _ => rfl
  | socket _ _ _ .proxied => rfl
  | socket _ _ _ (.fallback _) => rw [segments]; rfl
  | socket _ _ _ (.nested _) => rw [segments]; rfl

theorem segments_of_childless (h : n.children = []) (level : Nat) (besideText : Bool) :
    n.segments level besideText = [⟨level, besideText, n.inline⟩] := by
  rw [segments_eq, around, h]
  rfl

theorem segments_of_children (h : n.children ≠ []) (level : Nat) (besideText : Bool) :
    n.segments level besideText = ⟨level, besideText, n.opening⟩ ::
      (n.children.flatMap (segments (level + 1) (besideText || n.children.any isText)) ++
        [⟨level, besideText, n.closing⟩]) := by
  rw [segments_eq, around, if_neg (by simpa using h)]

/-! ## Segments of a node -/

/-- The segments of a node make up what is printed of it on one line. -/
theorem shownBy_segments (n : Node) : ∀ level besideText, shownBy (n.segments level besideText) =
    n.inline := by
  refine of_children (P := fun n => ∀ level besideText, shownBy (n.segments level besideText) =
    n.inline) (fun n ih level besideText => ?_) n
  by_cases h : n.children = []
  · rw [segments_of_childless h]
    exact List.append_nil _
  · have hinner : ∀ besideText, (n.children.flatMap (segments (level + 1) besideText)).flatMap
        Segment.shown = n.children.flatMap inline := fun besideText => by
      rw [List.flatMap_assoc]
      exact List.flatMap_congr fun m hm => ih m hm (level + 1) besideText
    rw [segments_of_children h, inline_eq h, shownBy, List.flatMap_cons, List.flatMap_append, hinner]
    simp

/-- A node begins with a segment on its own level. -/
theorem head?_segments (n : Node) (level : Nat) (besideText : Bool) :
    ∃ shown, (n.segments level besideText).head? = some ⟨level, besideText, shown⟩ := by
  by_cases h : n.children = []
  · exact ⟨n.inline, by rw [segments_of_childless h]; rfl⟩
  · exact ⟨n.opening, by rw [segments_of_children h]; rfl⟩

/-- A node ends with a segment on its own level. -/
theorem getLast?_segments (n : Node) (level : Nat) (besideText : Bool) :
    ∃ shown, (n.segments level besideText).getLast? = some ⟨level, besideText, shown⟩ := by
  by_cases h : n.children = []
  · exact ⟨n.inline, by rw [segments_of_childless h]; rfl⟩
  · refine ⟨n.closing, ?_⟩
    rw [segments_of_children h, ← List.cons_append, List.getLast?_append]
    rfl

theorem segments_ne_nil (n : Node) (level : Nat) (besideText : Bool) :
    n.segments level besideText ≠ [] := by
  obtain ⟨shown, hhead⟩ := head?_segments n level besideText
  rintro hnil
  rw [hnil] at hhead
  cases hhead

/-- Everything in a node beside a text is beside a text. -/
theorem besideText_of_mem_segments (n : Node) : ∀ level, ∀ p ∈ n.segments level true,
    p.besideText = true := by
  refine of_children (P := fun n => ∀ level, ∀ p ∈ n.segments level true, p.besideText = true)
    (fun n ih level p hp => ?_) n
  by_cases h : n.children = []
  · rw [segments_of_childless h] at hp
    rw [List.mem_singleton.1 hp]
  · rw [segments_of_children h] at hp
    simp only [List.mem_cons, List.mem_append, List.mem_flatMap, List.not_mem_nil, or_false,
      Bool.true_or] at hp
    rcases hp with rfl | ⟨m, hm, hp⟩ | rfl
    · rfl
    · exact ih m hm (level + 1) p hp
    · rfl

theorem besideText_head?_flatMap (ns : List Node) :
    ∀ p ∈ (ns.flatMap (segments level besideText)).head?, p.besideText = besideText := by
  intro p hp
  cases ns with
  | nil => cases hp
  | cons n ns =>
      obtain ⟨shown, hhead⟩ := head?_segments n level besideText
      rw [List.flatMap_cons, List.head?_append, hhead] at hp
      rw [← Option.some.inj hp]

theorem besideText_getLast?_flatMap (ns : List Node) :
    ∀ p ∈ (ns.flatMap (segments level besideText)).getLast?, p.besideText = besideText := by
  intro p hp
  rcases List.eq_nil_or_concat' ns with rfl | ⟨ns, n, rfl⟩
  · cases hp
  · obtain ⟨shown, hlast⟩ := getLast?_segments n level besideText
    rw [List.flatMap_append, List.flatMap_singleton, List.getLast?_append, hlast] at hp
    rw [← Option.some.inj hp]

/-! ## Lines of a node -/

/-- Nothing is broken apart in a node and its children if these are beside a text. -/
theorem isChain_of_besideText {inner : List Segment} (hne : inner ≠ [])
    (h : ∀ p ∈ inner, p.besideText = true) (first last : Segment) :
    (first :: (inner ++ [last])).IsChain fun p q => staysWith p q = true := by
  induction inner generalizing first with
  | nil => exact absurd rfl hne
  | cons p inner ih =>
      rw [List.forall_mem_cons] at h
      have hfirst : staysWith first p = true := by simp [staysWith, h.1]
      refine List.isChain_cons_cons.2 ⟨hfirst, ?_⟩
      by_cases hinner : inner = []
      · have hlast : staysWith p last = true := by simp [staysWith, h.1]
        simpa [hinner] using hlast
      · exact ih hinner h.2 p

/-- Nodes that are not beside a text are broken apart. -/
theorem splitBy_flatMap_segments (level : Nat) (ns : List Node) :
    (ns.flatMap (segments level false)).splitBy staysWith =
      ns.flatMap fun n => (n.segments level false).splitBy staysWith := by
  induction ns with
  | nil => rfl
  | cons n ns ih =>
      rw [List.flatMap_cons, List.flatMap_cons, List.splitBy_append, ih]
      intro p hp q hq
      obtain ⟨shown, hlast⟩ := getLast?_segments n level false
      rw [hlast] at hp
      rw [staysWith, ← Option.some.inj hp, besideText_head?_flatMap ns q hq]
      rfl

/-- A node that is not broken is one line. -/
theorem splitBy_segments_of_not (h : breaksLines n.children = false) (level : Nat) :
    (n.segments level false).splitBy staysWith = [n.segments level false] := by
  by_cases hchildren : n.children = []
  · rw [segments_of_childless hchildren]
    rfl
  · have htext : n.children.any isText = true := by
      simpa [breaksLines, hchildren] using h
    rw [segments_of_children hchildren, htext]
    refine List.splitBy_of_isChain (List.cons_ne_nil _ _) (isChain_of_besideText ?_ ?_ _ _)
    · obtain ⟨m, ms, hms⟩ := List.exists_cons_of_ne_nil hchildren
      rw [hms, List.flatMap_cons]
      exact List.append_ne_nil_of_left_ne_nil (segments_ne_nil m _ _) _
    · intro p hp
      obtain ⟨m, -, hp⟩ := List.mem_flatMap.1 hp
      exact besideText_of_mem_segments m (level + 1) p hp

/-- A node that is broken has its opening and its closing on lines of their own. -/
theorem splitBy_segments_of_breaksLines (h : breaksLines n.children = true) (level : Nat) :
    (n.segments level false).splitBy staysWith = [⟨level, false, n.opening⟩] ::
      ((n.children.flatMap fun m => (m.segments (level + 1) false).splitBy staysWith) ++
        [[⟨level, false, n.closing⟩]]) := by
  simp only [breaksLines, Bool.and_eq_true, Bool.not_eq_true', List.isEmpty_eq_false_iff] at h
  obtain ⟨hchildren, htext⟩ := h
  rw [segments_of_children hchildren, htext, ← List.singleton_append, List.splitBy_append,
    List.splitBy_append, Bool.or_self, splitBy_flatMap_segments]
  · rfl
  · intro p hp q hq
    rw [staysWith, besideText_getLast?_flatMap _ p hp, ← Option.some.inj hq]
    rfl
  · intro p hp q hq
    obtain ⟨m, ms, hms⟩ := List.exists_cons_of_ne_nil hchildren
    obtain ⟨shown, hhead⟩ := head?_segments m (level + 1) false
    rw [hms, List.flatMap_cons, List.append_assoc, List.head?_append, Bool.or_self, hhead] at hq
    rw [staysWith, ← Option.some.inj hp, ← Option.some.inj hq]
    rfl

/-- A line of a whole node is the node as it stands on one line. -/
theorem print_segments (depth level : Nat) (n : Node) (besideText : Bool) :
    Segment.print depth (n.segments level besideText) = indented (depth + level) n.inline := by
  obtain ⟨shown, hhead⟩ := head?_segments n level besideText
  rw [Segment.print, shownBy_segments, levelOf, hhead]
  rfl

theorem print_singleton (depth : Nat) (p : Segment) :
    Segment.print depth [p] = indented (depth + p.level) p.shown :=
  congrArg (indented (depth + p.level)) (List.append_nil p.shown)

/-- The lines of a node are printed as its block, indented by the level of each. -/
theorem map_print_splitBy (depth : Nat) (n : Node) : ∀ level,
    ((n.segments level false).splitBy staysWith).map (Segment.print depth) =
      n.block (depth + level) := by
  refine of_children (P := fun n => ∀ level,
    ((n.segments level false).splitBy staysWith).map (Segment.print depth) =
      n.block (depth + level)) (fun n ih level => ?_) n
  rw [block_eq]
  cases hbreaks : breaksLines n.children with
  | false =>
      rw [splitBy_segments_of_not hbreaks, List.map_singleton, print_segments]
      rfl
  | true =>
      have hinner : (n.children.flatMap fun m =>
          (m.segments (level + 1) false).splitBy staysWith).map (Segment.print depth) =
            n.children.flatMap (block (depth + level + 1)) := by
        rw [List.map_flatMap]
        exact List.flatMap_congr fun m hm => ih m hm (level + 1)
      rw [splitBy_segments_of_breaksLines hbreaks, List.map_cons, List.map_append, hinner,
        List.map_singleton, print_singleton, print_singleton]
      rfl

end Node

/-- How a node is laid out on lines of its segments from a depth on. A line is indented by the number of
nodes around its first segment, the lines without their indentation make up the node on one line, and a
break stands where no text is beside the segments on both sides, and nowhere else. -/
structure IsLaidOut (n : Node) (depth : Nat) (lines : List (List Segment)) : Prop where
  whole : lines.flatten = n.segments 0 false
  nonempty : ∀ line ∈ lines, line ≠ []
  printed : n.block depth = lines.map fun line =>
    List.replicate (2 * (depth + levelOf line)) ' ' ++ shownBy line
  deep : ∀ line ∈ n.block depth, List.replicate (2 * depth) ' ' <+: line
  inline : lines.flatMap shownBy = n.inline
  broken : lines.IsChain fun line next => ∃ p q, line.getLast? = some p ∧ next.head? = some q ∧
    p.besideText = false ∧ q.besideText = false
  unbroken : ∀ line ∈ lines, line.IsChain fun p q => p.besideText = true ∨ q.besideText = true

theorem indented_prefix (depth level : Nat) (line : Text) :
    List.replicate (2 * depth) ' ' <+: indented (depth + level) line := by
  rw [indented, Markup.indentation, Nat.mul_add, ← List.replicate_append_replicate, List.append_assoc]
  exact List.prefix_append _ _

/-- A node on several lines is the node on one line with breaks and indentation between segments that are
not beside a text. -/
theorem isLaidOut (n : Node) (depth : Nat) : IsLaidOut n depth n.rows where
  whole := List.flatten_splitBy _ _
  nonempty := fun _ => List.ne_nil_of_mem_splitBy
  printed := (Node.map_print_splitBy depth n 0).symm
  deep := by
    intro line hline
    rw [← Nat.add_zero depth, ← Node.map_print_splitBy depth n 0] at hline
    obtain ⟨row, -, rfl⟩ := List.mem_map.1 hline
    exact indented_prefix depth (levelOf row) (shownBy row)
  inline := by
    calc
      n.rows.flatMap shownBy = n.rows.flatten.flatMap Segment.shown := by
        rw [List.flatten_eq_flatMap, List.flatMap_assoc]
        rfl
      _ = shownBy (n.segments 0 false) := by
        rw [Node.rows, List.flatten_splitBy]
        rfl
      _ = n.inline := Node.shownBy_segments n 0 false
  broken := by
    refine (List.isChain_getLast_head_splitBy staysWith (n.segments 0 false)).imp ?_
    rintro line next ⟨hline, hnext, hstays⟩
    rw [staysWith, Bool.or_eq_false_iff] at hstays
    exact ⟨_, _, List.getLast?_eq_some_getLast hline, List.head?_eq_some_head hnext, hstays⟩
  unbroken := by
    intro line hline
    refine (List.isChain_of_mem_splitBy hline).imp fun p q hstays => ?_
    rwa [staysWith, Bool.or_eq_true] at hstays

/-- A text keeps the nodes beside it on its line, and what they contain. -/
example : ((Node.element ['p'] [] [.element ['b'] [] [.text ['x'], .element ['i'] [] [.comment []]],
    .comment []]).rows.map fun line => (levelOf line, line.length)) = [(0, 1), (1, 6), (1, 1), (0, 1)] := by
  decide

end Viewloom.Template
