import Viewloom.Extraction

/-!
# Sockets

An element with a socket marker is a place that a controller may fill. Its socket name is carried in
its tag until the template is bound.
-/

namespace Viewloom

/-- Stands between the tag of an element and the name of its socket. -/
def socketMark : Text := text "-af-sock-"

/-- The tag of a socket, from which both can be read again. -/
def socketTag (tag socket : Text) : Text := tag ++ socketMark ++ socket

/-- Splits a tag at its first mark into the tag of the element and the socket name. -/
def splitSocketTag (tag : Text) : Option (Text × Text) := Text.splitOnce socketMark tag

namespace Markup

mutual

/-- Moves a socket marker into the tag; gives the socket names in the order of the page. -/
def Node.tagSockets : Node → Node × List Text
  | .element tag attributes children =>
    let (children, sockets) := tagSocketsAll children
    match Attribute.get? socketMarker attributes with
    | some socket =>
      (.element (socketTag tag socket) (Attribute.erase socketMarker attributes) children,
        socket :: sockets)
    | none => (.element tag attributes children, sockets)
  | n => (n, [])

def Node.tagSocketsAll : List Node → List Node × List Text
  | [] => ([], [])
  | n :: ns =>
    let (n, sockets) := n.tagSockets
    let (ns, more) := tagSocketsAll ns
    (n :: ns, sockets ++ more)

end

/-- Moves the socket markers of a page into the tags, and gives their names in the order of the
page. -/
def tagSockets (nodes : List Node) : List Node × List Text := Node.tagSocketsAll nodes

end Markup

/-- The first text that has occurred before it. -/
def firstRepeated (seen : List Text) : List Text → Option Text
  | [] => none
  | t :: ts => if t ∈ seen then some t else firstRepeated (t :: seen) ts

/-- No text is repeated exactly if all of them differ from each other and from those seen before. -/
theorem firstRepeated_eq_none_iff {seen ts : List Text} :
    firstRepeated seen ts = none ↔ ts.Nodup ∧ ∀ t ∈ ts, t ∉ seen := by
  induction ts generalizing seen with
  | nil => simp [firstRepeated]
  | cons t ts ih =>
    by_cases h : t ∈ seen
    · simp [firstRepeated, h]
    · simp only [firstRepeated, h, if_false, ih, List.nodup_cons, List.mem_cons, not_or,
        forall_eq_or_imp, not_false_eq_true, true_and]
      constructor
      · exact fun ⟨hn, hs⟩ => ⟨⟨fun ht => (hs t ht).1 rfl, hn⟩, fun u hu => (hs u hu).2⟩
      · exact fun ⟨⟨ht, hn⟩, hs⟩ => ⟨hn, fun u hu => ⟨fun e => ht (e ▸ hu), hs u hu⟩⟩

end Viewloom
