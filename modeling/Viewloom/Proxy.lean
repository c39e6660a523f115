import Viewloom.SortedMap

/-!
# Proxies

What a controller hands to a view: for each socket the properties it overrides and the children that
replace its content.
-/

namespace Viewloom

/-- A child of a proxy: a text, or an element whose type names the socket it feeds. -/
inductive ProxyNode where
  | text (value : Text)
  | element (socket : Text) (props : SortedMap Text) (children : Option (List ProxyNode))

/-- What one socket receives. A proxy may come without children. -/
structure Proxy where
  props : SortedMap Text
  children : Option (List ProxyNode)

/-- The proxies that a controller passes, by the names of their sockets. -/
abbrev ProxySet := SortedMap Proxy

namespace Proxy

/-- A proxy that changes nothing of what has been authored. -/
def empty : Proxy := ⟨.empty, none⟩

end Proxy

namespace ProxyNode

/-- The socket that an element feeds, and what it brings. -/
def entry? : ProxyNode → Option (Text × Proxy)
  | text _ => none
  | element socket props children => some (socket, ⟨props, children⟩)

end ProxyNode

namespace ProxySet

/-- Sorts children by the sockets they feed. Texts are dropped, and later elements win. -/
def ofChildren (children : List ProxyNode) : ProxySet :=
  SortedMap.ofList (children.filterMap ProxyNode.entry?)

/-- An empty proxy for each socket. -/
def ofSockets (sockets : List Text) : ProxySet :=
  SortedMap.ofList (sockets.map fun socket => (socket, Proxy.empty))

end ProxySet

end Viewloom
