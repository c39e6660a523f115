import Viewloom.Label.Names
import Viewloom.Template.Basic

/-!
# Views

A view has a label and the names derived from it, its cleaned markup, its sockets, its template and
the child views that were extracted from its page.
-/

namespace Viewloom

/-- A view with the views below it. Its markup is what is left of its source behind them. -/
structure View where
  label : Text
  names : Names
  markup : Text
  sockets : List Text
  nodes : List Template.Node
  template : Text
  children : List View
  deriving Repr

namespace View

def className (v : View) : Text := v.names.className

/-- A view without content. -/
def blank (label : Text) (names : Names) : View := ⟨label, names, [], [], [], [], []⟩

mutual

def beq : View → View → Bool
  | ⟨label, names, markup, sockets, nodes, template, children⟩,
    ⟨label', names', markup', sockets', nodes', template', children'⟩ =>
    label == label' && names == names' && markup == markup' && sockets == sockets' &&
      nodes == nodes' && template == template' && beqAll children children'

def beqAll : List View → List View → Bool
  | [], [] => true
  | v :: vs, w :: ws => beq v w && beqAll vs ws
  | _, _ => false

end

mutual

/-- Views compare equal exactly if they are equal. -/
theorem beq_iff_eq : ∀ {v w : View}, beq v w = true ↔ v = w
  | ⟨_, _, _, _, _, _, _⟩, ⟨_, _, _, _, _, _, _⟩ => by
    simp [beq, beqAll_iff_eq, and_assoc]

theorem beqAll_iff_eq : ∀ {vs ws : List View}, beqAll vs ws = true ↔ vs = ws
  | [], [] => by simp [beqAll]
  | [], _ :: _ => by simp [beqAll]
  | _ :: _, [] => by simp [beqAll]
  | v :: vs, w :: ws => by simp [beqAll, beq_iff_eq, beqAll_iff_eq]

end

instance : DecidableEq View := fun _ _ => decidable_of_iff _ beq_iff_eq

mutual

/-- A view and the views below it, each one before its children. -/
def descendants : View → List View
  | ⟨label, names, markup, sockets, nodes, template, children⟩ =>
    ⟨label, names, markup, sockets, nodes, template, children⟩ :: descendantsAll children

/-- All views of some trees, every view in front of those below it. -/
def descendantsAll : List View → List View
  | [] => []
  | v :: vs => descendants v ++ descendantsAll vs

end

mutual

/-- The number of views in a tree. -/
def count : View → Nat
  | ⟨_, _, _, _, _, _, children⟩ => 1 + countAll children

def countAll : List View → Nat
  | [] => 0
  | v :: vs => count v + countAll vs

end

mutual

/-- A view has as many descendants as it counts. -/
theorem length_descendants : ∀ v : View, (descendants v).length = count v
  | ⟨_, _, _, _, _, _, children⟩ => by
    simp [descendants, count, length_descendantsAll children, Nat.add_comm]

theorem length_descendantsAll : ∀ vs : List View, (descendantsAll vs).length = countAll vs
  | [] => rfl
  | v :: vs => by simp [descendantsAll, countAll, length_descendants v, length_descendantsAll vs]

end

end View

end Viewloom
