import Viewloom.Proofs.Script.Modules
import Viewloom.Proofs.Standing

/-!
# Modules of compiled views

What authored markup can do to the modules of its views: nothing, as long as tags, the names of
attributes and the keys of styles, which are written as they stand, hold what may stand there.
-/

namespace Viewloom

namespace View

mutual

/-- A view of a tree is the first one or a child of another. -/
theorem eq_or_mem_children : ∀ {v d : View}, d ∈ v.descendants →
    d = v ∨ ∃ u ∈ v.descendants, d ∈ u.children
  | ⟨_, _, _, _, _, _, children⟩, d, hd => by
    rw [descendants] at hd ⊢
    rcases List.mem_cons.1 hd with rfl | hd
    · exact .inl rfl
    · right
      rcases mem_or_mem_children hd with hmem | ⟨u, hu, hmem⟩
      · exact ⟨_, List.mem_cons_self, hmem⟩
      · exact ⟨u, List.mem_cons_of_mem _ hu, hmem⟩

/-- A view below some trees is one of them, or the child of another one below them. -/
theorem mem_or_mem_children : ∀ {vs : List View} {d : View}, d ∈ descendantsAll vs →
    d ∈ vs ∨ ∃ u ∈ descendantsAll vs, d ∈ u.children
  | [], _, hd => by cases hd
  | v :: vs, d, hd => by
    rw [descendantsAll] at hd ⊢
    rcases List.mem_append.1 hd with hd | hd
    · rcases eq_or_mem_children hd with rfl | ⟨u, hu, hmem⟩
      · exact .inl List.mem_cons_self
      · exact .inr ⟨u, List.mem_append_left _ hu, hmem⟩
    · rcases mem_or_mem_children hd with hmem | ⟨u, hu, hmem⟩
      · exact .inl (List.mem_cons_of_mem _ hmem)
      · exact .inr ⟨u, List.mem_append_right _ hu, hmem⟩

end

/-- The names of a view are those of its label. -/
theorem names_compile {label source : Text} {v : View} (h : compile label source = .ok v) :
    Names.ofLabel label = .ok v.names := by
  unfold compile at h
  split at h
  · cases h
  · next names hnames =>
    rw [hnames]
    unfold ofSource at h
    split at h
    · simp only [Except.ok.injEq] at h
      rw [← h]
      rfl
    · rw [names_ofPage h]

/-- A template is never printed as nothing. -/
theorem print_ne_nil (nodes : List Template.Node) : Template.print nodes ≠ [] := by
  have helement (tag : Text) (properties : List Template.Property) (children : List Template.Node) :
      List.intercalate ['\n'] ((Template.Node.element tag properties children).block 0) ≠ [] := by
    rw [Template.Node.block]
    split
    · rw [Script.intercalate_enclosed]
      exact List.cons_ne_nil '<' _
    · rw [List.intercalate_singleton]
      cases children <;> exact List.cons_ne_nil '<' _
  unfold Template.print
  split
  · decide
  · exact helement _ _ _
  · rw [Script.block_component]
    exact helement _ _ _
  · rw [Script.intercalate_enclosed]
    exact List.cons_ne_nil '<' _

/-- What a module returns is the printed template of its view. -/
theorem expression_of_compiledFrom {v : View} {page : List Markup.Node} (h : CompiledFrom v page) :
    Module.expression v = Template.print v.nodes := by
  cases h with
  | page h =>
      obtain ⟨-, -, -, hassemble⟩ := ofPage_eq_ok h
      obtain ⟨-, hv⟩ := assemble_eq_ok hassemble
      have htemplate : v.template = Template.print v.nodes := by rw [hv]
      rw [Module.expression, if_neg (htemplate ▸ print_ne_nil v.nodes), htemplate]
  | blank => rfl

/-- Every child view has the names of a label. -/
theorem ofLabel_children_of_compiledFrom {v child : View} {page : List Markup.Node}
    (h : CompiledFrom v page) (hchild : child ∈ v.children) :
    ∃ label, Names.ofLabel label = .ok child.names := by
  cases h with
  | page h => exact (children_ofPage h).1 _ (List.mem_map_of_mem hchild)
  | blank => cases hchild

/-- Every view of a compiled tree has the names of a label, and renders its template. -/
theorem isNamed_of_mem_descendants {label source : Text} {v d : View}
    (h : compile label source = .ok v) (hd : d ∈ v.descendants) : Script.IsNamed d := by
  obtain ⟨page, hpage⟩ := exists_compiledFrom h hd
  refine ⟨?_, fun child hchild => ofLabel_children_of_compiledFrom hpage hchild,
    expression_of_compiledFrom hpage⟩
  rcases eq_or_mem_children hd with rfl | ⟨u, hu, hmem⟩
  · exact ⟨label, names_compile h⟩
  · obtain ⟨page, hpage⟩ := exists_compiledFrom h hu
    exact ofLabel_children_of_compiledFrom hpage hmem

end View

namespace Module

open Script (WritesSoundly requirements)

variable {label source : Text} {v d : View}

/-- A page with styles, a comment, braces in its text, sockets and a child view. -/
def bracedPage : Text :=
  text "<main style='color:red;--gap:1' title='\x7bx\x7d'>\x7brequire('x')\x7d<!-- */ -->" ++
    text "<p af-el='menu' af-sock='m'>b</p><i af-sock='t'>c</i></main>"

/-- The page writes only what may stand in modules that are accepted. -/
theorem writesSoundly_bracedPage : ∃ v, View.compile (text "page") bracedPage = .ok v ∧
    ∀ d ∈ v.descendants, WritesSoundly true d := exists_of_any (by decide +kernel)

/-- A module that is accepted requires what the view itself requires and nothing else, unless a tag,
the name of an attribute or the key of a style holds a sign that begins code. -/
theorem collectRequires_compose (h : View.compile label source = .ok v) (hd : d ∈ v.descendants)
    (hsound : WritesSoundly false d) (directory : Text)
    (hcheck : check d.className (compose d directory) = .ok ()) :
    collectRequires d.className (compose d directory) = .ok (requirements d directory) := by
  have hscript := Script.isScript_compose (View.isNamed_of_mem_descendants h hd) hsound directory
  unfold Script.IsScript at hscript
  unfold check treeOf at hcheck
  unfold collectRequires treeOf
  cases hparse : Script.parse (compose d directory) with
  | none => simp [hparse] at hcheck
  | some t => simpa [hparse] using hscript

/-- Calls in texts and in values require nothing. -/
theorem collectRequires_compose_bracedPage : ∃ v, View.compile (text "page") bracedPage = .ok v ∧
    ∀ d ∈ v.descendants, collectRequires d.className (compose d (text "./c/")) =
      .ok (requirements d (text "./c/")) := by
  obtain ⟨v, hv, hsound⟩ := writesSoundly_bracedPage
  refine ⟨v, hv, fun d hd => ?_⟩
  have hscript := Script.isScript_compose (View.isNamed_of_mem_descendants hv hd) (hsound d hd)
  exact collectRequires_compose hv hd (hsound d hd).of_true _ (hscript _).check_eq

/-- A view emits a module, if all names that are written as they stand are names. -/
theorem check_compose (h : View.compile label source = .ok v) (hd : d ∈ v.descendants)
    (hsound : WritesSoundly true d) (directory : Text) :
    check d.className (compose d directory) = .ok () :=
  (Script.isScript_compose (View.isNamed_of_mem_descendants h hd) hsound directory).check_eq

/-- The modules of a page with braces in all its texts are accepted. -/
theorem check_compose_bracedPage : ∃ v, View.compile (text "page") bracedPage = .ok v ∧
    ∀ d ∈ v.descendants, check d.className (compose d (text "./c/")) = .ok () := by
  obtain ⟨v, hv, hsound⟩ := writesSoundly_bracedPage
  exact ⟨v, hv, fun d hd => check_compose hv hd (hsound d hd) _⟩

end Module

end Viewloom
