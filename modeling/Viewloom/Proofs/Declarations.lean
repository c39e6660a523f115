import Viewloom.Proofs.Emission
import Viewloom.Proofs.Script.Declared

/-!
# Names in emitted modules

The classes of the children of a view differ, and no class is called like the other names of a module.
So a module declares a name twice only if a child of its view has the class of the view itself.
-/

namespace Viewloom

namespace View

/-- No two children of a view have the same class. -/
theorem nodup_className_children {v : View} {page : List Markup.Node} (h : CompiledFrom v page) :
    (v.children.map className).Nodup := by
  cases h with
  | page h =>
      obtain ⟨-, hdistinct, -⟩ := ofPage_eq_ok h
      obtain ⟨-, -, hnames⟩ := children_ofPage h
      have hclasses := congrArg (List.map Names.className) hnames
      rw [List.map_map, List.map_map] at hclasses
      have hnodup := (Extraction.nodup_of_firstDuplicate hdistinct).2
      exact hclasses.symm ▸ hnodup
  | blank => exact List.nodup_nil

end View

namespace Module

open Script (moduleNames WritesSoundly)

variable {label source : Text} {v d : View}

/-- The names of a module that do not come from labels. -/
def fixedNames : List Text :=
  [text "React", text "createScope", text "transformProxies", Script.controllerName]

/-- The class of a view is none of the names that every module declares. -/
theorem not_mem_fixedNames {label className : Text} {names : Names} (h : Names.ofLabel label = .ok names)
    (hclass : names.className = className) : className ∉ fixedNames := by
  obtain ⟨-, hsuffix, -⟩ := Script.exists_className h
  have hother : ∀ name ∈ fixedNames, ¬ text "View" <:+ name := by decide
  exact fun hmem => hother className hmem (hclass ▸ hsuffix)

/-- The names of a module, put in another order: the fixed ones stand together. -/
theorem moduleNames_perm (d : View) :
    (moduleNames d).Perm (fixedNames ++ d.className :: d.children.map View.className) := by
  have hswap : (d.children.map View.className ++ ([text "createScope", text "transformProxies",
      Script.controllerName] ++ [d.className])).Perm
        (([text "createScope", text "transformProxies", Script.controllerName] ++ [d.className]) ++
          d.children.map View.className) := List.perm_append_comm
  exact hswap.cons (text "React")

/-- The module of a view declares its names once each, unless a child of the view has the class of the
view itself. If it is read as a module, and nothing that is written into it as it stands begins code,
then these are the names it declares. -/
theorem nodup_moduleNames_iff (h : View.compile label source = .ok v) (hd : d ∈ v.descendants) :
    ((moduleNames d).Nodup ↔ d.className ∉ d.children.map View.className) ∧
      ∀ directory t, WritesSoundly false d → Script.parse (compose d directory) = some t →
        t.declared = moduleNames d := by
  have hnamed := View.isNamed_of_mem_descendants h hd
  obtain ⟨page, hpage⟩ := View.exists_compiledFrom h hd
  refine ⟨?_, fun directory t hsound hparse => Script.declared_compose hnamed hsound directory hparse⟩
  have hclasses : ∀ c ∈ d.className :: d.children.map View.className, c ∉ fixedNames := by
    intro c hc
    rcases List.mem_cons.1 hc with rfl | hc
    · obtain ⟨label, hlabel⟩ := hnamed.names
      exact not_mem_fixedNames hlabel rfl
    · obtain ⟨child, hchild, hclass⟩ := List.mem_map.1 hc
      obtain ⟨label, hlabel⟩ := hnamed.children child hchild
      exact not_mem_fixedNames hlabel hclass
  have hfixed : fixedNames.Nodup := by decide
  rw [(moduleNames_perm d).nodup_iff, List.nodup_append, List.nodup_cons]
  constructor
  · rintro ⟨-, ⟨hown, -⟩, -⟩
    exact hown
  · intro hown
    refine ⟨hfixed, ⟨hown, View.nodup_className_children hpage⟩, ?_⟩
    rintro a ha b hb rfl
    exact hclasses a hb ha

/-- Each module of a page with a child view declares its names once. -/
theorem nodup_moduleNames_iff_bracedPage : ∃ v, View.compile (text "page") bracedPage = .ok v ∧
    ∀ d ∈ v.descendants, (moduleNames d).Nodup ∧
      ∃ t, Script.parse (compose d (text "./c/")) = some t ∧ t.declared = moduleNames d := by
  have hall : (View.compile (text "page") bracedPage).toOption.any (fun v => decide
      (∀ d ∈ v.descendants, d.className ∉ d.children.map View.className ∧ WritesSoundly true d)) =
        true := by decide +kernel
  obtain ⟨v, hv, hall⟩ := exists_of_any hall
  refine ⟨v, hv, fun d hd => ?_⟩
  obtain ⟨hown, hsound⟩ := hall d hd
  obtain ⟨t, ht, -⟩ := (Script.isScript_compose (View.isNamed_of_mem_descendants hv hd) hsound
    (text "./c/")).exists_parse
  exact ⟨(nodup_moduleNames_iff hv hd).1.2 hown, t, ht,
    (nodup_moduleNames_iff hv hd).2 _ t hsound.of_true ht⟩

/-- A view that holds a child of its own class declares that class twice. -/
example : (View.compile (text "nav") (text "<p af-el='nav'>x</p>")).toOption.any
    (fun v => !decide (moduleNames v).Nodup) = true := by decide +kernel

end Module

end Viewloom
