import Viewloom.Proofs.Html.Modes
import Viewloom.Proofs.Html.Repetition
import Viewloom.Proofs.Script.Nodes
import Viewloom.Proofs.Standing

/-!
# Markers and scripts

No element of a page has two attributes of a marker's name, so erasing one marker erases them all. What
a view keeps of its page has no script and no marker but those of sockets, and its template has none. Only
a tag that is cut at a mark may come out as a script.
-/

namespace Viewloom

open Markup (Node)

namespace Html

mutual

/-- What holds of the attributes of a document holds of those of its markup. -/
theorem all_toMarkup {p : List Attribute → Prop} :
    ∀ {tree : Tree}, tree.Each p → tree.toMarkup.All fun _ attributes => p attributes
  | .element _ _ _ _, h => ⟨h.1, allOf_toMarkupAll h.2⟩
  | .text _, _ => trivial
  | .comment _, _ => trivial

theorem allOf_toMarkupAll {p : List Attribute → Prop} :
    ∀ {trees : List Tree}, Tree.EachOf p trees →
      Node.AllOf (fun _ attributes => p attributes) (Tree.toMarkupAll trees)
  | [], _ => trivial
  | _ :: _, h => ⟨all_toMarkup h.1, allOf_toMarkupAll h.2⟩

end

/-- What holds of the attributes of every tag holds in the body of a page. -/
theorem allOf_parseBody {p : List Attribute → Prop} (hp : Admits p) (source : Text) :
    Node.AllOf (fun _ attributes => p attributes) (parseBody source) := by
  unfold parseBody
  split
  · next content hcontent =>
    exact allOf_toMarkupAll (Tree.eachOf_of_contentOfAll? (eachOf_parseDocument hp source) hcontent)
  · trivial

end Html

namespace Markup

/-- What scoping and extraction keep of all elements of a page holds in all pages below it. -/
theorem allOf_pages {p : Text → List Attribute → Prop}
    (hscope : ∀ tag attributes, p tag attributes → p tag (scopeAttributes attributes))
    (hchild : ∀ tag attributes, p tag attributes →
      p tag (Attribute.erase socketMarker (Attribute.erase childMarker attributes)))
    {page : List Node} (hpage : Node.AllOf p page) : ∀ q ∈ pages page, Node.AllOf p q := by
  induction page using page_induction with
  | step page ih =>
      intro q hq
      rw [pages, List.mem_cons, mem_pagesOf_iff] at hq
      rcases hq with rfl | ⟨e, he, hq⟩
      · exact hpage
      have hscoped : Node.AllOf p (scope page) := Node.allOf_scopeAll hscope false hpage
      rcases remainder_cases page with ⟨-, hnone⟩ | ⟨ms, hms, -⟩
      · simp [hnone] at he
      · exact ih e he (all_of_mem_ofNodes hchild hscoped hms e he) q hq

/-- No marker that is erased is repeated. -/
structure SingleMarkers (attributes : List Attribute) : Prop where
  socket : Attribute.Unrepeated socketMarker attributes
  empty : Attribute.Unrepeated emptyMarker attributes

theorem SingleMarkers.sublist {attributes attributes' : List Attribute}
    (h : SingleMarkers attributes) (hsub : attributes'.Sublist attributes) :
    SingleMarkers attributes' :=
  ⟨h.socket.sublist hsub, h.empty.sublist hsub⟩

/-- Scoping repeats no marker. -/
theorem SingleMarkers.scope {attributes : List Attribute} (h : SingleMarkers attributes) :
    SingleMarkers (scopeAttributes attributes) :=
  ⟨h.socket.scope, h.empty.scope⟩

/-- The parser repeats no marker. -/
theorem admits_singleMarkers : Html.Admits SingleMarkers := by
  have hsocket := Html.admits_unrepeated socketMarker (by decide)
  have hempty := Html.admits_unrepeated emptyMarker (by decide)
  exact
    { nil := ⟨hsocket.nil, hempty.nil⟩
      cons := fun a _ h => ⟨hsocket.cons a h.socket, hempty.cons a h.empty⟩
      missing := fun h hmore =>
        ⟨hsocket.missing h.socket hmore.socket, hempty.missing h.empty hmore.empty⟩
      foreign := fun space _ h => ⟨hsocket.foreign space h.socket, hempty.foreign space h.empty⟩ }

/-- No element of the pages of a source carries a marker twice. -/
theorem singleMarkers_pages (source : Text) : ∀ page ∈ pages (View.sourcePage source),
    Node.AllOf (fun _ attributes => SingleMarkers attributes) page := by
  refine allOf_pages (fun _ _ h => h.scope) (fun _ _ h => h.sublist ?_) ?_
  · unfold View.sourcePage
    split
    · trivial
    · exact Html.allOf_parseBody admits_singleMarkers source
  · exact (Attribute.erase_sublist ..).trans (Attribute.erase_sublist ..)

/-- An element that is no script and has no marker but one of a socket. -/
structure IsCleared (tag : Text) (attributes : List Attribute) : Prop where
  tag_ne : tag ≠ text "script"
  child : Attribute.get? childMarker attributes = none
  ignore : Attribute.get? ignoreMarker attributes = none
  empty : Attribute.get? emptyMarker attributes = none
  socket : Attribute.Unrepeated socketMarker attributes

/-- The names that mark elements for the compiler. -/
def markerNames : List Text := [childMarker, socketMarker, ignoreMarker, emptyMarker]

/-- Without its socket marker a cleared element has no marker at all. -/
theorem IsCleared.get?_erase {tag : Text} {attributes : List Attribute}
    (h : IsCleared tag attributes) :
    ∀ name ∈ markerNames, Attribute.get? name (Attribute.erase socketMarker attributes) = none := by
  simp only [markerNames, List.mem_cons, List.not_mem_nil, or_false, forall_eq_or_imp, forall_eq]
  refine ⟨?_, h.socket.get?_erase, ?_, ?_⟩
  · rw [Attribute.get?_erase_of_ne (by decide)]
    exact h.child
  · rw [Attribute.get?_erase_of_ne (by decide)]
    exact h.ignore
  · rw [Attribute.get?_erase_of_ne (by decide)]
    exact h.empty

/-- What a view keeps of its page is cleared. -/
theorem allOf_remainder {page : List Node}
    (h : Node.AllOf (fun _ attributes => SingleMarkers attributes) page) :
    Node.AllOf IsCleared (remainder page) := by
  rcases remainder_cases page with ⟨hnil, -⟩ | ⟨ms, hms, hrest⟩
  · rw [hnil]
    trivial
  have hscoped := Node.allOf_scopeAll (fun _ _ h => h.scope) false h
  have hextracted : Node.AllOf (fun _ attributes =>
      SingleMarkers attributes ∧ Attribute.get? childMarker attributes = none) ms := by
    refine allOf_of_ofNodes (fun tag attributes h hnone => ⟨h, hnone⟩) ?_ hscoped hms
    intro tag attributes label names h _ _
    cases hsocket : Attribute.get? socketMarker attributes with
    | none => exact ⟨admits_singleMarkers.nil, rfl⟩
    | some socket =>
        have hne : socketMarker ≠ childMarker := by decide
        exact ⟨admits_singleMarkers.cons ⟨socketMarker, socket⟩ admits_singleMarkers.nil,
          by simp [Attribute.get?, hne]⟩
  rw [hrest]
  refine allOf_cleanUp ?_ ?_ hextracted
  · rintro tag attributes ⟨hsingle, hchild⟩ htag hignore hempty
    simp only [Attribute.has, Option.isSome_eq_false_iff, Option.isNone_iff_eq_none] at hignore hempty
    exact ⟨htag, hchild, hignore, hempty, hsingle.socket⟩
  · rintro tag attributes ⟨hsingle, hchild⟩ htag hignore
    simp only [Attribute.has, Option.isSome_eq_false_iff, Option.isNone_iff_eq_none] at hignore
    have hsocket := hsingle.socket.sublist (Attribute.erase_sublist emptyMarker attributes)
    refine ⟨htag, ?_, ?_, hsingle.empty.get?_erase, hsocket⟩
    · rwa [Attribute.get?_erase_of_ne (by decide)]
    · rwa [Attribute.get?_erase_of_ne (by decide)]

end Markup

/-! ## Templates -/

namespace Markup

mutual

/-- What holds of the elements that conversion keeps, which do not stand in content that becomes a
property. -/
def Node.Converted (p : Text → List Attribute → List Node → Prop) : Node → Prop
  | .element tag attributes children =>
    p tag attributes children ∧
      (Template.holdsText (Template.baseTag (Template.writtenTag tag attributes)) = false →
        ConvertedAll p children)
  | _ => True

def Node.ConvertedAll (p : Text → List Attribute → List Node → Prop) : List Node → Prop
  | [] => True
  | n :: ns => n.Converted p ∧ ConvertedAll p ns

end

variable {p : Text → List Attribute → Prop} {q r : Text → List Attribute → List Node → Prop}

mutual

/-- What is asked of converted elements may be changed where the elements allow it. -/
theorem Node.converted_congr
    (h : ∀ tag attributes children, p tag attributes →
      (q tag attributes children ↔ r tag attributes children)) :
    ∀ {n : Node}, n.All p → (n.Converted q ↔ n.Converted r)
  | .element tag attributes children, hn => by
      rw [Node.Converted, Node.Converted, h _ _ _ hn.1, Node.convertedAll_congr h hn.2]
  | .text _, _ => Iff.rfl
  | .comment _, _ => Iff.rfl

theorem Node.convertedAll_congr
    (h : ∀ tag attributes children, p tag attributes →
      (q tag attributes children ↔ r tag attributes children)) :
    ∀ {ns : List Node}, Node.AllOf p ns → (Node.ConvertedAll q ns ↔ Node.ConvertedAll r ns)
  | [], _ => Iff.rfl
  | _ :: _, hns => by
      rw [Node.ConvertedAll, Node.ConvertedAll, Node.converted_congr h hns.1,
        Node.convertedAll_congr h hns.2]

end

mutual

/-- What holds of all elements holds of those that are converted. -/
theorem Node.converted_of_all (h : ∀ tag attributes children, p tag attributes →
      q tag attributes children) : ∀ {n : Node}, n.All p → n.Converted q
  | .element _ _ _, hn => ⟨h _ _ _ hn.1, fun _ => Node.convertedAll_of_allOf h hn.2⟩
  | .text _, _ => trivial
  | .comment _, _ => trivial

theorem Node.convertedAll_of_allOf (h : ∀ tag attributes children, p tag attributes →
      q tag attributes children) : ∀ {ns : List Node}, Node.AllOf p ns → Node.ConvertedAll q ns
  | [], _ => trivial
  | _ :: _, hns => ⟨Node.converted_of_all h hns.1, Node.convertedAll_of_allOf h hns.2⟩

end

end Markup

namespace Template

variable {names : List Names}

/-- A socket opens its target and what stands in it. -/
theorem openings_socket (name : Text) (target : Target) (children : List Template.Node) :
    (Node.socket name target [] (contentOf children)).openings =
      (target.tag, target.properties) :: Node.openingsAll children := by
  unfold contentOf
  split
  · next hempty =>
    rw [List.isEmpty_iff.1 hempty]
    rfl
  · split <;> rfl

/-- A bound element opens its tag without a mark, or the controller it refers to. -/
theorem openings_make (hrefs : ∀ n ∈ names, ¬ openMark <:+: controllerRef n.className)
    (written : Text) (properties : List Property) (children : List Template.Node) :
    (Node.make names written properties children).openings =
      (resolve names (baseTag written), properties) :: Node.openingsAll children := by
  rw [make_eq hrefs]
  unfold baseTag
  cases splitSocketTag written with
  | none =>
      dsimp only
      split <;> rfl
  | some pair => exact openings_socket ..

theorem openingsAll_append (ns ms : List Template.Node) :
    Node.openingsAll (ns ++ ms) = Node.openingsAll ns ++ Node.openingsAll ms := by
  induction ns with
  | nil => rfl
  | cons n ns ih => simp [Node.openingsAll, ih]

/-- What the template makes of an element. -/
def Made (names : List Names) (P : Text → List Property → Prop) (tag : Text)
    (attributes : List Attribute) (children : List Markup.Node) : Prop :=
  P (resolve names (baseTag (writtenTag tag attributes)))
    (propertiesOf (baseTag (writtenTag tag attributes)) (Attribute.erase socketMarker attributes)
      children)

mutual

/-- What all opening tags of a template satisfy is what the elements of the page satisfy. -/
theorem forall_openings_bound_iff (hrefs : ∀ n ∈ names, ¬ openMark <:+: controllerRef n.className)
    (P : Text → List Property → Prop) :
    ∀ {m : Markup.Node}, (∀ o ∈ Node.openingsAll (bound names [m]), P o.1 o.2) ↔
      m.Converted (Made names P)
  | .element tag attributes children => by
      rw [bound_element, Node.openingsAll, openings_make hrefs, Markup.Node.Converted]
      simp only [Node.openingsAll, List.append_nil, List.mem_cons, forall_eq_or_imp]
      refine and_congr Iff.rfl ?_
      rw [← forall_openingsAll_bound_iff hrefs P]
      cases holdsText (baseTag (writtenTag tag attributes)) <;> simp [Node.openingsAll]
  | .text value => by
      rw [bound_text]
      split <;> simp [Node.openingsAll, Node.openings, Markup.Node.Converted]
  | .comment value => by
      rw [bound_comment]
      simp [Node.openingsAll, Node.openings, Markup.Node.Converted]

/-- What holds of all tags and properties of a template holds of what is made of the elements of its
page. -/
theorem forall_openingsAll_bound_iff
    (hrefs : ∀ n ∈ names, ¬ openMark <:+: controllerRef n.className)
    (P : Text → List Property → Prop) :
    ∀ {ms : List Markup.Node}, (∀ o ∈ Node.openingsAll (bound names ms), P o.1 o.2) ↔
      Markup.Node.ConvertedAll (Made names P) ms
  | [] => by simp [Node.openingsAll, Markup.Node.ConvertedAll]
  | m :: ms => by
      rw [bound_cons, openingsAll_append, Markup.Node.ConvertedAll, ← forall_openings_bound_iff hrefs P,
        ← forall_openingsAll_bound_iff hrefs P]
      simp only [List.mem_append, or_imp, forall_and]

end

/-! ### Names of properties -/

open Markup (markerNames)

/-- A property keeps the name of its attribute, or has one that is no marker. -/
theorem name_ofAttribute (tag : Text) (a : Attribute) :
    (Property.ofAttribute tag a).name = a.name ∨
      (Property.ofAttribute tag a).name ∉ markerNames := by
  have htable : ∀ entry ∈ propertyNames, entry.2 ∉ markerNames := by decide
  unfold Property.ofAttribute
  dsimp only
  split
  · exact .inr (show text "style" ∉ markerNames by decide)
  dsimp only
  unfold propertyName
  split
  · exact .inr (by decide)
  split
  · exact .inr (by decide)
  cases hlookup : propertyNames.lookup (Text.lowerAscii a.name) with
  | none => exact .inl rfl
  | some name =>
      obtain ⟨l₁, l₂, heq, -⟩ := List.lookup_eq_some_iff.1 hlookup
      exact .inr (htable (Text.lowerAscii a.name, name) (by simp [heq]))

theorem name_contentProperties {tag : Text} {children : List Markup.Node} {properties : List Property}
    (h : contentProperties tag children = some properties) :
    ∀ property ∈ properties, property.name ∉ markerNames := by
  unfold contentProperties at h
  split at h
  · cases h
    simp [show text "dangerouslySetInnerHTML" ∉ markerNames by decide]
  split at h
  · cases h
    split
    · simp
    · simp [show text "defaultValue" ∉ markerNames by decide]
  · cases h

/-- The properties of an element are named like a marker only where its attributes are. -/
theorem name_propertiesOf {tag : Text} {attributes : List Attribute}
    (h : ∀ name ∈ markerNames, Attribute.get? name attributes = none) (children : List Markup.Node) :
    ∀ property ∈ propertiesOf tag attributes children, property.name ∉ markerNames := by
  intro property hproperty
  rcases List.mem_append.1 hproperty with hproperty | hproperty
  · obtain ⟨a, ha, rfl⟩ := List.mem_map.1 hproperty
    rcases name_ofAttribute tag a with hname | hname
    · intro hmem
      exact Attribute.get?_eq_none_iff.1 (h _ hmem) a ha hname.symm
    · exact hname
  · cases hcontent : contentProperties tag children with
    | none => simp [hcontent] at hproperty
    | some more => exact name_contentProperties hcontent property (by simpa [hcontent] using hproperty)

/-! ### Tags of scripts -/

/-- Only a script is resolved to a script. -/
theorem resolve_eq_script_iff {tag : Text} :
    resolve names tag = text "script" ↔ tag = text "script" := by
  have hscript : classOf? names (text "script") = none := classOf?_eq_none (by decide)
  unfold resolve
  cases hclass : classOf? names tag with
  | none => rfl
  | some className =>
      have hdot : '.' ∈ controllerRef className := List.mem_append_right _ (by decide)
      constructor
      · intro h
        simp only [Option.map_some, Option.getD_some] at h
        rw [h] at hdot
        exact absurd hdot (by decide)
      · rintro rfl
        simp [hscript] at hclass

/-- A tag is cut to that of a script exactly if a socket mark follows. -/
theorem baseTag_eq_script_iff {tag : Text} (htag : tag ≠ text "script") (attributes : List Attribute) :
    baseTag (writtenTag tag attributes) = text "script" ↔
      text "script" ++ socketMark <+: writtenTag tag attributes := by
  have hsplit : ∀ socket, splitSocketTag (writtenTag tag attributes) = some (text "script", socket) ↔
      writtenTag tag attributes = text "script" ++ socketMark ++ socket := by
    intro socket
    rw [splitSocketTag, Text.splitOnce_eq_some_iff socketMark_ne_nil]
    exact and_iff_left (by decide)
  unfold baseTag
  constructor
  · intro h
    cases hcut : splitSocketTag (writtenTag tag attributes) with
    | some pair =>
        obtain ⟨base, socket⟩ := pair
        rw [hcut] at h
        obtain rfl : base = text "script" := h
        exact ⟨socket, ((hsplit socket).1 hcut).symm⟩
    | none =>
        rw [hcut] at h
        unfold writtenTag at h hcut
        cases hsocket : Attribute.get? socketMarker attributes with
        | none =>
            rw [hsocket] at h
            exact absurd h htag
        | some socket =>
            rw [hsocket] at hcut
            exact absurd hcut (splitSocketTag_socketTag_ne_none tag socket)
  · rintro ⟨socket, hwritten⟩
    rw [(hsplit socket).2 hwritten.symm]

end Template

namespace View

/-- What is left of markers and scripts in a view. -/
structure IsCleared (v : View) (page : List Node) : Prop where
  printed : v.markup = Markup.prettyPrint (Markup.remainder page)
  kept : Node.AllOf Markup.IsCleared (Markup.remainder page)
  properties : ∀ o ∈ Template.Node.openingsAll v.nodes, ∀ property ∈ o.2,
    property.name ∉ Markup.markerNames
  scripts_iff : (∀ o ∈ Template.Node.openingsAll v.nodes, o.1 ≠ text "script") ↔
    Node.ConvertedAll (fun tag attributes _ =>
      ¬ text "script" ++ socketMark <+: Template.writtenTag tag attributes) (Markup.remainder page)

/-- A view of a page with single markers is cleared. -/
theorem isCleared_ofPage {label : Text} {names : Names} {page : List Node} {v : View}
    (h : ofPage label names page = .ok v)
    (hpage : Node.AllOf (fun _ attributes => Markup.SingleMarkers attributes) page) :
    IsCleared v page := by
  obtain ⟨-, -, -, hassemble⟩ := ofPage_eq_ok h
  have hrefs := Template.refs_of_labels (children_ofPage h).1
  have hkept := Markup.allOf_remainder hpage
  refine ⟨by rw [(assemble_eq_ok hassemble).2], hkept, ?_, ?_⟩
  · rw [nodes_ofPage h]
    refine (Template.forall_openingsAll_bound_iff hrefs fun _ properties => ∀ property ∈ properties,
      property.name ∉ Markup.markerNames).2
        (Markup.Node.convertedAll_of_allOf (fun tag attributes children hcleared => ?_) hkept)
    exact Template.name_propertiesOf hcleared.get?_erase children
  · rw [nodes_ofPage h]
    refine (Template.forall_openingsAll_bound_iff hrefs fun tag _ => tag ≠ text "script").trans
      (Markup.Node.convertedAll_congr (fun tag attributes children hcleared => ?_) hkept)
    rw [Template.Made, ne_eq, Template.resolve_eq_script_iff,
      Template.baseTag_eq_script_iff hcleared.tag_ne]

theorem isCleared_of_compiledFrom {v : View} {page : List Node} (h : CompiledFrom v page)
    (hpage : Node.AllOf (fun _ attributes => Markup.SingleMarkers attributes) page) :
    IsCleared v page := by
  cases h with
  | page h => exact isCleared_ofPage h hpage
  | blank label names =>
      have hnone : Template.Node.openingsAll (View.blank label names).nodes = [] := rfl
      have hremainder : Markup.remainder [] = [] := rfl
      exact ⟨rfl, trivial, by simp [hnone], by simp [hnone, hremainder, Node.ConvertedAll]⟩

/-- In every view of a compiled tree the markup has neither scripts nor markers but those of sockets,
and the template has no markers. It has a script exactly if the tag of some element is cut to one. -/
theorem compile_cleared {label source : Text} {v : View} (h : compile label source = .ok v) :
    List.Forall₂ IsCleared v.descendants (Markup.pages (sourcePage source)) := by
  have hboth : List.Forall₂ (fun page d =>
      Node.AllOf (fun _ attributes => Markup.SingleMarkers attributes) page ∧ CompiledFrom d page)
      (Markup.pages (sourcePage source)) v.descendants :=
    (List.forall₂_and_left _ _).2 ⟨Markup.singleMarkers_pages source, (forall₂_compiledFrom h).flip⟩
  exact hboth.flip.imp fun _ _ ⟨hpage, hd⟩ => isCleared_of_compiledFrom hd hpage

/-- A script, a socket, a child view and an element whose content is dropped. -/
theorem compile_cleared_menu : ∃ v,
    compile (text "page") (text "<script>a</script><b af-sock='s'>c</b><i af-empty af-el='menu'>d</i>") =
        .ok v ∧
      List.Forall₂ IsCleared v.descendants (Markup.pages (sourcePage
        (text "<script>a</script><b af-sock='s'>c</b><i af-empty af-el='menu'>d</i>"))) := by
  have hok : (compile (text "page")
      (text "<script>a</script><b af-sock='s'>c</b><i af-empty af-el='menu'>d</i>")).isOk = true := by
    decide +kernel
  obtain ⟨v, hv⟩ := exists_of_isOk hok
  exact ⟨v, hv, compile_cleared hv⟩

end View

end Viewloom
