import Viewloom.Proofs.Origins

/-!
# Properties that proxies override

The properties of an element and the props of its proxy are compared by the names that components know
them by, and written under the names of HTML. An opening tag holds each attribute once, with the value
of the prop that names it, exactly as far as the two spellings go together.
-/

namespace Viewloom

theorem SortedMap.contains_iff {α : Type} {m : SortedMap α} {key : Text} :
    m.contains key = true ↔ ∃ entry ∈ m.entries, entry.1 = key := by
  rw [contains, get?]
  induction m.entries with
  | nil => simp [findEntry]
  | cons entry entries ih =>
      obtain ⟨k, v⟩ := entry
      rw [findEntry]
      split
      · next hkey => simp [hkey]
      · next hkey =>
        rw [ih, List.exists_mem_cons_iff, or_iff_right fun h => hkey h.symm]

namespace Template

open Text (lowerAscii)
open Markup (Element)

/-! ## Names of attributes -/

/-- The name, up to case, of the attribute that a property writes. -/
def htmlName (property : Text) : Text := lowerAscii (attributeName property)

/-- A property writes its own name, up to case, exactly if it is not respelled. -/
theorem htmlName_eq_iff (name : Text) :
    htmlName name = lowerAscii name ↔ name ∉ respelledNames := by
  have hrespelled : ∀ own ∈ respelledNames, htmlName own ≠ lowerAscii own := by decide
  constructor
  · intro h hmem
    exact hrespelled name hmem h
  · intro h
    rw [htmlName, attributeName_eq_self h]

/-- The name of an attribute comes back when the name of its property is rendered. -/
def IsSpelledBack (a : Attribute) : Prop := lowerAscii a.name ∉ signedNames ∧ a.name ∉ respelledNames

theorem htmlName_ofAttribute_iff (tag : Text) (a : Attribute) :
    htmlName (Property.ofAttribute tag a).name = lowerAscii a.name ↔
      IsSpelledBack a := by
  unfold Property.ofAttribute IsSpelledBack
  dsimp only
  split
  · next hstyle =>
    have hrespelled : ∀ own ∈ respelledNames, lowerAscii own ≠ text "style" := by decide
    have hname : htmlName (text "style") = text "style" := by decide
    rw [hstyle]
    exact iff_of_true hname ⟨by decide +kernel, fun hmem => hrespelled _ hmem hstyle⟩
  · exact lowerAscii_attributeName_iff tag a.name

/-! ## Attributes of an opening tag -/

/-- The names in an opening tag, up to case. -/
def Opening.names (o : Opening) : List Text := o.attributes.map fun s => lowerAscii s.name

/-- An attribute stands in an opening tag, and no other one does under the name. -/
def Opening.Gives (o : Opening) (name : Text) (s : Shown) : Prop :=
  o.attributes.filter (fun t => lowerAscii t.name == lowerAscii name) = [s]

/-- No name stands in an opening tag twice, and an attribute that a prop names, in the spelling of the
template or in its own, stands there with the value of the prop. -/
structure Opening.Overrides (o : Opening) (tag : Text) (attributes : List Attribute)
    (props : SortedMap Text) : Prop where
  nodup : o.names.Nodup
  given : ∀ a ∈ attributes, ∀ entry ∈ props.entries,
    entry.1 = (Property.ofAttribute tag a).name ∨ entry.1 = a.name →
      o.Gives a.name ⟨attributeName entry.1, some entry.2⟩

/-- The names of properties and props go together. -/
structure Overridable (tag : Text) (attributes : List Attribute) (properties : List Property)
    (props : SortedMap Text) : Prop where
  /-- No two props write one attribute, -/
  written : (props.entries.map fun entry => htmlName entry.1).Nodup
  /-- nor do two of the properties that stay, -/
  own : (((ownProperties properties props).filterMap Property.shown?).map fun s =>
    lowerAscii s.name).Nodup
  /-- nor a property and a prop, unless there is a prop of the property's name. -/
  apart : ∀ p ∈ properties, ∀ s, p.shown? = some s → ∀ entry ∈ props.entries,
    htmlName entry.1 = lowerAscii s.name → props.contains p.name = true
  /-- An attribute that a prop names as the template does is spelled back. -/
  respelled : ∀ a ∈ attributes, props.contains (Property.ofAttribute tag a).name = true →
    IsSpelledBack a
  /-- An attribute that a prop names as the page does is not named like a property. -/
  kept : ∀ a ∈ attributes, props.contains a.name = true → a.name ∉ respelledNames

variable {tag : Text} {attributes : List Attribute} {properties : List Property}
  {props : SortedMap Text}

/-- Among different values each is found once. -/
theorem filter_eq_singleton {α : Type} {f : α → Text} {l : List α} (h : (l.map f).Nodup) {s : α}
    (hs : s ∈ l) : l.filter (fun t => f t == f s) = [s] := by
  induction l with
  | nil => cases hs
  | cons t l ih =>
      rw [List.map_cons, List.nodup_cons] at h
      rcases List.mem_cons.1 hs with rfl | hs
      · have hrest : l.filter (fun t => f t == f s) = [] := by
          rw [List.filter_eq_nil_iff]
          intro t ht heq
          exact h.1 (List.mem_map.2 ⟨t, ht, by simpa using heq⟩)
        rw [List.filter_cons_of_pos (by simp), hrest]
      · have hne : f t ≠ f s := fun heq => h.1 (heq ▸ List.mem_map_of_mem hs)
        rw [List.filter_cons_of_neg (by simpa using hne), ih h.2 hs]

/-- The names of an opening are those of its own attributes and of what the proxy gives. -/
theorem names_openingOf (tag : Text) (properties : List Property) (props : SortedMap Text) :
    (openingOf tag properties props).names =
      (((ownProperties properties props).filterMap Property.shown?).map fun s =>
        lowerAscii s.name) ++ props.entries.map fun entry => htmlName entry.1 := by
  rw [Opening.names, openingOf, List.map_append, List.map_map]
  rfl

/-- A property is shown unless the proxy has one of its name. -/
theorem mem_ownProperties_iff {p : Property} :
    p ∈ ownProperties properties props ↔ p ∈ properties ∧ props.contains p.name = false := by
  rw [ownProperties, List.mem_filter, Bool.not_eq_true']

/-- No name is written twice exactly if the proxy repeats none, the element repeats none, and
whatever both have is overridden. -/
theorem nodup_names_openingOf_iff (tag : Text) :
    (openingOf tag properties props).names.Nodup ↔
      (props.entries.map fun entry => htmlName entry.1).Nodup ∧
        (((ownProperties properties props).filterMap Property.shown?).map fun s =>
          lowerAscii s.name).Nodup ∧
        ∀ p ∈ properties, ∀ s, p.shown? = some s → ∀ entry ∈ props.entries,
          htmlName entry.1 = lowerAscii s.name → props.contains p.name = true := by
  rw [names_openingOf, List.nodup_append, and_left_comm]
  refine and_congr Iff.rfl (and_congr Iff.rfl ?_)
  constructor
  · intro hdisjoint p hp s hs entry hentry hname
    by_contra hfree
    have hown : p ∈ ownProperties properties props :=
      mem_ownProperties_iff.2 ⟨hp, by simpa using hfree⟩
    exact hdisjoint _ (List.mem_map_of_mem (List.mem_filterMap.2 ⟨p, hown, hs⟩)) _
      (List.mem_map_of_mem hentry) hname.symm
  · intro hapart name hname name' hname' heq
    obtain ⟨s, hs, rfl⟩ := List.mem_map.1 hname
    obtain ⟨entry, hentry, rfl⟩ := List.mem_map.1 hname'
    obtain ⟨p, hp, hshown⟩ := List.mem_filterMap.1 hs
    obtain ⟨hmem, hfree⟩ := mem_ownProperties_iff.1 hp
    rw [hapart p hmem s hshown entry hentry heq.symm] at hfree
    cases hfree

/-- Under different names, a prop gives an attribute exactly if it writes one of that name. -/
theorem gives_iff (hnodup : (openingOf tag properties props).names.Nodup) {entry : Text × Text}
    (hentry : entry ∈ props.entries) (name : Text) :
    (openingOf tag properties props).Gives name ⟨attributeName entry.1, some entry.2⟩ ↔
      htmlName entry.1 = lowerAscii name := by
  have hmem : (⟨attributeName entry.1, some entry.2⟩ : Shown) ∈
      (openingOf tag properties props).attributes :=
    List.mem_append_right _ (List.mem_map.2 ⟨entry, hentry, rfl⟩)
  constructor
  · intro hgives
    have hself := List.mem_singleton_self (⟨attributeName entry.1, some entry.2⟩ : Shown)
    rw [← hgives, List.mem_filter] at hself
    exact beq_iff_eq.1 hself.2
  · intro hname
    rw [Opening.Gives, ← hname]
    exact filter_eq_singleton hnodup hmem

/-- An opening overrides as it should exactly if the properties of the element can be overridden. -/
theorem overrides_openingOf_iff :
    (openingOf tag properties props).Overrides tag attributes props ↔
      Overridable tag attributes properties props := by
  constructor
  · rintro ⟨hnodup, hgiven⟩
    obtain ⟨hprops, hown, hapart⟩ := (nodup_names_openingOf_iff tag).1 hnodup
    refine ⟨hprops, hown, hapart, fun a ha hcontains => ?_, fun a ha hcontains => ?_⟩
    · obtain ⟨entry, hentry, hkey⟩ := SortedMap.contains_iff.1 hcontains
      rw [← htmlName_ofAttribute_iff tag, ← hkey]
      exact (gives_iff hnodup hentry a.name).1 (hgiven a ha entry hentry (.inl hkey))
    · obtain ⟨entry, hentry, hkey⟩ := SortedMap.contains_iff.1 hcontains
      rw [← htmlName_eq_iff]
      exact hkey ▸ (gives_iff hnodup hentry a.name).1 (hgiven a ha entry hentry (.inr hkey))
  · intro h
    have hnodup := (nodup_names_openingOf_iff tag).2 ⟨h.written, h.own, h.apart⟩
    refine ⟨hnodup, fun a ha entry hentry hkey => (gives_iff hnodup hentry a.name).2 ?_⟩
    rcases hkey with hkey | hkey
    · rw [hkey, htmlName_ofAttribute_iff]
      exact h.respelled a ha (SortedMap.contains_iff.2 ⟨entry, hentry, hkey⟩)
    · rw [hkey, htmlName_eq_iff]
      exact h.kept a ha (SortedMap.contains_iff.2 ⟨entry, hentry, hkey⟩)

/-! ## Plain elements -/

/-- An element whose attributes come back under names of their own, and whose text becomes none. -/
structure IsPlain (tag : Text) (attributes : List Attribute) (children : List Markup.Node) : Prop where
  spelled : ∀ a ∈ attributes, IsSpelledBack a
  nodup : (attributes.map fun a => lowerAscii a.name).Nodup
  content : tag = text "textarea" → directText children = []

/-- Props that write different attributes, and those of an element under the names of its properties. -/
structure FollowsNames (tag : Text) (attributes : List Attribute) (props : SortedMap Text) : Prop where
  nodup : (props.entries.map fun entry => htmlName entry.1).Nodup
  named : ∀ a ∈ attributes, ∀ entry ∈ props.entries, htmlName entry.1 = lowerAscii a.name →
    entry.1 = (Property.ofAttribute tag a).name

/-- An attribute is shown by the name that its property is written with. -/
theorem name_shown? {a : Attribute} {s : Shown} (h : (Property.ofAttribute tag a).shown? = some s) :
    lowerAscii s.name = htmlName (Property.ofAttribute tag a).name := by
  unfold Property.ofAttribute at h ⊢
  dsimp only at h ⊢
  split at h
  · next hstyle =>
    have hname : lowerAscii (text "style") = htmlName (text "style") := by decide
    rw [if_pos hstyle]
    cases h
    exact hname
  · next hstyle =>
    rw [if_neg hstyle]
    split at h <;> cases h <;> rfl

theorem names_shown?_attributes (tag : Text) (attributes : List Attribute) :
    ((attributes.map (Property.ofAttribute tag)).filterMap Property.shown?).map
        (fun s => lowerAscii s.name) =
      attributes.map fun a => htmlName (Property.ofAttribute tag a).name := by
  induction attributes with
  | nil => rfl
  | cons a as ih =>
      obtain ⟨s, hs, -⟩ := shown?_ofAttribute tag a
      rw [List.map_cons, List.filterMap_cons_some hs, List.map_cons, List.map_cons, ih, name_shown? hs]

/-- A plain element and the props that follow its names go together. -/
theorem IsPlain.overridable {children : List Markup.Node} (h : IsPlain tag attributes children)
    (hprops : FollowsNames tag attributes props) :
    Overridable tag attributes (propertiesOf tag attributes children) props := by
  have hspelled : ∀ a ∈ attributes, htmlName (Property.ofAttribute tag a).name = lowerAscii a.name :=
    fun a ha => (htmlName_ofAttribute_iff tag a).2 (h.spelled a ha)
  have hcontent := (shown?_contentProperties tag children).2 h.content
  refine ⟨hprops.nodup, ?_, ?_, fun a ha _ => h.spelled a ha, fun a ha _ => (h.spelled a ha).2⟩
  · have hall : (((propertiesOf tag attributes children).filterMap Property.shown?).map fun s =>
        lowerAscii s.name) = attributes.map fun a => lowerAscii a.name := by
      rw [propertiesOf, List.filterMap_append, hcontent, List.append_nil, names_shown?_attributes]
      exact List.map_congr_left hspelled
    have hnodup := h.nodup
    rw [← hall] at hnodup
    exact hnodup.sublist ((List.filter_sublist.filterMap _).map _)
  · intro p hp s hs entry hentry hname
    rcases List.mem_append.1 hp with hp | hp
    · obtain ⟨a, ha, rfl⟩ := List.mem_map.1 hp
      rw [name_shown? hs, hspelled a ha] at hname
      exact SortedMap.contains_iff.2 ⟨entry, hentry, hprops.named a ha entry hentry hname⟩
    · have hmem := List.mem_filterMap.2 ⟨p, hp, hs⟩
      rw [hcontent] at hmem
      cases hmem

/-! ## Nodes that open an element -/

/-- What the opening tag of a node is made of: elements have one, and sockets that have received a
proxy. Child views write their own. -/
def Node.opening? (P : ProxySet) : Node → Option (Text × List Property × SortedMap Text)
  | .element tag properties _ => some (tag, properties, .empty)
  | .socket name target _ _ =>
    if target.isComponent then none
    else (P.get? name).map fun proxy => (target.tag, target.properties, proxy.props)
  | _ => none

variable {components : Components} {P : ProxySet} {n : Node} {names : List Names}
  {ms : List Markup.Node}

/-- A rendered element begins with its opening. -/
theorem exists_renderElement_eq (tag : Text) (properties : List Property) (props : SortedMap Text)
    (content : Text) : ∃ rest, renderElement tag properties props content =
      (openingOf tag properties props).print ++ rest := by
  rw [renderElement, print_openingOf]
  split
  · exact ⟨[], (List.append_nil _).symm⟩
  · exact ⟨_, List.append_assoc ..⟩

/-- A node that opens an element is rendered with that opening tag first. -/
theorem exists_render_eq (h : n.opening? P = some (tag, properties, props)) :
    ∃ rest, n.render components P = (openingOf tag properties props).print ++ rest := by
  cases n with
  | element =>
      cases h
      rw [Node.render]
      exact exists_renderElement_eq ..
  | component | text | comment => cases h
  | socket name target inner content =>
      rw [Node.opening?] at h
      split at h
      · cases h
      · next helement =>
        obtain ⟨proxy, hproxy, heq⟩ := Option.map_eq_some_iff.1 h
        cases heq
        rw [render_socket, hproxy]
        simp only [helement, Bool.false_eq_true, if_false]
        exact exists_renderElement_eq ..

/-- The properties in an opening tag are those of an element of the page. -/
theorem exists_propertiesOf (hrefs : ∀ n ∈ names, ¬ openMark <:+: controllerRef n.className)
    (hn : n.Within (bound names ms)) (h : n.opening? P = some (tag, properties, props)) :
    ∃ e : Element, e.Within ms ∧
      properties = propertiesOf tag (Attribute.erase socketMarker e.attributes) e.children := by
  cases n with
  | element =>
      cases h
      obtain ⟨e, he, hsplit, rfl, rfl⟩ := exists_elementOf hrefs hn
      have hbase : baseTag (written e) = written e := by simp [baseTag, hsplit]
      exact ⟨e, he, by rw [ownedProperties, hbase]⟩
  | component | text | comment => cases h
  | socket name target inner content =>
      obtain ⟨e, base, he, hsocket⟩ := exists_socketOf hrefs hn
      have hbase : baseTag (written e) = base := by simp [baseTag, hsocket.split]
      rw [Node.opening?, hsocket.target] at h
      split at h
      · cases h
      · next hclass =>
        obtain ⟨proxy, -, heq⟩ := Option.map_eq_some_iff.1 h
        simp only [Option.not_isSome_iff_eq_none] at hclass
        cases heq
        exact ⟨e, he, by rw [resolve_of_isNone hclass, ownedProperties, hbase]⟩

end Template

namespace View

open Markup (Element)
open Template (Node Property Overridable IsPlain FollowsNames openingOf propertiesOf)

/-- How props override the attributes of an element of a page in its opening tag. -/
structure Overriding (e : Element) (tag : Text) (properties : List Property) (props : SortedMap Text) :
    Prop where
  made : properties = propertiesOf tag (Attribute.erase socketMarker e.attributes) e.children
  /-- The props override the attributes exactly if the names of both go together, -/
  overrides_iff :
    (openingOf tag properties props).Overrides tag (Attribute.erase socketMarker e.attributes) props ↔
      Overridable tag (Attribute.erase socketMarker e.attributes) properties props
  /-- as they do for props in the spelling of the template, if the element itself is plain. -/
  overrides : IsPlain tag (Attribute.erase socketMarker e.attributes) e.children →
    FollowsNames tag (Attribute.erase socketMarker e.attributes) props →
      (openingOf tag properties props).Overrides tag (Attribute.erase socketMarker e.attributes) props

/-- What the renderer writes as the opening tag of a node. -/
structure OpensWith (components : Template.Components) (kept : List Markup.Node) (n : Node)
    (P : ProxySet) (tag : Text) (properties : List Property) (props : SortedMap Text) : Prop where
  render : ∃ rest, n.render components P = (openingOf tag properties props).print ++ rest
  /-- The properties are those of an element that the page keeps. -/
  element : ∃ e : Element, e.Within kept ∧ Overriding e tag properties props

/-- All nodes of a view that open an element write such a tag under all proxies. -/
def OpensElements (controllers : View → Lookup) (v : View) (page : List Markup.Node) : Prop :=
  ∀ (n : Node) (P : ProxySet) (tag : Text) (properties : List Property) (props : SortedMap Text),
    n.Within v.nodes → n.opening? P = some (tag, properties, props) →
      OpensWith (renderChild controllers v.children) (Markup.remainder page) n P tag properties props

/-- In every view of a compiled source, under all proxies, an opening tag holds each attribute once and
with the value of the prop that names it, exactly if the names of its properties and props go
together. -/
theorem compile_opensElements {label source : Text} {v : View} (h : compile label source = .ok v)
    (controllers : View → Lookup) :
    List.Forall₂ (OpensElements controllers) v.descendants (Markup.pages (sourcePage source)) := by
  refine (forall₂_compiledFrom h).imp fun d page hpage n P tag properties props hn hopening => ?_
  have hmade := madeOf_of_compiledFrom hpage
  rw [hmade.nodes] at hn
  obtain ⟨e, he, hproperties⟩ := Template.exists_propertiesOf hmade.refs hn hopening
  refine ⟨Template.exists_render_eq hopening, e, he, hproperties, Template.overrides_openingOf_iff, ?_⟩
  intro hplain hfollows
  rw [Template.overrides_openingOf_iff, hproperties]
  exact hplain.overridable hfollows

/-- A class that a proxy may override. -/
def classSource : Text := text "<p af-sock='x' class='a' title='b'>t</p>"

/-- A proxy with one property for a single socket. -/
def overriding (socket property value : Text) : ProxySet :=
  SortedMap.empty.insert socket ⟨SortedMap.empty.insert property value, none⟩

/-- A class is overridden by the name of its property, and written twice by its own. -/
theorem compile_opensElements_classSource : ∃ v, compile (text "page") classSource = .ok v ∧
    v.render (overriding (text "x") (text "className") (text "b")) =
      text "<p title=\"b\" class=\"b\">t</p>" ∧
    v.render (overriding (text "x") (text "class") (text "b")) =
      text "<p class=\"__af-a\" title=\"b\" class=\"b\">t</p>" ∧
    ∀ controllers, List.Forall₂ (OpensElements controllers) v.descendants
      (Markup.pages (sourcePage classSource)) := by
  have hrender : (compile (text "page") classSource).toOption.any (fun v => decide
      (v.render (overriding (text "x") (text "className") (text "b")) =
          text "<p title=\"b\" class=\"b\">t</p>" ∧
        v.render (overriding (text "x") (text "class") (text "b")) =
          text "<p class=\"__af-a\" title=\"b\" class=\"b\">t</p>")) = true := by decide +kernel
  obtain ⟨v, hv, hproperty, hname⟩ := exists_of_any hrender
  exact ⟨v, hv, hproperty, hname, fun controllers => compile_opensElements hv controllers⟩

end View

end Viewloom
