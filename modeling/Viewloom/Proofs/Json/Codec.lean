import Viewloom.Cache
import Viewloom.Proofs.Json.RoundTrip

/-!
# Views are decoded as they were encoded

Every field of a view is found again under its name, so a view is decoded as it was encoded, as far as
the reading goes. The text of an entry is read back exactly if its view is not nested too deep.
-/

namespace Viewloom

namespace Json

/-! ## Members -/

theorem valuesOf_eq_nil {name : Text} {members : List (Text × Json)} (h : name ∉ members.map Prod.fst) :
    valuesOf name members = [] := by
  induction members with
  | nil => rfl
  | cons m members ih =>
      rw [List.map_cons, List.mem_cons, not_or] at h
      rw [valuesOf, if_neg (Ne.symm h.1), ih h.2]

/-- Among different names each member is found by its own. -/
theorem unique?_of_mem {members : List (Text × Json)} (hnodup : (members.map Prod.fst).Nodup)
    {m : Text × Json} (hm : m ∈ members) : unique? m.1 members = some m.2 := by
  have hvalues : valuesOf m.1 members = [m.2] := by
    induction members with
    | nil => cases hm
    | cons n members ih =>
        rw [List.map_cons, List.nodup_cons] at hnodup
        rcases List.mem_cons.1 hm with rfl | hm
        · rw [valuesOf, if_pos rfl, valuesOf_eq_nil hnodup.1]
        · have hne : n.1 ≠ m.1 := fun heq => hnodup.1 (heq ▸ List.mem_map_of_mem hm)
          rw [valuesOf, if_neg hne, ih hnodup.2 hm]
  rw [unique?, hvalues]

/-- The fields of an object that has just these members. -/
theorem fields?_object (names : List Text) (members : List (Text × Json))
    (hnames : members.map Prod.fst = names) (hnodup : names.Nodup) :
    fields? names (object members) = some (members.map Prod.snd) := by
  subst hnames
  rw [fields?, List.mapM_map]
  have hsome : ∀ ms : List (Text × Json), (∀ m ∈ ms, unique? m.1 members = some m.2) →
      ms.mapM (fun m => unique? m.1 members) = some (ms.map Prod.snd) := by
    intro ms hms
    induction ms with
    | nil => rfl
    | cons m ms ih =>
        rw [List.mapM_cons, hms m (by simp), ih fun n hn => hms n (List.mem_cons_of_mem m hn)]
        rfl
  exact hsome members fun m hm => unique?_of_mem hnodup hm

/-- The tag of an object that begins with it. -/
theorem tagged?_object {name tag : Text} (names : List Text) {members : List (Text × Json)}
    (hnames : members.map Prod.fst = names) (h : name ∉ names) :
    tagged? name (object ((name, string tag) :: members)) = some (tag, object members) := by
  subst hnames
  have hfilter : members.filter (fun m => m.1 != name) = members :=
    List.filter_eq_self.2 fun m hm => bne_iff_ne.2 fun heq => h (heq ▸ List.mem_map_of_mem hm)
  have hunique : unique? name ((name, string tag) :: members) = some (string tag) := by
    rw [unique?, valuesOf, if_pos rfl, valuesOf_eq_nil h]
  rw [tagged?, hunique]
  simp [hfilter]

/-- A list is read again if its items are. -/
theorem decodeAll_map {α : Type} {decode : Json → Option α} {encode : α → Json} (as : List α)
    (h : ∀ a ∈ as, decode (encode a) = some a) : decodeAll decode (array (as.map encode)) = some as := by
  rw [decodeAll, List.mapM_map]
  induction as with
  | nil => rfl
  | cons a as ih =>
      rw [List.mapM_cons, ih fun b hb => h b (List.mem_cons_of_mem a hb), Function.comp_apply, h a (by simp)]
      rfl

theorem adjacent?_tag {name content : Text} (h : name ≠ content) (tag : Text) :
    adjacent? name content (object [(name, string tag)]) = some (tag, none) := by
  have hcontent : valuesOf content [(name, string tag)] = [] := valuesOf_eq_nil (by simpa using h.symm)
  have hunique : unique? name [(name, string tag)] = some (string tag) := by simp [unique?, valuesOf]
  simp [adjacent?, hunique, hcontent]

theorem adjacent?_content {name content : Text} (h : name ≠ content) (tag : Text) (value : Json) :
    adjacent? name content (object [(name, string tag), (content, value)]) = some (tag, some value) := by
  have hnodup : ([(name, string tag), (content, value)].map Prod.fst).Nodup := by simpa using h
  have hname := unique?_of_mem hnodup (m := (name, string tag)) (by simp)
  have hcontent : valuesOf content [(name, string tag), (content, value)] = [value] := by
    simp [valuesOf, h]
  rw [adjacent?, hname, hcontent]

end Json

open Json (array object string bool depth depthAll depthIn Numberless NumberlessIn depthAll_le_iff)

/-! ## Templates -/

namespace Template

/-- A declaration is read again. -/
theorem Declaration.ofJson?_toJson (d : Declaration) : ofJson? d.toJson = some d := by
  have hfields := Json.fields?_object [text "property", text "value"]
    [(text "property", string d.property), (text "value", string d.value)] rfl (by decide)
  rw [ofJson?, toJson, hfields]
  rfl

/-- A value is read again by its kind. -/
theorem Value.ofJson?_toJson (v : Value) : ofJson? v.toJson = some v := by
  have hne : text "kind" ≠ text "value" := by decide
  cases v with
  | static value =>
      rw [ofJson?, toJson, Json.adjacent?_content hne]
      rfl
  | flag =>
      rw [ofJson?, toJson, Json.adjacent?_tag hne]
      rfl
  | style declarations =>
      have hall := Json.decodeAll_map declarations fun d _ => d.ofJson?_toJson
      have hkind : text "style" ≠ text "flag" ∧ text "style" ≠ text "static" := by decide
      rw [ofJson?, toJson, Json.adjacent?_content hne]
      simp [hkind, hall]
  | innerHtml value =>
      rw [ofJson?, toJson, Json.adjacent?_content hne]
      rfl

/-- A property is read again. -/
theorem Property.ofJson?_toJson (p : Property) : ofJson? p.toJson = some p := by
  have hfields := Json.fields?_object [text "name", text "value"]
    [(text "name", string p.name), (text "value", p.value.toJson)] rfl (by decide)
  rw [ofJson?, toJson, hfields]
  simp [Json.asString?, Value.ofJson?_toJson]

/-- The fields of a socket. -/
def socketFields : List Text := [text "name", text "target", text "isComponent", text "content"]

section Node

variable {node : Json → Option Node} {children : List Json} {nodes : List Node}

/-- The members of an element are read again if its nodes are. -/
theorem elementOf?_elementMembers (h : Json.decodeAll node (array children) = some nodes) (tag : Text)
    (properties : List Property) :
    elementOf? node (object (elementMembers tag properties children)) = some (tag, properties, nodes) := by
  have hfields := Json.fields?_object elementFields
    (elementMembers tag properties children) rfl (by decide)
  have hproperties := Json.decodeAll_map properties fun p _ => p.ofJson?_toJson
  rw [elementOf?, hfields]
  simp [elementMembers, Json.asString?, hproperties, h]

/-- What fills a socket, encoded. -/
def Content.toJson : Content Node → Json
  | .proxied => object [(text "kind", string (text "proxied"))]
  | .fallback nodes => contentJson (text "fallback") (Node.toJsonAll nodes)
  | .nested nodes => contentJson (text "scoped") (Node.toJsonAll nodes)

theorem Node.toJson_socket (name : Text) (target : Target) (inner : List Node) (content : Content Node) :
    toJson (.socket name target inner content) =
      typed (Viewloom.text "socket") (socketMembers name target (toJsonAll inner) content.toJson) := by
  cases content <;> rw [toJson] <;> rfl

/-- A content is read again if its nodes are. -/
theorem contentOf?_toJson {content : Content Node}
    (h : Json.decodeAll node (array (Node.toJsonAll content.nodes)) = some content.nodes) :
    contentOf? node content.toJson = some content := by
  have hne : text "kind" ≠ text "nodes" := by decide
  cases content with
  | proxied =>
      rw [contentOf?, Content.toJson, Json.adjacent?_tag hne]
      rfl
  | fallback nodes =>
      have hkind : text "fallback" ≠ text "proxied" := by decide
      rw [contentOf?, Content.toJson, contentJson, Json.adjacent?_content hne]
      simp only [Content.nodes] at h
      simp [hkind, h]
  | nested nodes =>
      have hkind : text "scoped" ≠ text "proxied" ∧ text "scoped" ≠ text "fallback" := by decide
      rw [contentOf?, Content.toJson, contentJson, Json.adjacent?_content hne]
      simp only [Content.nodes] at h
      simp [hkind, h]

/-- The nodes of a content are not nested deeper than the content. -/
theorem depthAll_nodes_le (content : Content Node) :
    depthAll (Node.toJsonAll content.nodes) ≤ content.toJson.depth := by
  cases content with
  | proxied => exact Nat.zero_le _
  | fallback nodes =>
      simp only [Content.toJson, Content.nodes, contentJson, depth, depthIn]
      omega
  | nested nodes =>
      simp only [Content.toJson, Content.nodes, contentJson, depth, depthIn]
      omega

theorem Node.toJsonAll_eq_map (ns : List Node) : toJsonAll ns = ns.map toJson := by
  induction ns with
  | nil => rfl
  | cons n ns ih => rw [toJsonAll, ih, List.map_cons]

/-- A node is decoded if the reading goes as deep as its encoding. -/
theorem Node.ofJsonWithin_toJson {fuel : Nat} {n : Node} (h : n.toJson.depth < fuel) :
    ofJsonWithin fuel n.toJson = some n := by
  induction fuel generalizing n with
  | zero => omega
  | succ fuel ih =>
      have hall (ns : List Node) (hns : depthAll (toJsonAll ns) < fuel) :
          Json.decodeAll (ofJsonWithin fuel) (array (toJsonAll ns)) = some ns := by
        rw [toJsonAll_eq_map] at hns ⊢
        refine Json.decodeAll_map _ fun n hn => ih ?_
        have := depthAll_le_iff.1 (Nat.le_refl _) n.toJson (List.mem_map_of_mem hn)
        omega
      have helementFields : Viewloom.text "type" ∉ elementFields := by decide
      have hvalueField : Viewloom.text "type" ∉ [Viewloom.text "value"] := by decide
      have hvalue (value : Text) := Json.fields?_object [Viewloom.text "value"]
        [(Viewloom.text "value", string value)] rfl (by decide)
      cases n with
      | element tag properties children =>
          simp only [toJson, typed, elementMembers, depth, depthIn] at h
          have helement := elementOf?_elementMembers (hall children (by omega)) tag properties
          rw [toJson, typed, ofJsonWithin, Json.tagged?_object elementFields rfl helementFields]
          simp [helement]
      | component tag properties children =>
          have htype : Viewloom.text "component" ≠ Viewloom.text "element" := by decide
          simp only [toJson, typed, elementMembers, depth, depthIn] at h
          have helement := elementOf?_elementMembers (hall children (by omega)) tag properties
          rw [toJson, typed, ofJsonWithin, Json.tagged?_object elementFields rfl helementFields]
          simp [htype, helement]
      | text value =>
          rw [toJson, typed, ofJsonWithin, Json.tagged?_object [Viewloom.text "value"] rfl hvalueField]
          simp only [Option.bind_eq_bind, Option.bind_some, hvalue]
          rfl
      | comment value =>
          rw [toJson, typed, ofJsonWithin, Json.tagged?_object [Viewloom.text "value"] rfl hvalueField]
          simp only [Option.bind_eq_bind, Option.bind_some, hvalue]
          rfl
      | socket name target inner content =>
          have hnames : Viewloom.text "type" ∉ socketFields := by decide
          rw [toJson_socket] at h ⊢
          have hcontent := depthAll_nodes_le content
          simp only [typed, socketMembers, elementMembers, depth, depthIn] at h
          have helement := elementOf?_elementMembers (hall inner (by omega)) target.tag
            target.properties
          have hcontent := contentOf?_toJson (hall content.nodes (by omega))
          rw [typed, ofJsonWithin, Json.tagged?_object socketFields rfl hnames]
          have hfields := Json.fields?_object socketFields
            (socketMembers name target (toJsonAll inner) content.toJson) rfl (by decide)
          have htypes : Viewloom.text "socket" ≠ Viewloom.text "element" ∧
              Viewloom.text "socket" ≠ Viewloom.text "component" := by decide
          rw [socketFields] at hfields
          simp only [Option.bind_eq_bind, Option.bind_some, if_neg htypes.1, if_neg htypes.2, if_true,
            hfields]
          simp [socketMembers, Json.asString?, Json.asBool?, helement, hcontent]

end Node

/-! ## No numbers -/

theorem Property.numberless_toJson (p : Property) : p.toJson.Numberless := by
  have hdeclarations (ds : List Declaration) : (array (ds.map Declaration.toJson)).Numberless := by
    rw [Numberless, Json.numberlessAll_iff]
    simp [Declaration.toJson, Numberless, NumberlessIn]
  rcases p with ⟨name, _ | _ | ds | _⟩ <;>
    simp [toJson, Value.toJson, Numberless, NumberlessIn]
  exact hdeclarations ds

theorem numberlessIn_elementMembers {children : List Json} (h : Json.NumberlessAll children) (tag : Text)
    (properties : List Property) : NumberlessIn (elementMembers tag properties children) := by
  have hproperties : Json.NumberlessAll (properties.map Property.toJson) := by
    rw [Json.numberlessAll_iff]
    simp [Property.numberless_toJson]
  simp [elementMembers, NumberlessIn, Numberless, hproperties, h]

mutual

/-- No number is written for a template. -/
theorem Node.numberless_toJson : ∀ n : Node, n.toJson.Numberless
  | .element tag properties children => by
      simp [toJson, typed, Numberless, NumberlessIn,
        numberlessIn_elementMembers (numberlessAll_toJsonAll children)]
  | .component tag properties children => by
      simp [toJson, typed, Numberless, NumberlessIn,
        numberlessIn_elementMembers (numberlessAll_toJsonAll children)]
  | .text value => by simp [toJson, typed, Numberless, NumberlessIn]
  | .comment value => by simp [toJson, typed, Numberless, NumberlessIn]
  | .socket name target inner .proxied => by
      simp [toJson, typed, socketMembers, Numberless, NumberlessIn,
        numberlessIn_elementMembers (numberlessAll_toJsonAll inner)]
  | .socket name target inner (.fallback nodes) => by
      simp [toJson, typed, socketMembers, contentJson, Numberless, NumberlessIn,
        numberlessIn_elementMembers (numberlessAll_toJsonAll inner), numberlessAll_toJsonAll nodes]
  | .socket name target inner (.nested nodes) => by
      simp [toJson, typed, socketMembers, contentJson, Numberless, NumberlessIn,
        numberlessIn_elementMembers (numberlessAll_toJsonAll inner), numberlessAll_toJsonAll nodes]

theorem Node.numberlessAll_toJsonAll : ∀ ns : List Node, Json.NumberlessAll (Node.toJsonAll ns)
  | [] => trivial
  | n :: ns => ⟨n.numberless_toJson, numberlessAll_toJsonAll ns⟩

end

end Template

/-! ## Views -/

/-- The names of a view are read again. -/
theorem Names.ofJson?_toJson (n : Names) : ofJson? n.toJson = some n := by
  have hfields := Json.fields?_object fieldNames
    (fieldNames.zip
      [string n.controllerClassName, string n.className, string n.elementTag, string n.fileSlug])
    rfl (by decide)
  rw [ofJson?, toJson, hfields]
  rfl

namespace View

theorem toJsonAll_eq_map (vs : List View) : toJsonAll vs = vs.map toJson := by
  induction vs with
  | nil => rfl
  | cons v vs ih => rw [toJsonAll, ih, List.map_cons]

/-- A view is decoded if the reading goes as deep as its encoding. -/
theorem ofJsonWithin_toJson {fuel : Nat} {v : View} (h : v.toJson.depth < fuel) :
    ofJsonWithin fuel v.toJson = some v := by
  induction fuel generalizing v with
  | zero => omega
  | succ fuel ih =>
      obtain ⟨label, names, markup, sockets, nodes, template, children⟩ := v
      simp only [toJson, depth, depthIn, stateFields, List.zip_cons_cons] at h
      have hsockets : Json.decodeAll Json.asString? (array (sockets.map string)) = some sockets :=
        Json.decodeAll_map sockets fun _ _ => rfl
      have hnodes : Json.decodeAll (Template.Node.ofJsonWithin fuel)
          (array (Template.Node.toJsonAll nodes)) = some nodes := by
        rw [Template.Node.toJsonAll_eq_map] at h ⊢
        refine Json.decodeAll_map _ fun n hn => Template.Node.ofJsonWithin_toJson ?_
        have := depthAll_le_iff.1 (Nat.le_refl _) n.toJson (List.mem_map_of_mem hn)
        omega
      have hchildren : Json.decodeAll (ofJsonWithin fuel) (array (toJsonAll children)) =
          some children := by
        rw [toJsonAll_eq_map] at h ⊢
        refine Json.decodeAll_map _ fun v hv => ih ?_
        have := depthAll_le_iff.1 (Nat.le_refl _) v.toJson (List.mem_map_of_mem hv)
        omega
      have hview := Json.fields?_object
        [text "label", text "names", text "state"]
        [(text "label", string label), (text "names", names.toJson),
          (text "state", object (stateFields.zip
            [string markup, array (sockets.map string), array (Template.Node.toJsonAll nodes),
              string template, array (toJsonAll children)]))] rfl (by decide)
      have hstate := Json.fields?_object stateFields
        (stateFields.zip
          [string markup, array (sockets.map string), array (Template.Node.toJsonAll nodes),
            string template, array (toJsonAll children)]) rfl (by decide)
      rw [toJson, ofJsonWithin, hview]
      simp only [List.map_cons, List.map_nil, Option.bind_eq_bind, Option.bind_some, hstate]
      simp [stateFields, Json.asString?, Names.ofJson?_toJson, hsockets, hnodes, hchildren]

mutual

/-- No number is written for a view. -/
theorem numberless_toJson : ∀ v : View, v.toJson.Numberless
  | ⟨label, names, markup, sockets, nodes, template, children⟩ => by
      have hsockets : Json.NumberlessAll (sockets.map string) := by
        rw [Json.numberlessAll_iff]
        simp [Numberless]
      simp [toJson, Names.toJson, Names.fieldNames, stateFields, Numberless, NumberlessIn, hsockets,
        Template.Node.numberlessAll_toJsonAll nodes, numberlessAll_toJsonAll children]

theorem numberlessAll_toJsonAll : ∀ vs : List View, Json.NumberlessAll (toJsonAll vs)
  | [] => trivial
  | v :: vs => ⟨numberless_toJson v, numberlessAll_toJsonAll vs⟩

end

end View

/-- The text of an entry is read back exactly if the view in it is not nested too deep. -/
theorem CacheEntry.parse_write (e : CacheEntry) :
    parse e.toJson.write = if e.view.toJson.depth < Json.depthLimit then some e else none := by
  have hnumberless : e.toJson.Numberless := by
    simp [toJson, fieldNames, Numberless, NumberlessIn, e.view.numberless_toJson]
  have hdepth : e.toJson.depth = 1 + e.view.toJson.depth := by
    simp [toJson, fieldNames, depth, depthIn]
  rw [parse, Json.read_write hnumberless, hdepth]
  by_cases hlimit : e.view.toJson.depth < Json.depthLimit
  · have hfields := Json.fields?_object fieldNames
      (fieldNames.zip [string e.digest, e.view.toJson]) rfl (by decide)
    have hview : View.ofJsonWithin (Json.depthLimit + 1) e.view.toJson = some e.view :=
      View.ofJsonWithin_toJson (by omega)
    rw [if_pos (by omega), if_pos hlimit, Option.bind_some, ofJson?, toJson, hfields]
    simp [fieldNames, Json.asString?, hview]
  · rw [if_neg (by omega), if_neg hlimit, Option.bind_none]

end Viewloom
