import Mathlib.Data.List.Basic
import Mathlib.Data.List.Forall2
import Viewloom.Proofs.Scoping.ClassNames
import Viewloom.Proofs.Styles
import Viewloom.Proofs.Transparency

/-!
# Opening tags of rendered elements

Each element of a page without markers is rendered with an opening tag of its own. The attributes that
stand there are those of the element wherever rendering undoes the spelling of its properties.
-/

namespace Viewloom

namespace Template

open Markup (Element)
open Text (lowerAscii trim)

variable {c : Char}

/-! ## Style properties -/

/-- The characters that a property keeps on its way to a key and back. -/
def isSettled (c : Char) : Bool := !(c.isAlpha || c == '-')

/-- Casing changes no settled character and settles none. -/
theorem casing (c : Char) : (isSettled c = true → c.toUpper = c ∧ c.toLower = c) ∧
    (isSettled c = false → isSettled c.toUpper = false ∧ isSettled c.toLower = false) := by
  refine Css.of_ascii (p := fun c => (isSettled c = true → c.toUpper = c ∧ c.toLower = c) ∧
    (isSettled c = false → isSettled c.toUpper = false ∧ isSettled c.toLower = false)) ?_ ?_ c
  · decide +kernel
  · intro c hc
    have hupper : c.toUpper = c := by
      refine dif_neg ?_
      rintro ⟨-, h⟩
      have : c.toNat ≤ 122 := h
      omega
    have hlower : c.toLower = c := by
      refine dif_neg ?_
      rintro ⟨-, h⟩
      have : c.toNat ≤ 90 := h
      omega
    rw [hupper, hlower]
    exact ⟨fun _ => ⟨rfl, rfl⟩, fun h => ⟨h, h⟩⟩

theorem filter_lowerAscii (s : Text) : (lowerAscii s).filter isSettled = s.filter isSettled := by
  induction s with
  | nil => rfl
  | cons c s ih =>
      have ih' : (s.map Char.toLower).filter isSettled = s.filter isSettled := ih
      rw [lowerAscii, List.map_cons]
      cases hc : isSettled c with
      | true => simp [((casing c).1 hc).2, hc, ih']
      | false => simp [((casing c).2 hc).2, hc, ih']

/-- Joining words changes hyphens and the case of letters only. -/
theorem filter_joinHumps (raise : Bool) (s : Text) :
    (joinHumps raise s).filter isSettled = s.filter isSettled := by
  induction s generalizing raise with
  | nil => cases raise <;> rfl
  | cons c s ih =>
      rw [joinHumps]
      split
      · next hc =>
        subst hc
        rw [ih, List.filter_cons_of_neg (by decide)]
      · cases hc : isSettled c with
        | true => cases raise <;> simp [((casing c).1 hc).1, hc, ih]
        | false => cases raise <;> simp [((casing c).2 hc).1, hc, ih]

/-- Dividing words changes hyphens and the case of letters only. -/
theorem filter_splitHumps (s : Text) : (splitHumps s).filter isSettled = s.filter isSettled := by
  induction s with
  | nil => rfl
  | cons c s ih =>
      have hhyphen : isSettled '-' = false := by decide
      have ih' : (splitHumps s).filter isSettled = s.filter isSettled := ih
      rw [splitHumps, List.flatMap_cons, ← splitHumps, List.filter_append, ih']
      cases hc : isSettled c with
      | true => split <;> simp [((casing c).1 hc).2, hc, hhyphen]
      | false => split <;> simp [((casing c).2 hc).2, hc, hhyphen]

theorem filter_styleKey (s : Text) : (styleKey s).filter isSettled = s.filter isSettled := by
  have hvendor : (text "ms-").filter isSettled = (text "-ms-").filter isSettled := by decide
  rw [styleKey]
  split
  · rfl
  · dsimp only
    split
    · next rest hrest =>
      rw [filter_joinHumps, List.filter_append, hvendor, ← List.filter_append,
        ← Text.stripStart_eq_some_iff.1 hrest, filter_lowerAscii]
    · rw [filter_joinHumps, filter_lowerAscii]

/-- A property that goes to its key and back keeps everything but letters and hyphens. -/
theorem filter_cssProperty (s : Text) : (cssProperty s).filter isSettled = s.filter isSettled := by
  have hhyphen : isSettled '-' = false := by decide
  rw [cssProperty]
  dsimp only
  split
  · exact filter_styleKey s
  · split
    · rw [List.filter_cons_of_neg (by simp [hhyphen]), filter_splitHumps, filter_styleKey]
    · rw [filter_splitHumps, filter_styleKey]

/-- A property that is respelled keeps the characters that are neither letters nor hyphens. -/
theorem filter_cssProperty_of {q : Char → Bool} (hq : ∀ c, q c = true → isSettled c = true)
    (s : Text) : (cssProperty s).filter q = s.filter q := by
  have hsame : ∀ s : Text, s.filter q = (s.filter isSettled).filter q := by
    intro s
    rw [List.filter_filter]
    exact List.filter_congr fun c _ => by cases h : q c <;> simp [hq, h]
  rw [hsame, filter_cssProperty, ← hsame]

theorem isSettled_of_isBlank (h : Unicode.isBlank c = true) : isSettled c = true := by
  have hall : ∀ n ∈ Unicode.blanks, isSettled (Char.ofNat n) = true := by decide
  rw [← Char.ofNat_toNat c]
  exact hall c.toNat (by simpa [Unicode.isBlank] using h)

theorem isSettled_of_isSign (h : isSign c = true) : isSettled c = true := by
  simp only [isSign, Bool.or_eq_true, beq_iff_eq] at h
  rcases h with (((rfl | rfl) | rfl) | rfl) | rfl <;> decide

/-- A declaration whose property has gone to its key and back. -/
def Declaration.respelled (d : Declaration) : Declaration := ⟨cssProperty d.property, d.value⟩

/-- A respelled declaration keeps its signs. -/
theorem filter_respelled (d : Declaration) :
    d.respelled.write.filter isSign = d.write.filter isSign := by
  have hsign := filter_cssProperty_of (q := isSign) (fun _ => isSettled_of_isSign) d.property
  simp [Declaration.write, Declaration.respelled, List.filter_append, hsign]

/-- A respelled declaration is read as it was if its property has come back as it was. -/
theorem readDeclaration_respelled_iff {d : Declaration} (h : d.IsRead) :
    readDeclaration d.respelled.write = some d ↔ cssProperty d.property = d.property := by
  have hcolon : ':' ∉ d.respelled.property := by
    have hsame := filter_cssProperty_of (q := (· == ':')) (fun c hc => by
      rw [beq_iff_eq] at hc
      subst hc
      decide) d.property
    intro hmem
    have : ':' ∈ (cssProperty d.property).filter (· == ':') := List.mem_filter.2 ⟨hmem, by simp⟩
    rw [hsame] at this
    exact h.colon (List.mem_filter.1 this).1
  have hwrite : readDeclaration d.respelled.write =
      if trim (cssProperty d.property) = [] ∨ trim d.value = [] then none
      else some ⟨trim (cssProperty d.property), trim d.value⟩ := readDeclaration_write hcolon
  rw [hwrite]
  constructor
  · intro hread
    split at hread
    · cases hread
    · have hproperty : trim (cssProperty d.property) = d.property :=
        congrArg Declaration.property (Option.some.inj hread)
      have hblank := filter_cssProperty_of (fun _ => isSettled_of_isBlank) d.property
      have hself : trim (cssProperty d.property) = cssProperty d.property :=
        Text.trim_eq_self_of_filter (by rw [hproperty, hblank])
      exact hself ▸ hproperty
  · intro hself
    rw [hself, h.trim_property, h.trim_value, if_neg (not_or.2 ⟨h.property_ne, h.value_ne⟩)]

/-- A rewritten style declares what it declared if all its properties have come back. -/
theorem parseStyle_respelled_iff {style : Text} :
    parseStyle (List.intercalate [';'] ((parseStyle style).map fun d => d.respelled.write)) =
        parseStyle style ↔
      ∀ d ∈ parseStyle style, cssProperty d.property = d.property := by
  have hself := List.filterMap_eq_map_iff_forall_eq_some (g := id) (l := parseStyle style)
    (f := fun d => readDeclaration d.respelled.write)
  rw [List.map_id] at hself
  rw [parseStyle_join filter_respelled, hself]
  exact forall₂_congr fun d hd => readDeclaration_respelled_iff (mem_parseStyle hd)

/-! ## Attributes -/

/-- An attribute as it stands in an opening tag. A flag has no value. -/
structure Shown where
  name : Text
  value : Option Text

/-- Whether what stands in an opening tag is an attribute of the element: the name up to case, the
value, or for a style the declarations. -/
structure Shown.Shows (s : Shown) (a : Attribute) : Prop where
  name : lowerAscii s.name = lowerAscii a.name
  value : match s.value with
    | none => a.value = [] ∧ booleanAttributes.contains (lowerAscii a.name) = true
    | some value =>
      if lowerAscii a.name = text "style" then parseStyle value = parseStyle a.value
      else value = a.value

/-- An attribute as it is shown, with a value or as a flag. -/
def Shown.print (s : Shown) : Text :=
  match s.value with
  | none => ' ' :: s.name
  | some value => writeAttribute s.name value

/-- What a property puts into an opening tag. -/
def Property.shown? (p : Property) : Option Shown :=
  match p.value with
  | .static value => some ⟨attributeName p.name, some value⟩
  | .flag => some ⟨attributeName p.name, none⟩
  | .style declarations =>
    some ⟨text "style", some (List.intercalate [';'] (declarations.map fun d => d.respelled.write))⟩
  | .innerHtml _ => none

/-- A property is rendered as the attribute that it shows. -/
theorem Property.render_eq (p : Property) : p.render = p.shown?.toList.flatMap Shown.print := by
  obtain ⟨name, value⟩ := p
  cases value <;> simp [Property.render, Property.shown?, Shown.print, Declaration.write,
    Declaration.respelled]

/-- Known attributes with a sign in their names, which no property has. -/
def signedNames : List Text :=
  (propertyNames.map Prod.fst).filter fun name => name.any fun c => c == '-' || c == ':'

/-- The names of properties that rendering takes for spellings of its own. -/
def respelledNames : List Text :=
  [text "className", text "htmlFor", text "defaultValue", text "defaultChecked"]

/-- Rendering undoes the spelling of an attribute. -/
def IsUndone (a : Attribute) : Prop :=
  if lowerAscii a.name = text "style" then
    ∀ d ∈ parseStyle a.value, cssProperty d.property = d.property
  else lowerAscii a.name ∉ signedNames ∧ a.name ∉ respelledNames

/-- Only four names are respelled. -/
theorem attributeName_eq_self {name : Text} (h : name ∉ respelledNames) : attributeName name = name := by
  simp only [respelledNames, List.mem_cons, List.not_mem_nil, or_false, not_or] at h
  simp [attributeName, h]

/-- An attribute comes back with its own name exactly if it is no known one with a sign, and none
that rendering respells. -/
theorem lowerAscii_attributeName_iff (tag name : Text) :
    lowerAscii (attributeName (propertyName tag name (lowerAscii name))) = lowerAscii name ↔
      lowerAscii name ∉ signedNames ∧ name ∉ respelledNames := by
  have htable : ∀ entry ∈ propertyNames,
      lowerAscii (attributeName entry.2) = entry.1 ↔ entry.1 ∉ signedNames := by decide +kernel
  have hnames : ∀ own ∈ respelledNames, propertyNames.lookup (lowerAscii own) = none ∧
      lowerAscii own ≠ text "value" ∧ lowerAscii own ≠ text "checked" ∧
      lowerAscii (attributeName own) ≠ lowerAscii own := by decide +kernel
  unfold propertyName
  split
  · next h =>
    rw [h.1]
    refine iff_of_true (by decide) ⟨by decide +kernel, fun hmem => (hnames name hmem).2.1 h.1⟩
  · split
    · next h =>
      rw [h.1]
      refine iff_of_true (by decide) ⟨by decide +kernel, fun hmem => (hnames name hmem).2.2.1 h.1⟩
    · cases hlookup : propertyNames.lookup (lowerAscii name) with
      | some property =>
          obtain ⟨before, behind, htable', -⟩ := List.lookup_eq_some_iff.1 hlookup
          have hentry := htable (lowerAscii name, property) (by simp [htable'])
          have hname : name ∉ respelledNames := fun hmem => by
            rw [(hnames name hmem).1] at hlookup
            cases hlookup
          simpa [hname] using hentry
      | none =>
          have hsigned : lowerAscii name ∉ signedNames := by
            intro hmem
            obtain ⟨entry, hentry, heq⟩ := List.mem_map.1 (List.mem_filter.1 hmem).1
            have hne := List.lookup_eq_none_iff.1 hlookup entry hentry
            rw [heq, bne_self_eq_false] at hne
            cases hne
          rw [Option.getD_none]
          by_cases hname : name ∈ respelledNames
          · exact iff_of_false (hnames name hname).2.2.2 fun h => h.2 hname
          · rw [attributeName_eq_self hname]
            exact iff_of_true rfl ⟨hsigned, hname⟩

/-- What the property of an attribute puts into an opening tag. -/
theorem shown?_ofAttribute (tag : Text) (a : Attribute) :
    ∃ s, (Property.ofAttribute tag a).shown? = some s ∧ (s.Shows a ↔ IsUndone a) := by
  have hstyle : lowerAscii (text "style") = text "style" := by decide
  unfold Property.ofAttribute IsUndone
  dsimp only
  split
  · next h =>
    refine ⟨_, rfl, ?_⟩
    rw [← parseStyle_respelled_iff]
    constructor
    · intro hshows
      simpa [h] using hshows.value
    · intro hundone
      exact ⟨by rw [hstyle, h], by simpa [h] using hundone⟩
  · next h =>
    rw [← lowerAscii_attributeName_iff tag]
    split
    · next hflag =>
      exact ⟨_, rfl, fun hshows => hshows.name, fun hname => ⟨hname, hflag⟩⟩
    · exact ⟨_, rfl, fun hshows => hshows.name, fun hname => ⟨hname, by simp [h]⟩⟩

/-! ## Opening tags -/

/-- An opening tag with the attributes it shows. -/
structure Opening where
  tag : Text
  attributes : List Shown

def Opening.print (o : Opening) : Text :=
  '<' :: o.tag ++ o.attributes.flatMap Shown.print ++ ['>']

/-- An opening tag keeps an element: its tag and its attributes, in order. -/
def Opening.Keeps (o : Opening) (e : Element) : Prop :=
  o.tag = e.tag ∧ List.Forall₂ Shown.Shows o.attributes e.attributes

/-- The opening tag of an element whose properties are partly overridden. -/
def openingOf (tag : Text) (properties : List Property) (props : SortedMap Text) : Opening :=
  ⟨tag, (ownProperties properties props).filterMap Property.shown? ++
    props.entries.map fun (name, value) => ⟨attributeName name, some value⟩⟩

/-- An opening is printed as a rendered tag. -/
theorem print_openingOf (tag : Text) (properties : List Property) (props : SortedMap Text) :
    (openingOf tag properties props).print = renderOpenTag tag properties props := by
  have hown : ∀ properties : List Property, properties.flatMap Property.render =
      (properties.filterMap Property.shown?).flatMap Shown.print := by
    intro properties
    induction properties with
    | nil => rfl
    | cons p ps ih =>
        rw [List.flatMap_cons, ih, p.render_eq]
        cases h : p.shown? <;> simp [h]
  simp only [openingOf, Opening.print, renderOpenTag, hown, List.flatMap_append, List.append_assoc,
    List.flatMap_map]
  rfl

/-- Without properties of a proxy, an element shows all its own. -/
theorem ownProperties_empty (properties : List Property) :
    ownProperties properties .empty = properties :=
  List.filter_eq_self.2 fun _ _ => rfl

/-- An element that can keep its opening tag: its tag is plain, the spelling of its attributes is
undone, and none of its text becomes an attribute. -/
structure IsKept (e : Element) : Prop where
  tag : splitSocketTag e.tag = none
  attributes : ∀ a ∈ e.attributes, IsUndone a
  content : e.tag = text "textarea" → directText e.children = []

/-- Each attribute is shown, and as what it was exactly if it is undone. -/
theorem shown?_attributes (tag : Text) (attributes : List Attribute) :
    ∃ shown : List Shown,
      (attributes.map (Property.ofAttribute tag)).filterMap Property.shown? = shown ∧
      shown.length = attributes.length ∧
      (List.Forall₂ Shown.Shows shown attributes ↔ ∀ a ∈ attributes, IsUndone a) := by
  induction attributes with
  | nil => exact ⟨[], rfl, rfl, by simp⟩
  | cons a as ih =>
      obtain ⟨s, hs, hshows⟩ := shown?_ofAttribute tag a
      obtain ⟨shown, hshown, hlength, hall⟩ := ih
      refine ⟨s :: shown, ?_, by simp [hlength], ?_⟩
      · rw [List.map_cons, List.filterMap_cons_some hs, hshown]
      · rw [List.forall₂_cons, hshows, hall, List.forall_mem_cons]

/-- Only a text area shows its content as an attribute. -/
theorem shown?_contentProperties (tag : Text) (children : List Markup.Node) :
    ((contentProperties tag children).getD []).filterMap Property.shown? = [] ↔
      (tag = text "textarea" → directText children = []) := by
  have hne : text "style" ≠ text "textarea" := by decide
  unfold contentProperties
  split
  · next h => simp [h, hne, Property.shown?]
  · split
    · next h =>
      by_cases htext : directText children = []
      · simp [htext]
      · simp [h, htext, Property.shown?]
    · next h => simp [h]

/-- An opening tag keeps its element exactly if all attributes are undone. -/
theorem keeps_openingOf_iff {e : Element} (h : splitSocketTag e.tag = none) :
    (openingOf e.tag (propertiesOf e.tag e.attributes e.children) .empty).Keeps e ↔ IsKept e := by
  obtain ⟨shown, hshown, hlength, hall⟩ := shown?_attributes e.tag e.attributes
  have hattributes : (openingOf e.tag (propertiesOf e.tag e.attributes e.children) .empty).attributes =
      shown ++ ((contentProperties e.tag e.children).getD []).filterMap Property.shown? := by
    rw [openingOf, ownProperties_empty, propertiesOf, List.filterMap_append, hshown]
    exact List.append_nil _
  rw [Opening.Keeps, hattributes]
  constructor
  · rintro ⟨-, hkeeps⟩
    have hmore : ((contentProperties e.tag e.children).getD []).filterMap Property.shown? = [] := by
      have := hkeeps.length_eq
      rw [List.length_append] at this
      exact List.eq_nil_of_length_eq_zero (by omega)
    rw [hmore, List.append_nil] at hkeeps
    exact ⟨h, hall.1 hkeeps, (shown?_contentProperties ..).1 hmore⟩
  · intro hkept
    rw [(shown?_contentProperties ..).2 hkept.content, List.append_nil]
    exact ⟨rfl, hall.2 hkept.attributes⟩

/-! ## Pieces of a rendered page -/

/-- The opening tag of an element, or anything else. -/
inductive Piece where
  | opens (source : Element) (opening : Opening)
  | rest (value : Text)

/-- A piece of a rendered page as it is written. -/
def Piece.print : Piece → Text
  | .opens _ opening => opening.print
  | .rest value => value

/-- The pieces of an element, given those of its content. -/
def elementPieces (source : Element) (tag : Text) (properties : List Property)
    (props : SortedMap Text) (content : List Piece) : List Piece :=
  .opens source (openingOf tag properties props) ::
    if Markup.isVoid tag then []
    else
      (match innerHtml? (ownProperties properties props) with
        | some html => [.rest html]
        | none => content) ++ [.rest (Markup.closeTag tag)]

mutual

/-- The pieces that a node is rendered as. A tag with a mark takes what its socket receives. -/
def pieces (proxies : ProxySet) : Markup.Node → List Piece
  | .text value => if isLayout value then [] else [.rest (Markup.escapeText value)]
  | .comment _ => []
  | .element tag attributes children =>
    match splitSocketTag tag with
    | none =>
      elementPieces ⟨tag, attributes, children⟩ tag (propertiesOf tag attributes children) .empty
        (if holdsText tag then [] else piecesAll proxies children)
    | some (base, socket) =>
      match proxies.get? socket with
      | none => []
      | some proxy =>
        elementPieces ⟨tag, attributes, children⟩ base (propertiesOf base attributes children)
          proxy.props
          (match contentOf (if holdsText base then [] else bound [] children), proxy.children with
          | .proxied, supplied => [.rest (ProxyNode.renderAll (supplied.getD []))]
          | .fallback _, some supplied => [.rest (ProxyNode.renderAll supplied)]
          | .fallback _, none => piecesAll proxies children
          | .nested _, supplied => piecesAll (.ofChildren (supplied.getD [])) children)

def piecesAll (proxies : ProxySet) : List Markup.Node → List Piece
  | [] => []
  | n :: ns => pieces proxies n ++ piecesAll proxies ns

end

/-- The pieces of an element are printed as the rendered element. -/
theorem print_elementPieces (source : Element) (tag : Text) (properties : List Property)
    (props : SortedMap Text) (content : List Piece) :
    (elementPieces source tag properties props content).flatMap Piece.print =
      renderElement tag properties props (content.flatMap Piece.print) := by
  rw [elementPieces, renderElement, ← print_openingOf]
  split
  · simp [Piece.print]
  · cases innerHtml? (ownProperties properties props) <;> simp [Piece.print]

variable {components : Components}

theorem nodes_contentOf (nodes : List Node) : (contentOf nodes).nodes = nodes := by
  unfold contentOf
  split
  · next h => exact (List.isEmpty_iff.1 h).symm
  · split <;> rfl

/-- What authored content fills a socket with is the content of its element. -/
theorem eq_of_contentOf {tag : Text} {nodes inner : List Node}
    (h : contentOf (if holdsText tag then [] else nodes) = .fallback inner ∨
      contentOf (if holdsText tag then [] else nodes) = .nested inner) : inner = nodes := by
  have hinner : inner = if holdsText tag then [] else nodes := by
    rw [← nodes_contentOf (if holdsText tag then [] else nodes)]
    rcases h with h | h <;> rw [h] <;> rfl
  cases htag : holdsText tag with
  | true =>
      rw [htag] at h
      rcases h with h | h <;> cases h
  | false => simpa [htag] using hinner

mutual

/-- A page without sockets is rendered as its pieces. -/
theorem render_bound_eq : ∀ (proxies : ProxySet) {n : Markup.Node}, n.All Markup.Unsocketed →
    Node.renderAll components proxies (bound [] [n]) = (pieces proxies n).flatMap Piece.print
  | proxies, .element tag attributes children, hn => by
      have hget : Attribute.get? socketMarker attributes = none := hn.1
      rw [bound_element, renderAll_singleton, pieces, writtenTag, hget,
        Attribute.erase_of_get?_eq_none hget, make_eq (by simp), baseTag]
      have hchildren : ∀ proxies, Node.renderAll components proxies (bound [] children) =
          (piecesAll proxies children).flatMap Piece.print :=
        fun proxies => renderAll_bound_eq proxies hn.2
      cases hsplit : splitSocketTag tag with
      | none =>
          have hcontent : Node.renderAll components proxies
                (if holdsText tag then [] else bound [] children) =
              (if holdsText tag then [] else piecesAll proxies children).flatMap Piece.print := by
            split
            · simp [Node.renderAll]
            · exact hchildren proxies
          simp only [classOf?, resolve, List.reverse_nil, List.find?_nil, Option.map_none,
            Option.isSome_none, Bool.false_eq_true, if_false, Option.getD_none, Node.render,
            hcontent, print_elementPieces]
      | some pair =>
          obtain ⟨base, socket⟩ := pair
          simp only [classOf?, resolve, List.reverse_nil, List.find?_nil, Option.map_none,
            Option.isSome_none, Option.getD_none]
          cases hcontent : contentOf (if holdsText base then [] else bound [] children) with
          | proxied =>
              cases hproxy : proxies.get? socket <;>
                simp [Node.render, hproxy, print_elementPieces, Piece.print]
          | fallback inner =>
              rw [eq_of_contentOf (.inl hcontent)]
              cases hproxy : proxies.get? socket with
              | none => simp [Node.render, hproxy]
              | some proxy =>
                  cases hsupplied : proxy.children <;>
                    simp [Node.render, hproxy, hsupplied, print_elementPieces, Piece.print, hchildren]
          | nested inner =>
              rw [eq_of_contentOf (.inr hcontent)]
              cases hproxy : proxies.get? socket <;>
                simp [Node.render, hproxy, print_elementPieces, hchildren]
  | _, .text value, _ => by
      rw [bound_text, pieces]
      split <;> simp [Node.renderAll, Node.render, Piece.print]
  | _, .comment value, _ => by
      rw [bound_comment, pieces]
      simp [Node.renderAll, Node.render]

/-- The template of a page renders as the pieces of the page. -/
theorem renderAll_bound_eq : ∀ (proxies : ProxySet) {ns : List Markup.Node},
    Markup.Node.AllOf Markup.Unsocketed ns →
    Node.renderAll components proxies (bound [] ns) = (piecesAll proxies ns).flatMap Piece.print
  | _, [], _ => by simp [piecesAll, Node.renderAll]
  | proxies, n :: ns, hns => by
      rw [bound_cons, renderAll_append, render_bound_eq proxies hns.1,
        renderAll_bound_eq proxies hns.2, piecesAll, List.flatMap_append]

end

/-- An opening among the pieces of an element is its own, or one of its content. -/
theorem mem_elementPieces {source e : Element} {o : Opening} {tag : Text}
    {properties : List Property} {props : SortedMap Text} {content : List Piece}
    (h : Piece.opens e o ∈ elementPieces source tag properties props content) :
    (e = source ∧ o = openingOf tag properties props) ∨ Piece.opens e o ∈ content := by
  rw [elementPieces, List.mem_cons, Piece.opens.injEq] at h
  refine h.imp id fun h => ?_
  split at h
  · simp at h
  · cases hinner : innerHtml? (ownProperties properties props) with
    | none => simpa [hinner] using h
    | some html => simp [hinner] at h

mutual

/-- Every opening of a rendered page keeps its element exactly if the element can be kept. -/
theorem keeps_iff_of_mem_pieces : ∀ {proxies : ProxySet} {n : Markup.Node} {e : Element}
    {o : Opening}, Piece.opens e o ∈ pieces proxies n → (o.Keeps e ↔ IsKept e)
  | proxies, .element tag attributes children, e, o, h => by
      rw [pieces] at h
      cases hsplit : splitSocketTag tag with
      | none =>
          rw [hsplit] at h
          rcases mem_elementPieces h with ⟨rfl, rfl⟩ | h
          · exact keeps_openingOf_iff (e := ⟨tag, attributes, children⟩) hsplit
          · split at h
            · simp at h
            · exact keeps_iff_of_mem_piecesAll h
      | some pair =>
          obtain ⟨base, socket⟩ := pair
          rw [hsplit] at h
          dsimp only at h
          split at h
          · simp at h
          · rcases mem_elementPieces h with ⟨rfl, rfl⟩ | h
            · refine iff_of_false (fun hkeeps => ?_) fun hkept => ?_
              · have htag : base = tag := hkeeps.1
                have := congrArg List.length (Text.append_of_splitOnce hsplit)
                have hmark := List.length_pos_iff.2 socketMark_ne_nil
                simp only [htag, List.length_append] at this
                omega
              · rw [show splitSocketTag tag = none from hkept.tag] at hsplit
                cases hsplit
            · split at h
              · simp at h
              · simp at h
              · exact keeps_iff_of_mem_piecesAll h
              · exact keeps_iff_of_mem_piecesAll h
  | _, .text _, _, _, h => by
      rw [pieces] at h
      split at h <;> simp at h
  | _, .comment _, _, _, h => by simp [pieces] at h

theorem keeps_iff_of_mem_piecesAll : ∀ {proxies : ProxySet} {ns : List Markup.Node} {e : Element}
    {o : Opening}, Piece.opens e o ∈ piecesAll proxies ns → (o.Keeps e ↔ IsKept e)
  | _, [], _, _, h => by simp [piecesAll] at h
  | _, _ :: _, _, _, h => by
      rw [piecesAll, List.mem_append] at h
      rcases h with h | h
      · exact keeps_iff_of_mem_pieces h
      · exact keeps_iff_of_mem_piecesAll h

end

end Template

/-! ## Pages without markers -/

namespace Markup

mutual

/-- A node without markers has none to be dropped. -/
theorem Node.unmark_eq_self :
    ∀ {n : Node}, (n.All fun _ attributes => ∀ a ∈ attributes, isMarker a = false) → n.unmark = n
  | .element _ attributes _, hn => by
      have hself : unmarked attributes = attributes :=
        List.filter_eq_self.2 fun a ha => by simp [hn.1 a ha]
      rw [Node.unmark, hself, Node.unmarkAll_eq_self hn.2]
  | .text _, _ => rfl
  | .comment _, _ => rfl

theorem Node.unmarkAll_eq_self : ∀ {ns : List Node},
    Node.AllOf (fun _ attributes => ∀ a ∈ attributes, isMarker a = false) ns →
      Node.unmarkAll ns = ns
  | [], _ => rfl
  | _ :: _, hns => by rw [Node.unmarkAll, Node.unmark_eq_self hns.1, Node.unmarkAll_eq_self hns.2]

end

end Markup

namespace View

open Markup (Node)
open Template (Piece piecesAll IsKept)

/-- A page without markers renders as its pieces, and an element among them keeps its tag and its
attributes exactly if nothing about it is spelled in a way that rendering does not undo. -/
theorem keeps_iff_of_render {page : List Node} (label : Text) (names : Names) (proxies : ProxySet)
    (h : Node.AllOf (fun _ attributes => ∀ a ∈ attributes, Markup.isMarker a = false) page) :
    ∃ v, ofPage label names page = .ok v ∧
      v.render proxies =
        (piecesAll proxies (Markup.cleanUp (Markup.scope page))).flatMap Piece.print ∧
      ∀ e o, Piece.opens e o ∈ piecesAll proxies (Markup.cleanUp (Markup.scope page)) →
        (o.Keeps e ↔ IsKept e) := by
  have hself := Node.unmarkAll_eq_self h
  obtain ⟨v, hv⟩ := exists_ofPage_unmarkAll label names page
  rw [hself] at hv
  refine ⟨v, hv, ?_, fun e o hmem => Template.keeps_iff_of_mem_piecesAll hmem⟩
  have hdecompose := Markup.decompose_unmarkAll page
  rw [hself] at hdecompose
  have hremainder : Markup.remainder page = Markup.cleanUp (Node.unmarkAll (Markup.scope page)) := by
    rw [Markup.remainder, hdecompose]
  have hchildren : v.children.map View.names = [] := by
    rw [(children_ofPage hv).2.2, Markup.extractions, hdecompose]
    rfl
  have hnodes := nodes_ofPage hv
  rw [hchildren, hremainder] at hnodes
  have hscope : Node.unmarkAll (Markup.scope page) = Markup.scope page := by
    rw [← Markup.scope_unmarkAll, hself]
  obtain ⟨_, _, _, _, nodes, _, children⟩ := v
  simp only at hnodes
  rw [View.render, renderWith, hnodes,
    Template.renderAll_bound_eq proxies (Markup.allOf_unsocketed_cleanUp_unmarkAll _), hscope]

/-- A form whose character set is spelled anew next to a paragraph that is kept. -/
def formPage : List Node :=
  [.element (text "form") [⟨text "accept-charset", text "utf-8"⟩] [],
    .element (text "p") [⟨text "class", text "a"⟩, ⟨text "style", text "color: red"⟩] []]

/-- A form keeps the name `acceptCharset`, which no attribute has, and a styled paragraph is kept.
-/
theorem keeps_iff_of_render_formPage : ∃ v,
    ofPage (text "page") (Names.ofWords [text "page"]) formPage = .ok v ∧
      v.render .empty = text
        "<form acceptCharset=\"utf-8\"></form><p class=\"__af-a\" style=\"color:red\"></p>" ∧
      ∀ e o, Piece.opens e o ∈ piecesAll .empty (Markup.cleanUp (Markup.scope formPage)) →
        (o.Keeps e ↔ IsKept e) := by
  have hunmarked :
      Node.AllOf (fun _ attributes => ∀ a ∈ attributes, Markup.isMarker a = false) formPage := by
    decide +kernel
  obtain ⟨v, hv, hrender, hkeeps⟩ :=
    keeps_iff_of_render (text "page") (Names.ofWords [text "page"]) .empty hunmarked
  refine ⟨v, hv, hrender.trans ?_, hkeeps⟩
  decide +kernel

end View

end Viewloom
