import Viewloom.Proofs.Script.Framings

/-!
# Printed templates as elements

A printed template is an element or holds nothing. What its nodes are printed as may stand between
tags, if the names that are printed as they stand are names.
-/

namespace Viewloom.Template

/-- The value itself, if it is printed in quotes. -/
def Value.statics : Value → List Text
  | static value => [value]
  | _ => []

end Viewloom.Template

namespace Viewloom.Script

open Viewloom.Script.Parser Viewloom.Script.Tree Template

variable {must : Bool} {e i x stop s tag : Text} {properties : List Property}
  {items others : List Item}

/-! ## Names that are printed as they stand -/

/-- A declaration whose key may stand in an object: it is written as a string, or consists of parts of
names and must be a name if the script must be a module. A number must not end early. -/
def IsSoundDeclaration (must : Bool) (d : Declaration) : Prop :=
  (isCustom (styleKey d.property) = true ∨ (styleKey d.property).all isNamePart = true ∧
      (must = true → isPlainName (styleKey d.property) = true)) ∧
    (must = true → isNumeral d.value = true → isOctalPointed d.value = false)

/-- The declarations of a style that a property holds. -/
def declarations : Value → List Declaration
  | .style found => found
  | _ => []

/-- A property whose name may stand in a tag. -/
def IsSoundProperty (must : Bool) (p : Property) : Prop :=
  IsName must p.name ∧ ∀ d ∈ declarations p.value, IsSoundDeclaration must d

/-- A tag with properties that may be printed as they stand. -/
def IsSoundTag (must : Bool) (tag : Text) (properties : List Property) : Prop :=
  IsTag must tag ∧ ∀ p ∈ properties, IsSoundProperty must p

instance (must : Bool) (name : Text) : Decidable (IsName must name) :=
  inferInstanceAs (Decidable (_ ∧ _))

instance (must : Bool) (tag : Text) : Decidable (IsTag must tag) :=
  inferInstanceAs (Decidable (_ ∧ _ ∧ _))

instance (must : Bool) (d : Declaration) : Decidable (IsSoundDeclaration must d) :=
  inferInstanceAs (Decidable ((_ ∨ _ ∧ _) ∧ _))

instance (must : Bool) (p : Property) : Decidable (IsSoundProperty must p) :=
  inferInstanceAs (Decidable (_ ∧ _))

instance (must : Bool) (tag : Text) (properties : List Property) :
    Decidable (IsSoundTag must tag properties) :=
  inferInstanceAs (Decidable (_ ∧ _))

/-! ## Properties -/

/-- The key of a declaration as it is printed. -/
def writtenKey (d : Declaration) : Text :=
  if isCustom (styleKey d.property) then quoted (styleKey d.property) else styleKey d.property

/-- The written key of a sound declaration is a key. -/
theorem isKey_writtenKey {d : Declaration} (h : IsSoundDeclaration must d) :
    IsKey must (writtenKey d) := by
  unfold writtenKey
  split
  · exact .inl ⟨_, rfl⟩
  · next hcustom => exact .inr (h.1.resolve_left hcustom)

/-- No quote is left in an escaped value. -/
theorem quote_not_mem_escapeAttribute (value : Text) : '"' ∉ Markup.escapeAttribute value := by
  rw [Markup.escapeAttribute, List.mem_flatMap]
  rintro ⟨d, -, hd⟩
  unfold Markup.escapeAttributeChar at hd
  split at hd
  · exact absurd hd (by decide)
  split at hd
  · exact absurd hd (by decide)
  · next hquote => exact hquote (List.mem_singleton.1 hd).symm

theorem isInline_of_isNumeral {value : Text} (h : isNumeral value = true) :
    value.all isInline = true := by
  simp only [isNumeral, Bool.and_eq_true] at h
  rw [List.all_eq_true]
  intro d hd
  have hpart : isNumeralPart d = true := List.all_eq_true.1 h.1.2 d hd
  rw [isInline, Bool.and_eq_true, bne_iff_ne, bne_iff_ne]
  constructor <;>
    · rintro rfl
      exact absurd hpart (by decide)

/-- The value of a style stands on one line. -/
theorem isInline_styleValue (value : Text) : (styleValue value).all isInline = true := by
  unfold styleValue
  split
  · next h => exact isInline_of_isNumeral h
  · exact isInline_quoted value

/-- A key stands on one line. -/
theorem isInline_of_isKey {key : Text} (hkey : IsKey must key) : key.all isInline = true := by
  rcases hkey with ⟨value, rfl⟩ | ⟨hkey, -⟩
  · exact isInline_quoted value
  · rw [List.all_eq_true]
    intro d hd
    exact isInline_of_isNamePart (List.all_eq_true.1 hkey d hd)

/-- The members of a printed style. -/
def styleEntries (declarations : List Declaration) : List (Text × Text) :=
  declarations.map fun d => (writtenKey d, styleValue d.value)

/-- An object of sound declarations can be put between braces. -/
theorem enclosed_style {declarations : List Declaration} (hne : declarations ≠ [])
    (h : ∀ d ∈ declarations, IsSoundDeclaration must d) :
    Enclosed must (objectOf (styleEntries declarations)) := by
  have hvalue {d : Declaration} (hd : IsSoundDeclaration must d) :
      IsValue must (styleValue d.value) := by
    unfold styleValue
    split
    · next hnumeral => exact isValue_numeral hnumeral fun hmust => hd.2 hmust hnumeral
    · exact isValue_quoted d.value
  apply enclosed_objectOf
  · simpa [styleEntries] using hne
  · intro e he
    obtain ⟨d, hd, rfl⟩ := List.mem_map.1 he
    exact ⟨isKey_writtenKey (h d hd), hvalue (h d hd)⟩
  · intro e he
    obtain ⟨d, hd, rfl⟩ := List.mem_map.1 he
    exact ⟨isInline_of_isKey (isKey_writtenKey (h d hd)), isInline_styleValue d.value⟩

/-- A declaration is written as the entry of its key and its value. -/
theorem entry_writtenKey (d : Declaration) :
    entry (writtenKey d) (styleValue d.value) = styleEntry d := by
  rw [entry, styleEntry, List.append_assoc]
  rfl

theorem printValue_style {d : Declaration} {ds : List Declaration} :
    printValue (.style (d :: ds)) =
      '=' :: '\x7b' :: (objectOf (styleEntries (d :: ds)) ++ ['\x7d']) := by
  have hentries : (styleEntries (d :: ds)).map (fun e => entry e.1 e.2) =
      (d :: ds).map styleEntry := by
    rw [styleEntries, List.map_map]
    apply List.map_congr_left
    intro d _
    exact entry_writtenKey d
  rw [objectOf, hentries]
  simp [printValue]
  rfl

theorem printValue_innerHtml (value : Text) :
    printValue (.innerHtml value) =
      '=' :: '\x7b' :: (objectOf [(text "__html", quoted value)] ++ ['\x7d']) := by
  simp [printValue, objectOf, entry]
  rfl

/-- The object of injected markup can be put between braces. -/
theorem enclosed_innerHtml (value : Text) :
    Enclosed must (objectOf [(text "__html", quoted value)]) := by
  have hkey : IsKey must (text "__html") := .inr ⟨by decide, fun _ => by decide⟩
  apply enclosed_objectOf (by simp)
  · intro e he
    obtain rfl := List.mem_singleton.1 he
    exact ⟨hkey, isValue_quoted value⟩
  · intro e he
    obtain rfl := List.mem_singleton.1 he
    exact ⟨isInline_of_isKey hkey, isInline_quoted value⟩

/-- What a value is printed as, if it is printed in quotes. -/
def quotedValue (value : Value) : List Item :=
  value.statics.map fun value => .quoted (inQuotes (Markup.escapeAttribute value))

/-- A property is printed as a piece of a tag. -/
theorem piece_property {p : Property} (hp : IsSoundProperty must p) :
    Piece must (quotedValue p.value) (p.name ++ printValue p.value) := by
  obtain ⟨name, value⟩ := p
  obtain ⟨hname, hvalue⟩ := hp
  cases value with
  | static value => exact .quoted hname (quote_not_mem_escapeAttribute value)
  | flag =>
      have hflag : name ++ printValue .flag = name := List.append_nil name
      rw [hflag]
      exact .flag hname
  | style declarations =>
      cases declarations with
      | nil => exact .braces hname enclosed_emptyObject
      | cons d ds =>
          rw [printValue_style]
          exact .braces hname (enclosed_style (by rintro ⟨⟩) hvalue)
  | innerHtml value =>
      rw [printValue_innerHtml]
      exact .braces hname (enclosed_innerHtml value)

/-! ## Tags -/

/-- Properties in front of what ends a name end it too. -/
theorem endsTagName_properties (hs : endsTagName s = true) :
    endsTagName (printProperties properties ++ s) = true := by
  cases properties with
  | nil => exact hs
  | cons => rfl

/-- What the properties of a tag quote. -/
def quotedValues (properties : List Property) : List Item :=
  properties.flatMap fun p => quotedValue p.value

/-- Sound properties in front of an opening add the values that they quote. -/
theorem opening_properties (h : ∀ p ∈ properties, IsSoundProperty must p)
    (hs : endsTagName s = true) (hopening : Opening must stop items s) :
    Opening must stop (quotedValues properties ++ items) (printProperties properties ++ s) := by
  induction properties with
  | nil => exact hopening
  | cons p properties ih =>
      have hrest := ih fun q hq => h q (by simp [hq])
      have hpiece : Piece must (quotedValue p.value) (p.name ++ printValue p.value) :=
        piece_property (h p (by simp))
      have hprinted : printProperties (p :: properties) ++ s =
          ' ' :: ((p.name ++ printValue p.value) ++ (printProperties properties ++ s)) := by
        simp [printProperties, printProperty]
      have hquoted : quotedValues (p :: properties) ++ items =
          quotedValue p.value ++ (quotedValues properties ++ items) := by
        simp [quotedValues]
      rw [hprinted, hquoted]
      exact .blank (.piece hpiece (endsTagName_properties hs) hrest)

/-- What stands between the first and the last sign of an element, in front of any rest. -/
def IsTagged (must : Bool) (items : List Item) (t : Text) : Prop :=
  ∀ rest, Element must items rest (t ++ '>' :: rest)

/-- A sound tag that closes itself is a tag with the values it quotes. -/
theorem isTagged_empty (h : IsSoundTag must tag properties) :
    IsTagged must (quotedValues properties) (tag ++ (printProperties properties ++ text " /")) := by
  intro rest
  have hopening : Opening must ('/' :: '>' :: rest) [] (' ' :: '/' :: '>' :: rest) := .blank .stop
  have htext : tag ++ (printProperties properties ++ text " /") ++ '>' :: rest =
      tag ++ (printProperties properties ++ ' ' :: '/' :: '>' :: rest) := by
    simp
    rfl
  have hproperties := opening_properties h.2 rfl hopening
  rw [List.append_nil] at hproperties
  rw [htext]
  exact .closed h.1 (endsTagName_properties rfl) hproperties

/-! ## Texts between tags -/

/-- What may stand between tags in front of anything else: characters, and pieces between two signs. -/
inductive Filling (must : Bool) : List Item → Text → Prop where
  | nil : Filling must [] []
  | char {items : List Item} {d : Char} {i : Text} : endsElementText d = false →
    Filling must items i → Filling must items (d :: i)
  | piece {items others : List Item} {d e : Char} {p i : Text} : Unicode.isBlank d = false →
    Unicode.isBlank e = false → (∀ more stop s, Children must more stop s →
      Children must (items ++ more) stop (d :: (p ++ e :: s))) →
    Filling must others i → Filling must (items ++ others) (d :: (p ++ e :: i))

namespace Filling

/-- A filling in front of children adds its items. -/
theorem children (h : Filling must items i) (hs : Children must others stop s) :
    Children must (items ++ others) stop (i ++ s) := by
  induction h with
  | nil => exact hs
  | char hd _ ih => exact .char hd ih
  | piece _ _ hp _ ih => simpa using hp _ _ _ ih

/-- Two fillings in a row are a filling. -/
theorem append {j : Text} (hi : Filling must items i) (hj : Filling must others j) :
    Filling must (items ++ others) (i ++ j) := by
  induction hi with
  | nil => exact hj
  | char hd _ ih => exact ih.char hd
  | piece hd he hp _ ih => simpa using ih.piece hd he hp

/-- A piece with nothing behind it. -/
theorem one {d e : Char} {p : Text} (hd : Unicode.isBlank d = false) (he : Unicode.isBlank e = false)
    (hp : ∀ more stop s, Children must more stop s →
      Children must (items ++ more) stop (d :: (p ++ e :: s))) :
    Filling must items (d :: (p ++ [e])) := by
  have hpiece := Filling.nil.piece hd he hp
  rwa [List.append_nil] at hpiece

/-- A text without an end of texts is a filling. -/
theorem of_any (hi : i.any endsElementText = false) : Filling must [] i := by
  induction i with
  | nil => exact .nil
  | cons d i ih =>
      rw [List.any_cons, Bool.or_eq_false_iff] at hi
      exact .char hi.1 (ih hi.2)

/-! Blanks at the ends may go, since no piece begins or ends with one. -/

/-- A blank in front of a filling can be left out. -/
theorem of_cons {d : Char} (hd : Unicode.isBlank d = true) (h : Filling must items (d :: i)) :
    Filling must items i := by
  cases h with
  | char _ h => exact h
  | piece hblank => simp [hd] at hblank

/-- A blank behind a filling can be left out. -/
theorem of_concat {d : Char} (hd : Unicode.isBlank d = true) (h : Filling must items (i ++ [d])) :
    Filling must items i := by
  generalize hj : i ++ [d] = j at h
  induction h generalizing i with
  | nil => simp at hj
  | @char _ e j he h ih =>
      cases i with
      | nil =>
          obtain ⟨rfl, rfl⟩ := List.cons.inj hj
          exact h
      | cons e' i =>
          obtain ⟨rfl, rfl⟩ := List.cons.inj hj
          exact .char he (ih rfl)
  | @piece _ _ first last p j hfirst hlast hp h ih =>
      rcases List.eq_nil_or_concat j with rfl | ⟨j, e, rfl⟩
      · have hends : i ++ [d] = (first :: p) ++ [last] := by simpa using hj
        obtain ⟨-, heq⟩ := List.append_inj' hends rfl
        obtain rfl : d = last := by simpa using heq
        simp [hd] at hlast
      · have hends : i ++ [d] = (first :: (p ++ last :: j)) ++ [e] := by simpa using hj
        obtain ⟨rfl, heq⟩ := List.append_inj' hends rfl
        exact .piece hfirst hlast hp (ih (by rw [heq, List.concat_eq_append]))

theorem trimStart (h : Filling must items i) : Filling must items (Text.trimStart i) := by
  induction i with
  | nil => exact h
  | cons d i ih =>
      cases hd : Unicode.isBlank d with
      | true =>
          rw [Text.trimStart, List.dropWhile_cons_of_pos hd]
          exact ih (h.of_cons hd)
      | false =>
          rw [Text.trimStart, List.dropWhile_cons_of_neg (by simp [hd])]
          exact h

theorem trimEnd (h : Filling must items i) : Filling must items (Text.trimEnd i) := by
  have hdrop {r : Text} (h : Filling must items r.reverse) :
      Filling must items (r.dropWhile Unicode.isBlank).reverse := by
    induction r with
    | nil => exact h
    | cons d r ih =>
        cases hd : Unicode.isBlank d with
        | true =>
            rw [List.dropWhile_cons_of_pos hd]
            rw [List.reverse_cons] at h
            exact ih (h.of_concat hd)
        | false =>
            rw [List.dropWhile_cons_of_neg (by simp [hd])]
            exact h
  apply hdrop
  rwa [List.reverse_reverse]

/-- A filling stays one when it is trimmed. -/
theorem trim (h : Filling must items i) : Filling must items (Text.trim i) :=
  h.trimStart.trimEnd

end Filling

/-! ## Pieces -/

/-- An element and what stands in it. -/
theorem isTagged_whole {attributes : Text} (htag : IsTag must tag)
    (hattributes : ∀ stop, endsTagName (attributes ++ '>' :: stop) = true ∧
      Opening must ('>' :: stop) items (attributes ++ '>' :: stop))
    (hi : Filling must others i) :
    IsTagged must (items ++ others) (tag ++ (attributes ++ '>' :: (i ++ '<' :: '/' :: tag))) := by
  intro rest
  have htext : tag ++ (attributes ++ '>' :: (i ++ '<' :: '/' :: tag)) ++ '>' :: rest =
      tag ++ (attributes ++ '>' :: (i ++ '<' :: '/' :: (tag ++ '>' :: rest))) := by
    simp
  rw [htext]
  obtain ⟨hends, hopening⟩ := hattributes (i ++ '<' :: '/' :: (tag ++ '>' :: rest))
  have hstop : Children must [] ('<' :: '/' :: (tag ++ '>' :: rest)) _ := .stop
  have hchildren := hi.children hstop
  rw [List.append_nil] at hchildren
  exact .whole htag hends hopening hchildren

/-- A tag is a filling. -/
theorem filling_tagged {t : Text} (ht : IsTagged must items t) :
    Filling must items ('<' :: (t ++ ['>'])) := by
  apply Filling.one (by decide) (by decide)
  intro more stop s hs
  exact .element (ht s) hs

/-- An expression between braces is a filling with no items. -/
theorem filling_braces (he : Enclosed must e) (hbegins : beginsValue e = true) :
    Filling must [] ('\x7b' :: (e ++ ['\x7d'])) := by
  apply Filling.one (by decide) (by decide)
  intro more stop s hs
  exact .braces he hbegins hs

/-- A tag framed between braces is a filling. -/
theorem filling_framed {before after t : Text} (hframing : Framing must before after)
    (ht : IsTagged must items t) :
    Filling must items ('\x7b' :: (before ++ '<' :: (t ++ '>' :: (after ++ ['\x7d'])))) := by
  have hpiece : Filling must items
      ('\x7b' :: ((before ++ '<' :: (t ++ '>' :: after)) ++ ['\x7d'])) := by
    apply Filling.one (by decide) (by decide)
    intro more stop s hs
    simpa using Children.framed hframing (ht (after ++ '\x7d' :: s)) hs
  simpa using hpiece

theorem enclosed_quoted (v : Text) : Enclosed must (quoted v) where
  inline := isInline_quoted v
  solid _ := rfl
  reads rounds depth c x u hu hfit := by
    have hrounds : 0 < (grammarWithin rounds depth).rounds := hfit.rounds_pos
    apply reads_assignment_string hrounds hu
    apply skips_brace
    exact ⟨needs_leaf rfl, rfl⟩

/-- An escaped character is a filling with no items. -/
theorem filling_escapedChar (d : Char) : Filling must [] (escapedChar d) := by
  unfold escapedChar
  split
  · exact .of_any rfl
  split
  · exact .of_any rfl
  split
  · exact .of_any rfl
  split
  · exact filling_braces (enclosed_quoted ['\x7b']) rfl
  split
  · exact filling_braces (enclosed_quoted ['\x7d']) rfl
  · next hopen hclose hleft hright =>
      apply Filling.char _ .nil
      simp [endsElementText, hopen, hclose, hleft, hright]

/-- An escaped text is a filling with no items. -/
theorem filling_escaped (value : Text) : Filling must [] (escaped value) := by
  induction value with
  | nil => exact .nil
  | cons d value ih => exact (filling_escapedChar d).append ih

theorem head?_guardComment (value : Text) : (guardComment value).head? = value.head? := by
  fun_cases guardComment <;> rfl

/-- A guarded comment does not end early. -/
theorem remark_guardComment (value : Text) (hs : Remark stop (' ' :: s)) :
    Remark stop (guardComment value ++ ' ' :: s) := by
  fun_induction guardComment value with
  | case1 value ih =>
      refine .char (fun _ => by simp) (.char (fun heq => absurd heq (by decide)) ?_)
      exact .char (fun heq => absurd heq (by decide)) ih
  | case2 d value hd ih =>
      refine .char (fun heq => ?_) ih
      change (guardComment value ++ ' ' :: s).head? ≠ some '/'
      rw [List.head?_append, head?_guardComment]
      cases value with
      | nil => simp
      | cons e value =>
          simp only [List.head?_cons, Option.some_or, ne_eq, Option.some.injEq]
          rintro rfl
          exact hd value heq rfl
  | case3 => exact hs

/-- A comment is a filling with no items. -/
theorem filling_comment (value : Text) : Filling must [] (printComment value) := by
  have hpiece : Filling must [] ('\x7b' :: (('/' :: '*' :: ' ' :: (guardComment value ++ text " */")) ++
      ['\x7d'])) := by
    apply Filling.one (by decide) (by decide)
    intro more stop s hs
    have hremark : Remark ('*' :: '/' :: '\x7d' :: s) (' ' :: '*' :: '/' :: '\x7d' :: s) :=
      .char (fun heq => absurd heq (by decide)) .stop
    have hbody := Remark.char (d := ' ') (fun heq => absurd heq (by decide))
      (remark_guardComment value hremark)
    have hcomment := Children.comment hbody hs
    have hends : text " */" ++ '\x7d' :: s = ' ' :: '*' :: '/' :: '\x7d' :: s := rfl
    simpa [hends] using hcomment
  have hprinted : printComment value =
      '\x7b' :: (('/' :: '*' :: ' ' :: (guardComment value ++ text " */")) ++ ['\x7d']) := by
    simp [printComment]
    rfl
  rwa [hprinted]

end Viewloom.Script
