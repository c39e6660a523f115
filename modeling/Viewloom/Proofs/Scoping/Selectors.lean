import Viewloom.Proofs.Scoping.Escapes

/-!
# Selector lists by their selectors

A selector list is built from selectors of types, ids, classes, attributes and pseudo-classes, which may
hold selector lists of their own. Scoping it scopes the names of its classes, and nothing else unless an
escaped dot looks like the dot of a class.
-/

namespace Viewloom.Css

/-! ## Selectors of attributes -/

/-- What stands in the brackets of an attribute selector. Behind an attribute's name an equals sign may
have a character in front. -/
inductive AttributePart where
  | word (name : Identifier)
  | quoted (quote : Quote) (body : Text) (h : isBody quote.1 body = true)
  | equals (before : Option Char) (h : before.all (text "~|^$*").contains = true)
  | blank (c : Char) (h : isSpace c = true)
  | comment (body : Text) (h : isOpen body = true)

namespace AttributePart

def text : AttributePart → Text
  | word name => name.text
  | quoted quote body _ => (Piece.quoted quote body).text
  | equals before _ => before.toList ++ ['=']
  | blank c _ => [c]
  | comment body _ => (Piece.comment body).text

/-- Whether a part ends in the escape of a slash. -/
def endsInSlash : AttributePart → Bool
  | word name => name.parts.getLast? == some (.escape '/')
  | _ => false

/-- Whether a part begins with an asterisk. -/
def beginsWithStar : AttributePart → Bool
  | equals (some '*') _ => true
  | _ => false

/-- Whether no escape in a part looks like a bracket or a quote. -/
def isLegible : AttributePart → Bool
  | word name => name.parts.all (NamePart.isLegible fun c => c == '[' || c == ']')
  | _ => true

/-- The same for all parts, in which no escaped slash looks like the opening of a comment. -/
def areLegible : List AttributePart → Bool
  | [] => true
  | p :: ps => p.isLegible && !(p.endsInSlash && ps.head?.any beginsWithStar) && areLegible ps

def textOf (ps : List AttributePart) : Text := ps.flatMap text

end AttributePart

/-! ## Selectors -/

/-- An item of a selector list. -/
inductive SelectorItem where
  | type (name : Identifier)
  | universal
  | hash (name : Identifier)
  | className (name : Identifier)
  | bracketed (parts : List AttributePart)
  | pseudo (isElement : Bool) (name : Identifier)
  | function (isElement : Bool) (name : Identifier) (inner : List SelectorItem)
  | combinator (c : Char) (h : (text ">+~").contains c = true)
  | comma
  | blank (c : Char) (h : isSpace c = true)
  | comment (body : Text) (h : isOpen body = true)

namespace SelectorItem

def colons (isElement : Bool) : Text := if isElement then [':', ':'] else [':']

mutual

/-- The text of an item, with a function applied to the names of classes. -/
def print (onClass : Text → Text) : SelectorItem → Text
  | type name => name.text
  | universal => ['*']
  | hash name => '#' :: name.text
  | className name => '.' :: onClass name.text
  | bracketed parts => '[' :: AttributePart.textOf parts ++ [']']
  | pseudo isElement name => colons isElement ++ name.text
  | function isElement name inner =>
    colons isElement ++ name.text ++ '(' :: printAll onClass inner ++ [')']
  | combinator c _ => [c]
  | comma => [',']
  | blank c _ => [c]
  | comment body _ => (Piece.comment body).text

def printAll (onClass : Text → Text) : List SelectorItem → Text
  | [] => []
  | item :: items => item.print onClass ++ printAll onClass items

end

/-- Whether an identifier of an item may go on behind it. -/
def endsOpen : SelectorItem → Bool
  | type _ | hash _ | className _ | pseudo _ _ => true
  | _ => false

/-- Whether an item begins a selector of its own. -/
def beginsCompound : SelectorItem → Bool
  | type _ | universal => true
  | _ => false

mutual

/-- Whether no type and no universal selector stands directly behind an identifier, in functions
either. -/
def isApart : SelectorItem → Bool
  | function _ _ inner => areApart inner
  | _ => true

/-- Whether no two items run into each other where they are written side by side. -/
def areApart : List SelectorItem → Bool
  | [] => true
  | item :: items =>
    item.isApart && !(item.endsOpen && items.head?.any beginsCompound) && areApart items

end

mutual

/-- Whether no escape outside of a class name looks like a bracket, a quote or the opening of a
comment. -/
def isLegible : SelectorItem → Bool
  | type name | hash name | pseudo _ name => NamePart.areLegible false name.parts
  | className name => NamePart.areLegible true name.parts
  | bracketed parts => AttributePart.areLegible parts
  | function _ name inner => NamePart.areLegible false name.parts && areLegible inner
  | _ => true

/-- Whether all items are read as what they are. -/
def areLegible : List SelectorItem → Bool
  | [] => true
  | item :: items => item.isLegible && areLegible items

end

mutual

/-- Whether an escaped dot outside of a class name looks like the dot of a class that is not scoped. -/
def exposesDot : SelectorItem → Bool
  | type name | hash name | pseudo _ name => NamePart.exposesDot false name.parts
  | className name => NamePart.exposesDot true name.parts
  | function _ name inner => NamePart.exposesDot false name.parts || exposeDot inner
  | _ => false

/-- Whether an item shows a dot that is not that of a class. -/
def exposeDot : List SelectorItem → Bool
  | [] => false
  | item :: items => item.exposesDot || exposeDot items

end

mutual

/-- What the scanner makes of an item. -/
def scanned : SelectorItem → Text
  | type name => NamePart.scanned false name.parts
  | hash name => '#' :: NamePart.scanned false name.parts
  | className name => '.' :: NamePart.scopeOf name.text ++ NamePart.scanned true name.parts
  | pseudo isElement name => colons isElement ++ NamePart.scanned false name.parts
  | function isElement name inner =>
    colons isElement ++ NamePart.scanned false name.parts ++ '(' :: scannedAll inner ++ [')']
  | item => item.print id

def scannedAll : List SelectorItem → Text
  | [] => []
  | item :: items => item.scanned ++ scannedAll items

end

end SelectorItem

/-- A selector by the grammar: items that stand apart. -/
structure SelectorList where
  items : List SelectorItem
  apart : SelectorItem.areApart items = true

/-! ## Within brackets -/

/-- A quoted text in a selector is copied. -/
theorem scopeSelectorAt_quoted {depth : Nat} (quote : Quote) {body : Text}
    (h : isBody quote.1 body = true) (s : Text) :
    scopeSelectorAt depth ((Piece.quoted quote body).text ++ s) =
      (Piece.quoted quote body).text ++ scopeSelectorAt depth s := by
  have hsplit := splitQuoted_end (ne_backslash_of_isQuote quote.2) h s
  have htext : (Piece.quoted quote body).text ++ s = quote.1 :: (body ++ quote.1 :: s) := by
    simp [Piece.text]
  rw [htext, scopeSelectorAt, if_pos quote.2, hsplit]
  · rfl
  · rintro t hq -
    exact absurd quote.2 (by rw [hq]; decide)

/-- A comment in a selector is copied. -/
theorem scopeSelectorAt_comment {depth : Nat} {body : Text} (h : isOpen body = true) (s : Text) :
    scopeSelectorAt depth ((Piece.comment body).text ++ s) =
      (Piece.comment body).text ++ scopeSelectorAt depth s := by
  have hsplit := splitComment_end h s
  have htext : (Piece.comment body).text ++ s = '/' :: '*' :: (body ++ '*' :: '/' :: s) := by
    simp [Piece.text]
  rw [htext, scopeSelectorAt, hsplit]
  rfl

section Brackets

variable {depth : Nat} {s : Text}

/-- Brackets keep a dot from looking like that of a class. -/
theorem scopeSelectorAt_escape {c : Char}
    (hlegible : (NamePart.escape c).isLegible (fun c => c == '[' || c == ']') = true)
    (hslash : c = '/' → s.head? ≠ some '*') :
    scopeSelectorAt (depth + 1) ('\\' :: c :: s) = '\\' :: c :: scopeSelectorAt (depth + 1) s := by
  have hbackslash : isIdle '\\' = true := by decide
  simp only [NamePart.isLegible, Bool.not_eq_true', Bool.or_eq_false_iff, beq_eq_false_iff_ne] at hlegible
  rw [scopeSelectorAt_idle hbackslash, scopeSelectorAt_copy hlegible.1 hslash]
  · simp [namesClass]
  · simp [bracketDepth, hlegible.2]

/-- Inside of brackets the parts of a name are copied. -/
theorem scopeSelectorAt_nameParts {ps : List NamePart} (hps : ps.all NamePart.isSound = true)
    (hlegible : ps.all (NamePart.isLegible fun c => c == '[' || c == ']') = true)
    (hs : ps.getLast? = some (.escape '/') → s.head? ≠ some '*') :
    scopeSelectorAt (depth + 1) (NamePart.textOf ps ++ s) =
      NamePart.textOf ps ++ scopeSelectorAt (depth + 1) s := by
  induction ps with
  | nil => rfl
  | cons p ps ih =>
      simp only [List.all_cons, Bool.and_eq_true] at hps hlegible
      have htext (t : Text) : NamePart.textOf (p :: ps) ++ t = p.text ++ (NamePart.textOf ps ++ t) := by
        simp [NamePart.textOf]
      have hrest := ih hps.2 hlegible.2 fun hlast => hs (by
        rw [List.getLast?_cons, hlast]
        rfl)
      rw [htext, htext, ← hrest]
      cases p with
      | point c => exact scopeSelectorAt_idle (isIdle_of_isNamePoint hps.1) _
      | code digits blank => exact scopeSelectorAt_idle_append (NamePart.all_isIdle_code hps.1) _
      | escape c =>
          apply scopeSelectorAt_escape hlegible.1
          rintro rfl
          apply NamePart.head?_textOf_ne hps.2
          rintro rfl
          exact hs rfl

theorem head?_attributeText {ps : List AttributePart}
    (hps : ps.head?.any AttributePart.beginsWithStar = false) :
    (AttributePart.textOf ps ++ ']' :: s).head? ≠ some '*' := by
  cases ps with
  | nil => simp [AttributePart.textOf]
  | cons p ps =>
      have htext : AttributePart.textOf (p :: ps) ++ ']' :: s =
          p.text ++ (AttributePart.textOf ps ++ ']' :: s) := by simp [AttributePart.textOf]
      rw [htext]
      cases p with
      | word name =>
          refine NamePart.head?_textOf_ne name.sound fun hnil => ?_
          have hbegins := name.begins
          rw [hnil] at hbegins
          cases hbegins
      | quoted quote body h =>
          intro heq
          obtain hq : quote.1 = '*' := by simpa [AttributePart.text, Piece.text] using heq
          exact absurd quote.2 (by rw [hq]; decide)
      | equals before h =>
          cases before with
          | none => simp [AttributePart.text]
          | some c =>
              intro heq
              obtain rfl : c = '*' := by simpa [AttributePart.text] using heq
              cases hps
      | blank c h =>
          intro heq
          obtain rfl : c = '*' := by simpa [AttributePart.text] using heq
          cases h
      | comment body h => simp [AttributePart.text, Piece.text]

/-- What stands in brackets is copied. -/
theorem scopeSelectorAt_attribute {ps : List AttributePart} (h : AttributePart.areLegible ps = true) :
    scopeSelectorAt (depth + 1) (AttributePart.textOf ps ++ ']' :: s) =
      AttributePart.textOf ps ++ ']' :: scopeSelectorAt depth s := by
  induction ps with
  | nil =>
      have hclose : namesClass (depth + 1) ']' s = false := rfl
      rw [AttributePart.textOf, List.flatMap_nil, List.nil_append, scopeSelectorAt, if_neg (by decide),
        if_neg (by simp [hclose])]
      · rfl
      · exact fun _ hc => absurd hc (by decide)
  | cons p ps ih =>
      simp only [AttributePart.areLegible, Bool.and_eq_true, Bool.not_eq_true',
        Bool.and_eq_false_iff] at h
      obtain ⟨⟨hlegible, hstar⟩, hrest⟩ := h
      have htext (t : Text) :
          AttributePart.textOf (p :: ps) ++ t = p.text ++ (AttributePart.textOf ps ++ t) := by
        simp [AttributePart.textOf]
      rw [htext, htext, ← ih hrest]
      cases p with
      | word name =>
          refine scopeSelectorAt_nameParts name.sound hlegible fun hlast => ?_
          refine head?_attributeText (hstar.resolve_left ?_)
          simp [AttributePart.endsInSlash, hlast]
      | quoted quote body hbody => exact scopeSelectorAt_quoted quote hbody _
      | equals before hbefore =>
          refine scopeSelectorAt_idle_append ?_ _
          cases before with
          | none => exact (by decide : ['='].all isIdle = true)
          | some c =>
              have hall : (text "~|^$*").all isIdle = true := by decide
              have hc := List.all_eq_true.1 hall c (List.contains_iff_mem.1 hbefore)
              have hequals : isIdle '=' = true := by decide
              simp [AttributePart.text, hc, hequals]
      | blank c hc => exact scopeSelectorAt_idle (isIdle_of_isSpace hc) _
      | comment body hbody => exact scopeSelectorAt_comment hbody _

end Brackets

/-! ## Between selectors -/

/-- Behind items that do not begin a compound selector an identifier has ended. -/
theorem endsIdentifier_printAll {onClass : Text → Text} {items : List SelectorItem} {s : Text}
    (hitems : items.head?.any SelectorItem.beginsCompound = false) (hs : endsIdentifier s = true) :
    endsIdentifier (SelectorItem.printAll onClass items ++ s) = true := by
  cases items with
  | nil => exact hs
  | cons item items =>
      have hcolon (isElement : Bool) (t : Text) :
          endsIdentifier (SelectorItem.colons isElement ++ t) = true := by
        cases isElement <;> exact (by decide +kernel : isStop ':' = true)
      cases item with
      | type name => cases hitems
      | universal => cases hitems
      | hash name => exact (by decide +kernel : isStop '#' = true)
      | className name => exact (by decide +kernel : isStop '.' = true)
      | bracketed parts => exact (by decide +kernel : isStop '[' = true)
      | pseudo isElement name => simpa [SelectorItem.printAll, SelectorItem.print] using hcolon _ _
      | function isElement name inner =>
          simpa [SelectorItem.printAll, SelectorItem.print] using hcolon _ _
      | combinator c h =>
          have hall : (text ">+~").all isStop = true := by decide +kernel
          exact List.all_eq_true.1 hall c (List.contains_iff_mem.1 h)
      | comma => exact (by decide +kernel : isStop ',' = true)
      | blank c h => exact isStop_of_isSpace h
      | comment body h => exact (by decide +kernel : isStop '/' = true)

/-! ## What the scanner makes of selectors -/

section Names

variable {s : Text} (hs : endsIdentifier s = true)
include hs

/-- A name that is no class keeps its text but for the points the scanner takes for dots of classes.
-/
theorem scopeSelectorAt_name {name : Identifier}
    (hlegible : NamePart.areLegible false name.parts = true) :
    scopeSelectorAt 0 (name.text ++ s) =
      NamePart.scanned false name.parts ++ scopeSelectorAt 0 s :=
  NamePart.resume_textOf name.sound hlegible hs

/-- The name behind the dot of a class gets the prefix it needs and what its own escapes insert. -/
theorem scopeSelectorAt_className {name : Identifier}
    (hlegible : NamePart.areLegible true name.parts = true) :
    scopeSelectorAt 0 ('.' :: (name.text ++ s)) =
      '.' :: (NamePart.scopeOf name.text ++ NamePart.scanned true name.parts) ++
        scopeSelectorAt 0 s := by
  have hclass : namesClass 0 '.' (name.text ++ s) = true := by
    rw [Identifier.text, NamePart.namesClass_textOf name.sound hs]
    exact NamePart.any_of_beginsName name.begins
  have hscope : NamePart.scopeOf (splitName (name.text ++ s)).1 = NamePart.scopeOf name.text := by
    simp only [NamePart.scopeOf, startsWith_splitName hs]
  have hrest := NamePart.resume_textOf name.sound hlegible hs
  rw [NamePart.resume, if_pos rfl] at hrest
  rw [scopeSelectorAt, if_neg (by decide), if_pos hclass, scopeClassName_eq, hscope]
  · rw [List.cons_append, List.cons_append, List.append_assoc, List.append_assoc, ← hrest]
    rfl
  · exact fun _ hc => absurd hc (by decide)

end Names

namespace SelectorItem

/-- The colons of a pseudo-class or a pseudo-element are copied. -/
theorem scopeSelectorAt_colons (isElement : Bool) (s : Text) :
    scopeSelectorAt 0 (colons isElement ++ s) = colons isElement ++ scopeSelectorAt 0 s := by
  apply scopeSelectorAt_idle_append
  cases isElement <;> decide

mutual

/-- One legible item is scanned to what its parts say, and the rest from there. -/
theorem scopeSelectorAt_print : ∀ {item : SelectorItem} {s : Text}, item.isApart = true →
    item.isLegible = true → (item.endsOpen = true → endsIdentifier s = true) →
      scopeSelectorAt 0 (item.print id ++ s) = item.scanned ++ scopeSelectorAt 0 s
  | type name, s, _, hlegible, hs => scopeSelectorAt_name (hs rfl) hlegible
  | hash name, s, _, hlegible, hs => by
      have hidle : isIdle '#' = true := by decide
      rw [print, List.cons_append, scopeSelectorAt_idle hidle, scopeSelectorAt_name (hs rfl) hlegible]
      rfl
  | className name, s, _, hlegible, hs => scopeSelectorAt_className (hs rfl) hlegible
  | pseudo isElement name, s, _, hlegible, hs => by
      rw [print, List.append_assoc, scopeSelectorAt_colons, scopeSelectorAt_name (hs rfl) hlegible,
        scanned, List.append_assoc]
  | function isElement name inner, s, hapart, hlegible, _ => by
      simp only [isLegible, Bool.and_eq_true] at hlegible
      have hopen : isIdle '(' = true := by decide
      have hclose : isIdle ')' = true := by decide
      have hopens : endsIdentifier ('(' :: (printAll id inner ++ ')' :: s)) = true :=
        (by decide +kernel : isStop '(' = true)
      have hcloses : endsIdentifier (')' :: s) = true := (by decide +kernel : isStop ')' = true)
      have htext : (function isElement name inner).print id ++ s =
          colons isElement ++ (name.text ++ '(' :: (printAll id inner ++ ')' :: s)) := by
        simp [print]
      rw [htext, scopeSelectorAt_colons, scopeSelectorAt_name hopens hlegible.1,
        scopeSelectorAt_idle hopen, scopeSelectorAt_printAll hapart hlegible.2 hcloses,
        scopeSelectorAt_idle hclose]
      simp [scanned]
  | universal, s, _, _, _ => scopeSelectorAt_idle (by decide) s
  | bracketed parts, s, _, hlegible, _ => by
      have hopen : namesClass 0 '[' (AttributePart.textOf parts ++ ']' :: s) = false := rfl
      have htext : (bracketed parts).print id ++ s =
          '[' :: (AttributePart.textOf parts ++ ']' :: s) := by
        simp [print]
      rw [htext, scopeSelectorAt, if_neg (by decide), if_neg (by simp [hopen])]
      · have hdepth : bracketDepth 0 '[' = 0 + 1 := rfl
        rw [hdepth, scopeSelectorAt_attribute hlegible]
        simp [scanned, print]
      · exact fun _ hc => absurd hc (by decide)
  | combinator c h, s, _, _, _ => by
      have hall : (text ">+~").all isIdle = true := by decide
      exact scopeSelectorAt_idle (List.all_eq_true.1 hall c (List.contains_iff_mem.1 h)) s
  | comma, s, _, _, _ => scopeSelectorAt_idle (by decide) s
  | blank c h, s, _, _, _ => scopeSelectorAt_idle (isIdle_of_isSpace h) s
  | comment body h, s, _, _, _ => scopeSelectorAt_comment h s

/-- Legible items in a row are scanned one by one. -/
theorem scopeSelectorAt_printAll : ∀ {items : List SelectorItem} {s : Text}, areApart items = true →
    areLegible items = true → endsIdentifier s = true →
      scopeSelectorAt 0 (printAll id items ++ s) = scannedAll items ++ scopeSelectorAt 0 s
  | [], s, _, _, _ => rfl
  | item :: items, s, hapart, hlegible, hs => by
      simp only [areApart, areLegible, Bool.and_eq_true, Bool.not_eq_true',
        Bool.and_eq_false_iff] at hapart hlegible
      have hnext : item.endsOpen = true → endsIdentifier (printAll id items ++ s) = true := fun hopen =>
        endsIdentifier_printAll (hapart.1.2.resolve_left (by simp [hopen])) hs
      rw [printAll, List.append_assoc, scopeSelectorAt_print hapart.1.1 hlegible.1 hnext,
        scopeSelectorAt_printAll hapart.2 hlegible.2 hs, scannedAll, List.append_assoc]

end

end SelectorItem

/-! ## Where nothing else is scoped -/

/-- A text is another one, or longer than it if something is put in. -/
def Grows (more : Bool) (x y : Text) : Prop := if more then y.length < x.length else x = y

namespace Grows

variable {a b : Bool} {x x' y y' : Text}

theorem refl (x : Text) : Grows false x x := rfl

theorem append (h : Grows a x y) (h' : Grows b x' y') : Grows (a || b) (x ++ x') (y ++ y') := by
  cases a <;> cases b <;> simp_all [Grows]
  omega

/-- A text grows to itself exactly if nothing is inserted. -/
theorem eq_iff (h : Grows a x y) : x = y ↔ a = false := by
  cases a with
  | false => simpa [Grows] using h
  | true =>
      have hlt : y.length < x.length := h
      simp only [Bool.true_eq_false, iff_false]
      rintro rfl
      omega

end Grows

theorem NamePart.grows_insertion (named : Bool) (p : NamePart) (ps : List NamePart) :
    Grows (insertion named p ps != []) (insertion named p ps) [] := by
  cases h : insertion named p ps with
  | nil => rfl
  | cons c s => exact Nat.succ_pos _

/-- A name grows when it is scanned exactly if it exposes a dot. -/
theorem NamePart.grows_scanned (named : Bool) (ps : List NamePart) :
    Grows (exposesDot named ps) (scanned named ps) (textOf ps) := by
  induction ps generalizing named with
  | nil => exact Grows.refl []
  | cons p ps ih =>
      exact (Grows.refl p.text).append ((grows_insertion named p ps).append (ih (inName named p ps)))

namespace SelectorItem

mutual

/-- An item grows beyond its scoped form exactly if it exposes a dot. -/
theorem grows_scanned : ∀ item : SelectorItem,
    Grows item.exposesDot item.scanned (item.print scopeClassName)
  | type name => NamePart.grows_scanned false name.parts
  | hash name => (Grows.refl ['#']).append (NamePart.grows_scanned false name.parts)
  | className name => by
      have h := (Grows.refl ('.' :: NamePart.scopeOf name.text)).append
        (NamePart.grows_scanned true name.parts)
      rw [print, scopeClassName_eq]
      exact h
  | pseudo isElement name =>
      (Grows.refl (colons isElement)).append (NamePart.grows_scanned false name.parts)
  | function isElement name inner => by
      have h := ((Grows.refl (colons isElement)).append
        (NamePart.grows_scanned false name.parts)).append
          ((Grows.refl ['(']).append ((growsAll_scanned inner).append (Grows.refl [')'])))
      simpa [scanned, print, exposesDot, Identifier.text] using h
  | universal => Grows.refl _
  | bracketed parts => Grows.refl _
  | combinator c h => Grows.refl _
  | comma => Grows.refl _
  | blank c h => Grows.refl _
  | comment body h => Grows.refl _

/-- Items grow beyond their scoped form exactly if one of them exposes a dot. -/
theorem growsAll_scanned : ∀ items : List SelectorItem,
    Grows (exposeDot items) (scannedAll items) (printAll scopeClassName items)
  | [] => Grows.refl _
  | item :: items => (grows_scanned item).append (growsAll_scanned items)

end

end SelectorItem

/-- In a selector list whose escapes look like no brackets, quotes and comments, the names of classes are
scoped and nothing else, exactly if no escaped dot looks like the dot of a class. -/
theorem scopeSelector_printAll_iff (list : SelectorList)
    (legible : SelectorItem.areLegible list.items = true) :
    scopeSelector (SelectorItem.printAll id list.items) =
        SelectorItem.printAll scopeClassName list.items ↔
      SelectorItem.exposeDot list.items = false := by
  have hscan := SelectorItem.scopeSelectorAt_printAll list.apart legible (s := []) rfl
  rw [List.append_nil, scopeSelectorAt_eq_nil rfl, List.append_nil] at hscan
  rw [scopeSelector, hscan]
  exact (SelectorItem.growsAll_scanned list.items).eq_iff

/-- An identifier without escapes. -/
def Identifier.ofText (name : Text) (h : (name.map NamePart.point).all NamePart.isSound = true)
    (hbegins : NamePart.beginsName (name.map .point) = true) : Identifier :=
  ⟨name.map .point, h, hbegins⟩

/-- Selectors of all kinds, with dots in a class name, a string, a comment and an attribute. -/
def mixedList : SelectorList where
  items :=
    [.type (.ofText (text "ul") (by decide) (by decide)), .blank '\t' rfl, .combinator '>' rfl,
      .hash ⟨[.point 'a', .escape ':', .point 'b'], by decide, by decide⟩,
      .className ⟨[.point 'c', .escape '.', .point 'd', .code (text "2e") [' '], .point 'e'], by decide,
        by decide⟩,
      .bracketed [.word ⟨[.point 'f', .escape '.', .point 'g'], by decide, by decide⟩,
        .equals (some '^') rfl, .quoted ⟨'\'', rfl⟩ (text ".h]") (by decide)],
      .function false (.ofText (text "not") (by decide) (by decide))
        [.className (.ofText (text "__af-i") (by decide) (by decide)), .comma, .universal],
      .comment (text ".j") (by decide)]
  apart := by decide

/-- An id with an escaped dot. -/
def dottedId : SelectorList :=
  ⟨[.hash ⟨[.point 'a', .escape '.', .point 'b'], by decide, by decide⟩], by decide⟩

theorem scopeSelector_printAll_iff_mixedList :
    (SelectorItem.areLegible mixedList.items = true ∧
      scopeSelector (text "ul\t>#a\\:b.c\\.d\\2e e[f\\.g^='.h]']:not(.__af-i,*)/*.j*/") =
        text "ul\t>#a\\:b.__af-c\\.d\\2e e[f\\.g^='.h]']:not(.__af-i,*)/*.j*/") ∧
    SelectorItem.areLegible dottedId.items = true ∧
      scopeSelector (text "#a\\.b") ≠ text "#a\\.b" := by
  have legible : SelectorItem.areLegible mixedList.items = true := by decide +kernel
  have legible' : SelectorItem.areLegible dottedId.items = true := by decide +kernel
  have hmixed := (scopeSelector_printAll_iff mixedList legible).2 (by decide +kernel)
  have hdotted := mt (scopeSelector_printAll_iff dottedId legible').1 (by decide +kernel)
  exact ⟨⟨legible, hmixed⟩, legible', hdotted⟩

/-- An escaped quote hides the classes behind it. -/
example : scopeSelector (text "#a\\\" .b") = text "#a\\\" .b" := by decide +kernel

end Viewloom.Css
