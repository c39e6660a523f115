import Mathlib.Tactic.SplitIfs
import Viewloom.Proofs.Html.Attributes

/-!
# Attributes through the insertion modes

Every mode gives new elements the attributes of the token it processes or none, so the attributes of a
whole document are attributes of its tags.
-/

namespace Viewloom.Html

/-- What holds of the attributes of a state holds of what becomes of a token there. -/
def Outcome.Keeps (p : List Attribute → Prop) : Outcome → Prop
  | done b => b.Keeps p
  | again b token => b.Keeps p ∧ token.Keeps p

theorem Outcome.Keeps.ite {p : List Attribute → Prop} {o o' : Outcome} {c : Prop} [Decidable c]
    (h : o.Keeps p) (h' : o'.Keeps p) : (if c then o else o').Keeps p := by
  split
  · exact h
  · exact h'

namespace Builder

variable {p : List Attribute → Prop} {b : Builder} {token : Token} {name : Text}
  {attributes : List Attribute}

namespace Keeps

-- A mode counts nothing, so `grind` is spared the search for linear arithmetic.

@[grind ←]
theorem withDropNewline (h : Keeps p b) (dropNewline : Bool) :
    Keeps p { b with dropNewline := dropNewline } := { h with }

@[grind ←]
theorem withReading (h : Keeps p b) (reading : Reading) :
    Keeps p { b with reading := reading } := { h with }

@[grind ←]
theorem withFostering (h : Keeps p b) (fostering : Bool) :
    Keeps p { b with fostering := fostering } := { h with }

@[grind ←]
theorem withForm (h : Keeps p b) (form : Option Nat) : Keeps p { b with form := form } := { h with }

/-! ### The head -/

/-- The attributes of a second root are merged, which keeps what can be kept. -/
@[grind ←]
theorem mergeRoot (h : Keeps p b) (hp : Admits p) (hattributes : p attributes) :
    Keeps p (b.mergeRoot attributes) := by
  unfold Builder.mergeRoot
  split
  · split
    · exact h
    · exact { h with trees := Tree.eachOf_addMissingAll (hp.missing · hattributes) h.trees }
  · exact h

@[grind ←]
theorem endTemplate (h : Keeps p b) : Keeps p b.endTemplate := by
  unfold Builder.endTemplate
  extract_lets popped cleared
  have hcleared : Keeps p cleared := by grind -linarith
  exact { hcleared with }

@[grind ←]
theorem headEndTemplate (h : Keeps p b) : Keeps p b.headEndTemplate := h.endTemplate.ite h

/-- A start tag of the head keeps a property of attributes. -/
@[grind ←]
theorem headStart (h : Keeps p b) (name : Text) (hattributes : p attributes) :
    Keeps p (b.headStart name attributes) := by
  unfold Builder.headStart
  split_ifs
  · grind -linarith
  · grind -linarith
  · grind -linarith
  · have hopened : Keeps p (b.openHtml name attributes).pushMarker.noFrameset := by grind -linarith
    exact { hopened with }
  · grind -linarith

@[grind ←]
theorem openHead (h : Keeps p b) (hattributes : p attributes) :
    Keeps p (b.openHead attributes) := by
  have hopened : Keeps p ((b.openHtml (text "head") attributes).withMode .inHead) := by grind -linarith
  refine { hopened with head := fun o ho => hopened.stack o ?_ }
  exact List.mem_of_mem_head? ho

@[grind ←]
theorem openBody (h : Keeps p b) (hattributes : p attributes) :
    Keeps p (b.openBody attributes) :=
  (h.openHtml (text "body") hattributes).withMode .inBody

theorem initial (h : Keeps p b) (htoken : token.Keeps p) : (b.initial token).Keeps p := by
  have hpassed : Keeps p { b with quirks := true, mode := .beforeHtml } := { h with }
  unfold Builder.initial
  split
  · split
    · exact h
    · exact ⟨hpassed, htoken⟩
  · exact h.insertAt _ trivial
  · exact { h with }
  · exact ⟨hpassed, htoken⟩

theorem beforeHtml (h : Keeps p b) (hp : Admits p) (htoken : token.Keeps p) :
    (b.beforeHtml token).Keeps p := by
  have hopened : Keeps p ((b.openHtml (text "html") []).withMode .beforeHead) := by
    grind -linarith [hp.nil]
  unfold Builder.beforeHtml
  cases token with
  | startTag name attributes selfClosing => grind -linarith [Outcome.Keeps, Token.Keeps]
  | comment value => exact h.insertAt _ trivial
  | _ => grind -linarith [Outcome.Keeps, Token.Keeps]

theorem beforeHead (h : Keeps p b) (hp : Admits p) (htoken : token.Keeps p) :
    (b.beforeHead token).Keeps p := by
  have hopened : Keeps p (b.openHead []) := h.openHead hp.nil
  unfold Builder.beforeHead
  cases token with
  | _ => grind -linarith [Outcome.Keeps, Token.Keeps]

/-- In the head a token keeps a property that its attributes have. -/
theorem inHead (h : Keeps p b) (hp : Admits p) (htoken : token.Keeps p) :
    (b.inHead token).Keeps p := by
  unfold Builder.inHead
  cases token with
  | _ => grind -linarith [Outcome.Keeps, Token.Keeps]

theorem afterHead (h : Keeps p b) (hp : Admits p) (htoken : token.Keeps p) :
    (b.afterHead token).Keeps p := by
  unfold Builder.afterHead
  have hopened : Keeps p (b.openBody []) := h.openBody hp.nil
  cases token with
  | startTag name attributes selfClosing =>
      have hmerged := h.mergeRoot hp htoken
      have hhead : ∀ head, b.head = some head →
          Keeps p { b with stack := head :: b.stack } := fun head hhead =>
        h.withStack fun o ho => (List.mem_cons.1 ho).elim (· ▸ h.head head hhead) (h.stack o)
      grind -linarith [Outcome.Keeps, Token.Keeps]
  | _ => grind -linarith [Outcome.Keeps, Token.Keeps]

theorem inText (h : Keeps p b) (htoken : token.Keeps p) : (b.inText token).Keeps p := by
  unfold Builder.inText
  cases token with
  | _ => grind -linarith [Outcome.Keeps]

/-! ### The body -/

@[grind ←]
theorem openForeign (h : Keeps p b) (name : Name) (hattributes : p attributes)
    (selfClosing : Bool) : Keeps p (b.openForeign name attributes selfClosing) :=
  (h.openElement name hattributes).pop.ite (h.openElement name hattributes)

@[grind ←]
theorem closeItem (h : Keeps p b) (names : List Text) : Keeps p (b.closeItem names) := by
  unfold Builder.closeItem
  grind -linarith

@[grind ←]
theorem openItem (h : Keeps p b) (names : List Text) (name : Text) (hattributes : p attributes) :
    Keeps p (b.openItem names name attributes) := by
  unfold Builder.openItem
  grind -linarith

@[grind ←]
theorem closeLink (h : Keeps p b) : Keeps p b.closeLink := by
  unfold Builder.closeLink
  grind -linarith

@[grind ←]
theorem bodyChars (h : Keeps p b) (value : Text) : Keeps p (b.bodyChars value) := by
  unfold Builder.bodyChars
  grind -linarith

@[grind ←]
theorem replaceBody (h : Keeps p b) (hattributes : p attributes) :
    Keeps p (b.replaceBody attributes) := by
  unfold Builder.replaceBody
  split
  next root body rest hstack =>
    have hroot : root ∈ b.stack := by
      rw [← List.mem_reverse, hstack]
      exact List.mem_cons_self
    have hreplaced : Keeps p { b with trees := Tree.removeAll body.id b.trees, stack := [root] } :=
      { h with
        trees := Tree.eachOf_removeAll body.id h.trees
        stack := fun o ho => List.mem_singleton.1 ho ▸ h.stack root hroot }
    grind -linarith
  · exact h

/-- The attributes of a second body are merged, which keeps what can be kept. -/
@[grind ←]
theorem mergeBody (h : Keeps p b) (hp : Admits p) (hattributes : p attributes) :
    Keeps p (b.mergeBody attributes) := by
  unfold Builder.mergeBody
  split
  next root body rest hstack =>
    have hmerged : Keeps p { b with trees := Tree.addMissingAll body.id attributes b.trees } :=
      { h with trees := Tree.eachOf_addMissingAll (hp.missing · hattributes) h.trees }
    exact hmerged.noFrameset.ite h
  · exact h

@[grind ←]
theorem openForm (h : Keeps p b) (hattributes : p attributes) : Keeps p (b.openForm attributes) := by
  have hopened : Keeps p (b.endParagraph.openHtml (text "form") attributes) := by grind -linarith
  exact h.ite (hopened.ite { hopened with })

/-- A start tag in the body keeps a property that its attributes have. -/
@[grind ←]
theorem bodyStart (h : Keeps p b) (hp : Admits p) (name : Text) (hattributes : p attributes)
    (selfClosing : Bool) : Keeps p (b.bodyStart name attributes selfClosing) := by
  unfold Builder.bodyStart
  repeat' with_reducible apply ite
  all_goals grind -linarith [hp.foreign]

@[grind ←]
theorem closeForm (h : Keeps p b) : Keeps p b.closeForm := by
  unfold Builder.closeForm
  grind -linarith

/-- An end tag in the body keeps a property of attributes. -/
@[grind ←]
theorem bodyEnd (h : Keeps p b) (hp : Admits p) (name : Text) : Keeps p (b.bodyEnd name) := by
  have hnil : p [] := hp.nil
  unfold Builder.bodyEnd
  repeat' with_reducible apply ite
  all_goals grind -linarith

@[grind ←]
theorem templateEnd (h : Keeps p b) : b.templateEnd.Keeps p := by
  unfold Builder.templateEnd
  split
  · have hpopped : Keeps p (b.popThroughNamed (text "template")).clearToMarker := by grind -linarith
    exact ⟨{ hpopped with }, trivial⟩
  · exact h

/-- In the body a token keeps a property that its attributes have. -/
@[grind ←]
theorem inBody (h : Keeps p b) (hp : Admits p) (htoken : token.Keeps p) : (b.inBody token).Keeps p := by
  unfold Builder.inBody
  cases token with
  | startTag name attributes selfClosing => exact h.bodyStart hp name htoken selfClosing
  | _ => grind -linarith [Outcome.Keeps, Token.Keeps]

@[grind ←]
theorem insertCommentAt (h : Keeps p b) (place : Place) (value : Text) :
    Keeps p (b.insertAt place (.comment value)) :=
  h.insertAt place trivial

theorem afterBody (h : Keeps p b) (hp : Admits p) (htoken : token.Keeps p) :
    (b.afterBody token).Keeps p := by
  unfold Builder.afterBody
  cases token with
  | _ => grind -linarith [Outcome.Keeps, Token.Keeps]

theorem afterAfterBody (h : Keeps p b) (hp : Admits p) (htoken : token.Keeps p) :
    (b.afterAfterBody token).Keeps p := by
  unfold Builder.afterAfterBody
  cases token with
  | _ => grind -linarith [Outcome.Keeps, Token.Keeps]

/-! ### Tables -/

/-- What is put in front of a table keeps a property that its attributes have. -/
@[grind ←]
theorem foster (h : Keeps p b) (hp : Admits p) (htoken : token.Keeps p) : (b.foster token).Keeps p := by
  have hinside := (h.withFostering true).inBody hp htoken
  unfold Builder.foster
  split
  next b' houtcome =>
    rw [houtcome] at hinside
    exact hinside.withFostering false
  next b' token' houtcome =>
    rw [houtcome] at hinside
    exact ⟨hinside.1.withFostering false, hinside.2⟩

@[grind ←]
theorem closeTable (h : Keeps p b) : Keeps p b.closeTable := by
  unfold Builder.closeTable
  grind -linarith

@[grind ←]
theorem openCaption (h : Keeps p b) (hattributes : p attributes) :
    Keeps p (b.openCaption attributes) := by
  unfold Builder.openCaption
  grind -linarith

/-- In a table a token keeps a property that its attributes have. -/
@[grind ←]
theorem inTable (h : Keeps p b) (hp : Admits p) (htoken : token.Keeps p) :
    (b.inTable token).Keeps p := by
  have hnil : p [] := hp.nil
  unfold Builder.inTable
  cases token with
  | startTag name attributes selfClosing =>
      have hattributes : p attributes := htoken
      repeat' with_reducible apply Outcome.Keeps.ite
      all_goals grind -linarith [Outcome.Keeps]
  | chars value =>
      have htext : Keeps p { b with mode := .inTableText, returnMode := b.mode, tableText := [] } :=
        { h with }
      grind -linarith [Outcome.Keeps, Token.Keeps]
  | _ => grind -linarith [Outcome.Keeps, Token.Keeps]

@[grind ←]
theorem flushTableText (h : Keeps p b) : Keeps p b.flushTableText := by
  have hfold : ∀ {insert : Builder → Text → Builder}, (∀ {b} value, Keeps p b → Keeps p (insert b value)) →
      ∀ (pieces : List Text) {b : Builder}, Keeps p b → Keeps p (pieces.foldl insert b) := by
    intro insert hinsert pieces
    induction pieces with
    | nil => exact fun h => h
    | cons value pieces ih => exact fun h => ih (hinsert value h)
  have hempty : Keeps p { b with tableText := [], mode := b.returnMode } := { h with }
  unfold Builder.flushTableText
  extract_lets pieces state
  refine ite ?_ ?_
  · exact hfold (fun value h => h.insertText value) pieces hempty
  · exact (hfold (fun value h => h.bodyChars value) pieces (hempty.withFostering true)).withFostering false

theorem inTableText (h : Keeps p b) (htoken : token.Keeps p) : (b.inTableText token).Keeps p := by
  unfold Builder.inTableText
  cases token with
  | chars value => exact { h with }
  | _ => grind -linarith [Outcome.Keeps]

@[grind ←]
theorem closeCaption (h : Keeps p b) : Keeps p b.closeCaption := by
  unfold Builder.closeCaption
  grind -linarith

theorem inCaption (h : Keeps p b) (hp : Admits p) (htoken : token.Keeps p) :
    (b.inCaption token).Keeps p := by
  unfold Builder.inCaption
  cases token with
  | _ => grind -linarith [Outcome.Keeps]

theorem inColumnGroup (h : Keeps p b) (hp : Admits p) (htoken : token.Keeps p) :
    (b.inColumnGroup token).Keeps p := by
  unfold Builder.inColumnGroup
  cases token with
  | _ => grind -linarith [Outcome.Keeps, Token.Keeps]

@[grind ←]
theorem leaveTableBody (h : Keeps p b) : Keeps p b.leaveTableBody := by
  unfold Builder.leaveTableBody
  grind -linarith

theorem inTableBody (h : Keeps p b) (hp : Admits p) (htoken : token.Keeps p) :
    (b.inTableBody token).Keeps p := by
  have hnil : p [] := hp.nil
  unfold Builder.inTableBody
  cases token with
  | _ => grind -linarith [Outcome.Keeps, Token.Keeps]

@[grind ←]
theorem leaveRow (h : Keeps p b) : Keeps p b.leaveRow := by
  unfold Builder.leaveRow
  grind -linarith

theorem inRow (h : Keeps p b) (hp : Admits p) (htoken : token.Keeps p) :
    (b.inRow token).Keeps p := by
  unfold Builder.inRow
  cases token with
  | _ => grind -linarith [Outcome.Keeps, Token.Keeps]

@[grind ←]
theorem closeCell (h : Keeps p b) : Keeps p b.closeCell := by
  unfold Builder.closeCell
  grind -linarith

theorem inCell (h : Keeps p b) (hp : Admits p) (htoken : token.Keeps p) :
    (b.inCell token).Keeps p := by
  unfold Builder.inCell
  cases token with
  | _ => grind -linarith [Outcome.Keeps]

/-! ### Select elements, templates and framesets -/

@[grind ←]
theorem closeSelect (h : Keeps p b) : Keeps p b.closeSelect := by
  unfold Builder.closeSelect
  grind -linarith

@[grind ←]
theorem popNamed (h : Keeps p b) (name : Text) : Keeps p (b.popNamed name) := h.pop.ite h

@[grind ←]
theorem endGroup (h : Keeps p b) : Keeps p b.endGroup := by
  unfold Builder.endGroup
  grind -linarith

/-- In a menu of choices a token keeps a property that its attributes have. -/
@[grind ←]
theorem inSelect (h : Keeps p b) (hp : Admits p) (htoken : token.Keeps p) :
    (b.inSelect token).Keeps p := by
  unfold Builder.inSelect
  cases token with
  | _ => grind -linarith [Outcome.Keeps, Token.Keeps]

theorem inSelectInTable (h : Keeps p b) (hp : Admits p) (htoken : token.Keeps p) :
    (b.inSelectInTable token).Keeps p := by
  unfold Builder.inSelectInTable
  cases token with
  | _ => grind -linarith [Outcome.Keeps]

@[grind ←]
theorem enterTemplateMode (h : Keeps p b) (mode : Mode) (htoken : token.Keeps p) :
    (b.enterTemplateMode mode token).Keeps p :=
  ⟨{ h with }, htoken⟩

/-- In a template a token keeps a property that its attributes have. -/
theorem inTemplate (h : Keeps p b) (hp : Admits p) (htoken : token.Keeps p) :
    (b.inTemplate token).Keeps p := by
  unfold Builder.inTemplate
  cases token with
  | _ => grind -linarith [Outcome.Keeps, Token.Keeps]

theorem inFrameset (h : Keeps p b) (hp : Admits p) (htoken : token.Keeps p) :
    (b.inFrameset token).Keeps p := by
  unfold Builder.inFrameset
  cases token with
  | _ => grind -linarith [Outcome.Keeps, Token.Keeps]

theorem afterFrameset (h : Keeps p b) (hp : Admits p) (htoken : token.Keeps p) :
    (b.afterFrameset token).Keeps p := by
  unfold Builder.afterFrameset
  cases token with
  | _ => grind -linarith [Outcome.Keeps, Token.Keeps]

theorem afterAfterFrameset (h : Keeps p b) (hp : Admits p) (htoken : token.Keeps p) :
    (b.afterAfterFrameset token).Keeps p := by
  unfold Builder.afterAfterFrameset
  cases token with
  | _ => grind -linarith [Outcome.Keeps, Token.Keeps]

/-! ### Foreign content -/

@[grind ←]
theorem breakOut (h : Keeps p b) : Keeps p b.breakOut := h.sublist (List.dropWhile_sublist _)

/-- A foreign start tag keeps a property that can be kept where names are adjusted. -/
@[grind ←]
theorem foreignStart (h : Keeps p b) (hp : Admits p) (name : Text) (hattributes : p attributes)
    (selfClosing : Bool) : Keeps p (b.foreignStart name attributes selfClosing) := by
  unfold Builder.foreignStart
  split
  · exact h
  · exact h.openForeign _ (hp.foreign _ hattributes) selfClosing

/-- In foreign content a token keeps a property that it keeps elsewhere. -/
theorem inForeign (h : Keeps p b) (hp : Admits p) {byMode : Builder → Token → Outcome}
    (hmode : ∀ {b}, Keeps p b → (byMode b token).Keeps p) (htoken : token.Keeps p) :
    (b.inForeign byMode token).Keeps p := by
  unfold Builder.inForeign
  cases token with
  | startTag name attributes selfClosing =>
      grind -linarith [Outcome.Keeps, Token.Keeps]
  | endTag name =>
      dsimp only
      split
      · exact hmode h.breakOut
      split
      · exact h.sublist ((List.tail_sublist _).trans (List.dropWhile_sublist _))
      · exact hmode h
  | _ => grind -linarith [Outcome.Keeps]

/-! ### Documents -/

/-- In every mode a token keeps a property that its attributes have. -/
theorem byMode (h : Keeps p b) (hp : Admits p) (htoken : token.Keeps p) :
    (b.byMode token).Keeps p := by
  unfold Builder.byMode
  cases b.mode with
  | initial => exact h.initial htoken
  | beforeHtml => exact h.beforeHtml hp htoken
  | beforeHead => exact h.beforeHead hp htoken
  | inHead => exact h.inHead hp htoken
  | afterHead => exact h.afterHead hp htoken
  | inBody => exact h.inBody hp htoken
  | inText => exact h.inText htoken
  | inTable => exact h.inTable hp htoken
  | inTableText => exact h.inTableText htoken
  | inCaption => exact h.inCaption hp htoken
  | inColumnGroup => exact h.inColumnGroup hp htoken
  | inTableBody => exact h.inTableBody hp htoken
  | inRow => exact h.inRow hp htoken
  | inCell => exact h.inCell hp htoken
  | inSelect => exact h.inSelect hp htoken
  | inSelectInTable => exact h.inSelectInTable hp htoken
  | inTemplate => exact h.inTemplate hp htoken
  | afterBody => exact h.afterBody hp htoken
  | inFrameset => exact h.inFrameset hp htoken
  | afterFrameset => exact h.afterFrameset hp htoken
  | afterAfterBody => exact h.afterAfterBody hp htoken
  | afterAfterFrameset => exact h.afterAfterFrameset hp htoken

theorem outcome (h : Keeps p b) (hp : Admits p) (htoken : token.Keeps p) :
    (b.outcome token).Keeps p :=
  (h.inForeign hp (·.byMode hp htoken) htoken).ite (h.byMode hp htoken)

/-- However often a token is looked at again, it keeps a property that its attributes have. -/
theorem processWithin (h : Keeps p b) (hp : Admits p) (htoken : token.Keeps p) (rounds : Nat) :
    Keeps p (Builder.processWithin rounds b token) := by
  induction rounds generalizing b token with
  | zero => exact h
  | succ rounds ih =>
      have houtcome := h.outcome hp htoken
      unfold Builder.processWithin
      split
      next b' hdone =>
        rw [hdone] at houtcome
        exact houtcome
      next b' token' hagain =>
        rw [hagain] at houtcome
        exact ih houtcome.1 houtcome.2

/-- A token keeps a property that its attributes have. -/
theorem feed (h : Keeps p b) (hp : Admits p) (htoken : token.Keeps p) : Keeps p (b.feed token) := by
  unfold Builder.feed
  split
  · split
    next token' hdropped =>
      have htoken' : token'.Keeps p := by
        unfold dropFirstNewline at hdropped
        grind -linarith [Token.Keeps]
      exact (h.withDropNewline false).processWithin hp htoken' _
    · exact h.withDropNewline false
  · exact h.processWithin hp htoken _

end Keeps

end Builder

/-! ## Tags -/

section Tokens

variable {p : List Attribute → Prop} {token : Token} {s : Text}

/-- The attributes of a tag that has been read satisfy what can be kept. -/
theorem keeps_tagRest (hp : Admits p) {rest : Text} {attributes : List Attribute} {closed : Bool}
    (h : tagRest s = some (attributes, closed, rest)) : p attributes := by
  fun_induction tagRest s generalizing attributes closed rest with
  | case1 => cases h
  | case2 | case3 =>
      cases h
      exact hp.nil
  | case4 _ _ _ _ ih => exact ih h
  | case5 => cases h
  | case6 | case7 =>
      simp only [Option.map_eq_some_iff, Prod.exists, Prod.mk.injEq] at h
      obtain ⟨attributes', closed', rest', hrest, rfl, -, -⟩ := h
      exact hp.cons _ (by grind)

theorem keeps_tagToken (hp : Admits p) {make : List Attribute → Bool → Token}
    (hmake : ∀ {attributes} closed, p attributes → (make attributes closed).Keeps p)
    (h : (tagToken make s).1 = some token) : token.Keeps p := by
  unfold tagToken at h
  split at h
  next hrest =>
    cases h
    exact hmake _ (keeps_tagRest hp hrest)
  · cases h

@[grind →]
theorem keeps_startTagToken (hp : Admits p) (h : (startTagToken s).1 = some token) : token.Keeps p := by
  refine keeps_tagToken hp (fun closed hattributes => ?_) h
  exact hattributes

@[grind →]
theorem keeps_endTagToken (hp : Admits p) (h : (endTagToken s).1 = some token) : token.Keeps p := by
  refine keeps_tagToken hp (fun closed _ => ?_) h
  trivial

theorem keeps_doctypeSystem (name publicId : Option Text) (early : Bool) (s : Text) :
    (doctypeSystem name publicId early s).1.Keeps p := by
  unfold doctypeSystem
  grind -linarith [Token.Keeps]

theorem keeps_doctypePublic (name : Option Text) (s : Text) : (doctypePublic name s).1.Keeps p := by
  unfold doctypePublic
  grind -linarith [Token.Keeps, keeps_doctypeSystem]

theorem keeps_doctypeToken (s : Text) : (doctypeToken s).1.Keeps p := by
  unfold doctypeToken
  grind -linarith [Token.Keeps, keeps_doctypeSystem, keeps_doctypePublic]

theorem keeps_commentToken (h : (commentToken s).1 = some token) : token.Keeps p := by
  unfold commentToken at h
  grind -linarith [Token.Keeps]

theorem keeps_bogusComment (h : (bogusComment s).1 = some token) : token.Keeps p := by
  unfold bogusComment at h
  grind -linarith [Token.Keeps]

theorem keeps_declarationToken {foreign : Bool} (h : (declarationToken foreign s).1 = some token) :
    token.Keeps p := by
  unfold declarationToken at h
  grind -linarith [Token.Keeps, keeps_doctypeToken, keeps_commentToken, keeps_bogusComment]

theorem keeps_dataToken (hp : Admits p) {foreign : Bool}
    (h : (dataToken foreign s).1 = some token) : token.Keeps p := by
  unfold dataToken at h
  grind -linarith [Token.Keeps, keeps_declarationToken, keeps_bogusComment]

theorem keeps_untilEndTag (hp : Admits p) {reading : Reading} {content : Text × Text}
    (h : (untilEndTag reading content s).1 = some token) : token.Keeps p := by
  unfold untilEndTag at h
  grind -linarith [Token.Keeps]

/-- The attributes of every token that is read satisfy what can be kept. -/
theorem keeps_nextToken (hp : Admits p) {reading : Reading} {foreign : Bool}
    (h : (nextToken reading foreign s).1 = some token) : token.Keeps p := by
  unfold nextToken at h
  cases reading with
  | data => exact keeps_dataToken hp h
  | escapable tag | raw tag | script => exact keeps_untilEndTag hp h
  | plain | cdata => grind -linarith [Token.Keeps]

end Tokens

/-- Reading a text keeps what can be kept of attributes. -/
theorem Builder.Keeps.readWithin {p : List Attribute → Prop} {b : Builder} (h : Keeps p b)
    (hp : Admits p) (rounds : Nat) (s : Text) : Keeps p (b.readWithin rounds s) := by
  induction rounds generalizing b s with
  | zero => exact h
  | succ rounds ih =>
      unfold Builder.readWithin
      have htoken : ∀ token, (nextToken b.reading b.isInForeign s).1 = some token →
          token.Keeps p := fun _ => keeps_nextToken hp
      split
      · exact h.feed hp trivial
      next token rest reading _ hread =>
        rw [hread] at htoken
        exact ih ((h.withReading reading).feed hp (htoken token rfl)) rest
      · exact ih (h.withReading _) _

/-- What holds of the attributes of every tag holds of those of every element. -/
theorem eachOf_parseDocument {p : List Attribute → Prop} (hp : Admits p) (source : Text) :
    Tree.EachOf p (parseDocument source) :=
  (Builder.keeps_empty.readWithin hp _ _).trees

end Viewloom.Html
