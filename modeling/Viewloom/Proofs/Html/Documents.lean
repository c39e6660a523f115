import Viewloom.Proofs.Html.Rereading

/-!
# Reading a printed body

What opens the body of a document does so in five rounds of its first token, and from there on the
printed nodes of a body are read like any others, up to the end.
-/

namespace Viewloom.Html

open Markup (Node)

variable {names : List Name} {tag value s t : Text} {n : Node} {ns : List Node} {pieces : List Tree}

/-! ## The beginning of the body -/

/-- The names of the elements that are open in the body of a document. -/
def bodyNames : List Name := [Name.html (text "body"), Name.html (text "html")]

/-- Whether a first node opens the body of a document, and is read there. -/
def startsBody : Node → Bool
  | .text value => value.head?.any fun c => !isSpace c
  | .comment _ => false
  | .element tag _ _ => !Builder.isHeadTag tag

namespace Builder

variable {b b' : Builder} {o : Open} {os : List Open} {token : Token}

/-- The document without a type. -/
def atStart : Builder := { empty with quirks := true, mode := .beforeHtml }

def atRoot : Builder := (atStart.openHtml (text "html") []).withMode .beforeHead

def atHead : Builder := atRoot.openHead []

def behindHead : Builder := atHead.pop.withMode .afterHead

/-- The document at the beginning of its body, which something else than its tag has opened. -/
def atBody : Builder := behindHead.openBody []

/-- At the beginning of the body, the body and the root are open and nothing else. -/
theorem settled_atBody : Settled atBody bodyNames where
  stack := rfl
  plain := ⟨by decide, by decide, by decide⟩
  numbered := ⟨by decide, by decide, by decide⟩
  formatting := .other rfl (.other rfl .nil)
  form := rfl
  mode := Agree.refl .inBody
  calm := ⟨rfl, rfl, rfl, rfl, rfl⟩
  dropNewline := rfl

/-- The first token of a body. -/
def OpensBody : Token → Prop
  | .chars value => isBlankRun value = false
  | .startTag name _ _ => isHeadTag name = false ∧ name ∉ unusualTags
  | _ => False

/-- A token that belongs into the body opens the root, the head and the body on its way. -/
theorem OpensBody.outcomes (h : OpensBody token) :
    empty.outcome token = .again atStart token ∧ atStart.outcome token = .again atRoot token ∧
      atRoot.outcome token = .again atHead token ∧
      atHead.outcome token = .again behindHead token ∧
      behindHead.outcome token = .again atBody token := by
  cases token with
  | chars value =>
      have hblank : ¬ isBlankRun value = true := by rw [show isBlankRun value = false from h]; simp
      exact ⟨if_neg hblank, if_neg hblank, if_neg hblank, if_neg hblank, if_neg hblank⟩
  | startTag name attributes selfClosing =>
      obtain ⟨hhead, husual⟩ := h
      have hne : ∀ tag ∈ unusualTags, name ≠ tag := fun tag hmem heq => husual (heq ▸ hmem)
      have hhtml := hne (text "html") (by decide)
      have hheadTag := hne (text "head") (by decide)
      have hbody := hne (text "body") (by decide)
      have hframes := hne (text "frameset") (by decide)
      have hlisted : ¬ headTags.contains name = true := by
        rw [isHeadTag, Bool.or_eq_false_iff] at hhead
        rw [hhead.1]
        exact Bool.false_ne_true
      have hnone : ¬ isHeadTag name = true := by
        rw [hhead]
        exact Bool.false_ne_true
      refine ⟨rfl, if_neg hhtml, ?_, ?_, ?_⟩
      · exact (if_neg hhtml).trans (if_neg hheadTag)
      · exact (if_neg hhtml).trans ((if_neg hnone).trans (if_neg hheadTag))
      · exact (if_neg hhtml).trans ((if_neg hbody).trans ((if_neg hframes).trans
          ((if_neg hlisted).trans (if_neg hheadTag))))
  | doctype | endTag | comment | null | eof => exact h.elim

/-- A first token of the body is processed as if the body had been open. -/
theorem OpensBody.process_empty (h : OpensBody token)
    (houtcome : atBody.outcome token = .done b') : empty.process token = b' := by
  obtain ⟨hempty, hstart, hroot, hhead, hbehind⟩ := h.outcomes
  have hprocess : empty.process token = processWithin (10 + 1 + 1 + 1 + 1 + 1 + 1) empty token := rfl
  rw [hprocess]
  simp only [processWithin, hempty, hstart, hroot, hhead, hbehind, houtcome]

/-- The first token of the printed nodes of a body. -/
theorem exists_opening (hfits : Fits bodyNames n) (hstarts : startsBody n = true)
    (hrest : n.isText = true → ∀ d, t.head? = some d → d = '<') :
    ∃ token u b', dataToken false (n.compact false ++ t) = (some token, u, .data) ∧
      OpensBody token ∧ atBody.outcome token = .done b' := by
  have hregion : regionOf bodyNames = some .flow := rfl
  have hstack : atBody.stack = ⟨2, Name.html (text "body"), []⟩ :: _ := rfl
  cases n with
  | text value =>
      obtain ⟨hne, hnul, -⟩ := hfits
      obtain ⟨bit, more, rfl, hbit, htoken⟩ := dataToken_escapeText false hne hnul (hrest rfl)
      refine ⟨_, _, _, htoken, ?_, settled_atBody.outcome_chars_flow hstack hregion bit⟩
      obtain ⟨c, bit, rfl⟩ := List.exists_cons_of_ne_nil hbit
      rw [startsBody, List.cons_append, List.head?_cons, Option.any_some, Bool.not_eq_true'] at hstarts
      rw [OpensBody, isBlankRun, List.all_cons, hstarts, Bool.false_and]
  | comment value => cases hstarts
  | element tag attributes children =>
      obtain ⟨hstart, hcontent⟩ := hfits
      have husual : Text.lowerAscii tag = tag ∧ tag ∉ unusualTags := by
        cases hsome : contentIn bodyNames tag with
        | none =>
            rw [hsome] at hcontent
            exact hcontent.elim
        | some content =>
            cases admitted_of_contentIn hsome with
            | flow _ hlower hflow =>
                exact ⟨hlower, not_mem_unusualTags (by simp [tagContent_of_flow hflow])⟩
            | foreign hother | table hother | columns hother | select hother => cases hother
      have hopen := dataToken_openTag false hstart.isTag hstart.areWritable
      rw [husual.1] at hopen
      obtain ⟨u, htoken⟩ : ∃ u,
          dataToken false ((Node.element tag attributes children).compact false ++ t) =
            (some (.startTag tag (attributes.map lowered) false), u, .data) := by
        rw [Node.compact]
        split
        · exact ⟨_, hopen t⟩
        · rw [List.append_assoc, List.append_assoc]
          exact ⟨_, hopen _⟩
      have hhead : isHeadTag tag = false := by simpa [startsBody] using hstarts
      exact ⟨_, u, _, htoken, ⟨hhead, husual.2⟩,
        settled_atBody.outcome_start_flow hstack hregion husual.2 (attributes.map lowered)⟩

/-- Where the body begins, reading goes on as if it had been open. -/
theorem Reads.of_atBody {u : Text} (h : Reads atBody s b t) (hne : s ≠ t)
    (htoken : dataToken false s = (some token, u, .data)) (hopens : OpensBody token)
    (houtcome : atBody.outcome token = .done b') : Reads empty s b t := by
  refine h.of_step hne fun n => ?_
  have hempty : nextToken empty.reading empty.isInForeign s = (some token, u, .data) := htoken
  have hbody : nextToken atBody.reading atBody.isInForeign s = (some token, u, .data) := htoken
  have hfeed : feed { empty with reading := .data } token =
      feed { atBody with reading := .data } token :=
    (hopens.process_empty houtcome).trans (process_of_done houtcome).symm
  rw [readWithin, readWithin, hempty, hbody]
  cases token with
  | chars | startTag => exact congrArg (readWithin n · u) hfeed
  | doctype | endTag | comment | null | eof => exact hopens.elim

/-- At the end of a body nothing changes any more. -/
theorem Ready.feed_eof (h : Ready b bodyNames) (hstack : b.stack = o :: os)
    (hspace : o.name.space = .html) : b.feed .eof = b := by
  have hlanded : b.landed = b := landed_of_ne fun hmode => by cases (h.waiting hmode).1
  have hsettled := h.settled
  rw [hlanded] at hsettled
  rw [feed_of_dropNewline h.dropNewline]
  refine process_of_done ?_
  rw [outcome_eq_byMode (isForeign_of_html hstack hspace _), byMode, hsettled.mode_eq rfl rfl]
  exact if_pos (by rw [hsettled.calm.templateModes]; rfl)

/-- A text is read to its end in as many rounds as it has characters, and one more. -/
theorem Reads.readWithin_eq (h : Reads empty s b []) (hready : Ready b bodyNames)
    (hstack : b.stack = o :: os) (hspace : o.name.space = .html) :
    empty.readWithin (s.length + 1) s = b := by
  obtain ⟨k, hk, -, hread⟩ := h
  rw [List.length_nil, Nat.add_zero] at hk
  have hrounds : s.length + 1 = (s.length - k) + 1 + k := by omega
  have hnext : nextToken b.reading b.isInForeign [] = (some .eof, [], .data) := by
    rw [hready.reading]
    rfl
  rw [hrounds, hread, readWithin, hnext]
  exact hready.feed_eof hstack hspace

end Builder

/-! ## Bodies -/

/-- A text that is read character by character as it stands. -/
def IsNormal (s : Text) : Prop := '\r' ∉ s ∧ ∀ c ∈ s.head?, c.toNat ≠ 0xfeff

theorem normalizeLines_eq_self (h : '\r' ∉ s) : normalizeLines s = s := by
  induction s with
  | nil => rfl
  | cons c s ih =>
      rw [List.mem_cons, not_or] at h
      rw [normalizeLines, ih h.2]
      · exact fun _ heq _ => h.1 heq.symm
      · exact fun heq => h.1 heq.symm

theorem IsNormal.of_all (hreturn : '\r' ∉ s)
    (hmark : (s.head?.all fun c => c.toNat != 0xfeff) = true) : IsNormal s := by
  refine ⟨hreturn, fun c hc => ?_⟩
  rw [Option.mem_def.1 hc, Option.all_some, bne_iff_ne] at hmark
  exact hmark

/-- A normal text is read as it stands. -/
theorem IsNormal.input_eq (h : IsNormal s) : normalizeLines (dropMark s) = s := by
  cases s with
  | nil => rfl
  | cons c s => rw [dropMark, if_neg (h.2 c rfl), normalizeLines_eq_self h.1]

/-- The document around the children of a body. -/
theorem appendEach_atBody (pieces : List Tree) :
    Tree.contentOfAll? (text "body") (Tree.appendEach 2 pieces Builder.atBody.trees) =
      some (Tree.addEach pieces []) := by
  have hgrow : ∀ children, Tree.appendEach 2 pieces
      [.element 0 (Name.html (text "html")) []
        [.element 1 (Name.html (text "head")) [] [],
          .element 2 (Name.html (text "body")) [] children]] =
      [.element 0 (Name.html (text "html")) []
        [.element 1 (Name.html (text "head")) [] [],
          .element 2 (Name.html (text "body")) [] (Tree.addEach pieces children)]] := by
    induction pieces with
    | nil => exact fun _ => rfl
    | cons piece pieces ih => exact fun children => ih (Tree.addLast piece children)
  exact (congrArg (Tree.contentOfAll? (text "body")) (hgrow [])).trans rfl

/-- Printed nodes that fit into a body are read as what they stand for. -/
theorem parseBody_toHtml (hfits : FitsAll bodyNames ns)
    (hstarts : ns.head?.all startsBody = true) (hnormal : IsNormal (Markup.toHtml ns)) :
    parseBody (Markup.toHtml ns) = rereadAll ns := by
  cases ns with
  | nil => rfl
  | cons n ns =>
      have hstack : Builder.atBody.stack = ⟨2, Name.html (text "body"), []⟩ :: _ := rfl
      have hready := Builder.settled_atBody.ready
      have hend : ∀ d, ([] : Text).head? = some d → d = '<' := by simp
      obtain ⟨b, pieces, hadds, hpieces⟩ := hready.adds_nodes hstack rfl hfits hend
      obtain ⟨token, u, b', htoken, hopens, houtcome⟩ := Builder.exists_opening hfits.1 hstarts
        fun htext => Builder.head?_compactAll (hfits.2.1 htext) hend
      have hprinted : n.compact false ++ (Node.compactAll false ns ++ []) =
          Markup.toHtml (n :: ns) := by
        rw [List.append_nil]
        rfl
      rw [hprinted] at htoken
      have hne : Markup.toHtml (n :: ns) ≠ [] := by
        intro hnil
        rw [hnil] at htoken
        cases htoken
        exact hopens
      have hreads : Builder.Reads Builder.atBody (Markup.toHtml (n :: ns)) b [] := by
        rw [← List.append_nil (Markup.toHtml (n :: ns))]
        exact hadds.reads
      have hdocument := (hreads.of_atBody hne htoken hopens houtcome).readWithin_eq hadds.ready
        ((hadds.stack hready).trans hstack) rfl
      have htrees : b.trees = Tree.appendEach 2 pieces Builder.atBody.trees := by
        have hlanded : b.landed = b :=
          Builder.landed_of_ne fun hmode => by cases (hadds.ready.waiting hmode).1
        have hgrown := hadds.grown.trees _ _ hstack
        rwa [hlanded] at hgrown
      have hapart : AreApart (Tree.toMarkupAll pieces) := by
        rw [hpieces]
        exact hfits.areApart.rereadAll
      rw [parseBody, parseDocument, hnormal.input_eq, hdocument, htrees, appendEach_atBody,
        addEach_of_areApart hapart]
      exact hpieces

end Viewloom.Html
