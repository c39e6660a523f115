import Viewloom.Proofs.Html.Tokens
import Viewloom.Proofs.Script.Children
import Viewloom.Proofs.Spacing.Texts
import Viewloom.Proofs.Values

/-!
# Strings where they are written

A text of a page is written to string literals, to attributes, between tags and to comments. A reader of
each of these grammars finds the whole text again and finds its end where the text has been written to
the end.

## Implementation notes

Between tags a text is divided at its braces, so its reader is followed through the run of characters
since the last brace.
-/

namespace Viewloom

open Template (escaped quoted isBrace guardComment printComment)
open Markup (escapeAttribute escapeAttributeChar escapeText escapeTextChar)
open Script (escapeAttribute_cons)

/-! ## Attributes in markup -/

namespace Html

variable {name rest : Text} {letter d : Char}

/-- Replaces the references in the value of an attribute behind some characters that are passed over. -/
def resolveBehind : Nat → Text → Text
  | _, [] => []
  | n + 1, _ :: s => resolveBehind n s
  | 0, c :: s =>
    match if c = '&' then charReference true s else none with
    | some (value, n) => value ++ resolveBehind n s
    | none => c :: resolveBehind 0 s

/-- The value of an attribute without references to characters. -/
def resolve (s : Text) : Text := resolveBehind 0 s

/-- What is behind a reference is resolved from there. -/
theorem resolveBehind_append (s rest : Text) : resolveBehind s.length (s ++ rest) = resolve rest := by
  induction s with
  | nil => rfl
  | cons c s ih => exact ih

/-- The reference of an entity is resolved to its character. -/
theorem resolve_reference (h : IsEntity letter name [d]) (rest : Text) :
    resolve ('&' :: letter :: (name ++ ';' :: rest)) = d :: resolve rest := by
  have hpassed := resolveBehind_append (letter :: (name ++ [';'])) rest
  have hlength : (letter :: (name ++ [';'])).length = name.length + 2 := by simp
  have happend : letter :: (name ++ [';']) ++ rest = letter :: (name ++ ';' :: rest) := by simp
  rw [hlength, happend] at hpassed
  rw [resolve, resolveBehind, if_pos rfl, h.charReference_eq]
  exact congrArg (d :: ·) hpassed

theorem resolve_cons_of_ne {c : Char} (hc : c ≠ '&') (s : Text) :
    resolve (c :: s) = c :: resolve s := by
  rw [resolve, resolveBehind, if_neg hc]
  rfl

/-- An escaped character of an attribute is resolved to the character. -/
theorem resolve_escapeAttributeChar (c : Char) (s : Text) :
    resolve (escapeAttributeChar c ++ s) = c :: resolve s := by
  unfold escapeAttributeChar
  split
  · next hc =>
      rw [hc]
      exact resolve_reference isEntity_amp s
  split
  · next hc =>
      rw [hc]
      exact resolve_reference isEntity_quot s
  · next hc _ => exact resolve_cons_of_ne hc s

/-- An escaped attribute is resolved to its value. -/
theorem resolve_escapeAttribute (value : Text) : resolve (escapeAttribute value) = value := by
  induction value with
  | nil => rfl
  | cons c value ih => rw [escapeAttribute_cons, resolve_escapeAttributeChar, ih]

end Html

/-! ## Text between tags -/

namespace Script

open Viewloom.Script.Parser Viewloom.Script.Tree Spacing

variable {must : Bool} {rounds depth n : Nat} {c : Context} {u : Source} {x before s : Text}
  {reference : Text → Option Text} {Q : List Tree → Source → Prop}

/-- A child that an escaped text is read as: a run of characters, or a brace in braces. -/
inductive Child where
  | run (source : Text)
  | brace (d : Char) (h : isBrace d = true)

namespace Child

def tree : Child → Tree
  | run source => leaf .elementText source
  | brace d _ => inner .container [leaf .string [d]]

/-- How a child is written. -/
def code : Child → Text
  | run source => source
  | brace d _ => '\x7b' :: '\'' :: d :: '\'' :: ['\x7d']

/-- What is shown of a child. -/
def shown (reference : Text → Option Text) : Child → Text
  | run source => shownLines (decode reference source)
  | brace d _ => [d]

end Child

/-- The child that a run of characters is, if there are any. -/
def runOf (source : Text) : List Child := if source = [] then [] else [.run source]

/-- The children of an escaped text behind the run that has been read since the last brace. -/
def childrenBehind (before : Text) : Text → List Child
  | [] => runOf before
  | d :: s =>
    if h : isBrace d = true then runOf before ++ .brace d h :: childrenBehind [] s
    else childrenBehind (before ++ escapeTextChar d) s

/-- The children of an escaped text. -/
def childrenOf (s : Text) : List Child := childrenBehind [] s

theorem flatMap_code_runOf (source : Text) : (runOf source).flatMap Child.code = source := by
  unfold runOf
  split
  · next h => rw [h, List.flatMap_nil]
  · exact List.append_nil source

/-- A run of text shows its lines, decoded. -/
theorem flatMap_shown_runOf (source : Text) :
    (runOf source).flatMap (Child.shown reference) = shownLines (decode reference source) := by
  unfold runOf
  split
  · next h => rw [h, List.flatMap_nil]; rfl
  · exact List.append_nil _

/-- The children are written as the text is. -/
theorem flatMap_code_childrenBehind (before s : Text) :
    (childrenBehind before s).flatMap Child.code = before ++ escaped s := by
  induction s generalizing before with
  | nil => rw [childrenBehind, flatMap_code_runOf, escaped, List.flatMap_nil, List.append_nil]
  | cons d s ih =>
      rw [childrenBehind]
      split
      · next hd =>
          rw [List.flatMap_append, List.flatMap_cons, flatMap_code_runOf, ih,
            Template.escaped_cons_brace hd]
          rfl
      · next hd => rw [ih, Template.escaped_cons (by simpa using hd), List.append_assoc]

/-! ## References between tags -/

section References

variable (hamp : reference (text "amp") = some ['&']) (hlt : reference (text "lt") = some ['<'])
  (hgt : reference (text "gt") = some ['>'])

include hamp hlt hgt

/-- An escaped character of a text is decoded to the character. -/
theorem decode_escapeTextChar (d : Char) (s : Text) :
    decode reference (escapeTextChar d ++ s) = d :: decode reference s := by
  unfold escapeTextChar
  split
  · next hd =>
      rw [hd]
      exact decode_reference hamp rfl
  split
  · next hd =>
      rw [hd]
      exact decode_reference hlt rfl
  split
  · next hd =>
      rw [hd]
      exact decode_reference hgt rfl
  · next hd _ _ =>
      have hreference : referenceAt reference d s = none := if_neg hd
      rw [List.singleton_append, decode, decodeBehind, hreference]
      rfl

/-- An escaped text is decoded to the text. -/
theorem decode_escapeText (s : Text) : decode reference (escapeText s) = s := by
  induction s with
  | nil => rfl
  | cons d s ih =>
      have hcons : escapeText (d :: s) = escapeTextChar d ++ escapeText s := rfl
      rw [hcons, decode_escapeTextChar hamp hlt hgt, ih]

/-- The children of a text in which no line ends show the text. -/
theorem flatMap_shown_childrenBehind (before s : Text) (hs : ∀ d ∈ before ++ s, isBreak d = false) :
    (childrenBehind (escapeText before) s).flatMap (Child.shown reference) = before ++ s := by
  induction s generalizing before with
  | nil =>
      rw [List.append_nil] at hs ⊢
      rw [childrenBehind, flatMap_shown_runOf, decode_escapeText hamp hlt hgt, shownLines_of_all hs]
  | cons d s ih =>
      rw [childrenBehind]
      split
      · next hd =>
          have hbefore : ∀ e ∈ before, isBreak e = false := fun e he =>
            hs e (List.mem_append_left _ he)
          have hrest := ih [] fun e he => hs e (List.mem_append_right _ (List.mem_cons_of_mem d he))
          rw [List.flatMap_append, List.flatMap_cons, flatMap_shown_runOf,
            decode_escapeText hamp hlt hgt, shownLines_of_all hbefore]
          exact congrArg (fun shown => before ++ d :: shown) hrest
      · next hd =>
          rw [← Template.escapeText_concat, ih (before ++ [d]) (by simpa using hs), List.append_assoc]
          rfl

end References

/-! ## Reading children -/

/-- Children end at the tag that closes their element. -/
theorem reads_elementChildren_stop {g : Grammar} (hu : u.rest = '<' :: '/' :: '>' :: x)
    (h : Q [] u) : Reads must (elementChildren g c (n + 1)) u Q := by
  have hgap : gap ('/' :: '>' :: x) = some ⟨false, [], '/' :: '>' :: x⟩ := by
    rw [gap, scanGap.eq_def]
    simp [isLineEnd, isSpace]
  simp only [elementChildren, atClosingTag, Reads.bind_iff, Reads.source_iff, hu, hgap]
  exact h

/-- A run of characters in front of a tag or a brace. -/
theorem reads_elementChildren_run {g : Grammar} (hbefore : ∀ d ∈ before, endsElementText d = false)
    (hne : before ≠ []) (hx : x.head?.all endsElementText = true) (hu : u.rest = before ++ x)
    (h : Reads must (elementChildren g c n) (Source.raw x) fun ts v =>
      Q (leaf .elementText before :: ts) v) :
    Reads must (elementChildren g c (n + 1)) u Q := by
  obtain ⟨d, t, rfl⟩ := List.exists_cons_of_ne_nil hne
  have hd : endsElementText d = false := hbefore d List.mem_cons_self
  have hopen : d ≠ '<' ∧ d ≠ '\x7b' := by
    constructor <;>
      · rintro rfl
        exact absurd hd (by decide)
  have htake : (d :: t ++ x).takeWhile (fun e => !endsElementText e) = d :: t := by
    rw [List.takeWhile_append_of_pos fun e he => by simp [hbefore e he]]
    cases x with
    | nil => exact List.append_nil _
    | cons e x =>
        have he : endsElementText e = true := hx
        rw [List.takeWhile_cons_of_neg (by simp [he]), List.append_nil]
  have hread : readElementText u.rest = some (d :: t, x) := by
    rw [hu, readElementText, htake]
    simp
  rw [List.cons_append] at hu
  simp only [elementChildren, Reads.bind_iff]
  apply reads_atClosingTag_ne hopen.1 hu
  simp only [Bool.false_eq_true, if_false, Reads.bind_iff, Reads.nextChar_iff, hu, List.head?_cons]
  split
  · next heq => exact absurd (Option.some.inj heq) hopen.1
  · next heq => exact absurd (Option.some.inj heq) hopen.2
  · simp only [Reads.bind_iff, Reads.pure_iff]
    exact Reads.rawToken hread h

/-- A brace in braces. -/
theorem reads_elementChildren_brace {d : Char} (hd : isBrace d = true)
    (hfit : Suffices 2 rounds depth u.rest.length)
    (hu : u.rest = '\x7b' :: '\'' :: d :: '\'' :: '\x7d' :: x)
    (h : Reads must (elementChildren (grammarWithin rounds depth) c n) (Source.raw x) fun ts v =>
      Q (inner .container [leaf .string [d]] :: ts) v) :
    Reads must (elementChildren (grammarWithin rounds depth) c (n + 1)) u Q := by
  have hquoted : '\'' :: d :: '\'' :: '\x7d' :: x = quoted [d] ++ '\x7d' :: x := by
    simp only [isBrace, Bool.or_eq_true, beq_iff_eq] at hd
    rcases hd with rfl | rfl <;> rfl
  rw [hquoted] at hu
  rw [hu, List.length_cons] at hfit
  simp only [elementChildren, Reads.bind_iff]
  apply reads_atClosingTag_ne (by decide) hu
  simp only [Bool.false_eq_true, if_false, Reads.bind_iff, Reads.nextChar_iff, hu, List.head?_cons]
  refine reads_container_expression (s := x) rfl rfl hu ?_
  refine reads_assignmentWithin (by dsimp only; omega) fun depth' _ hfit' => ?_
  apply reads_assignment_string hfit'.rounds_pos rfl
  apply skips_of_isSolid rfl
  exact ⟨Source.endsExpression_of_mem (by decide), rfl, h⟩

/-- The escape of a character that is no brace does not end a text. -/
theorem escapeTextChar_plain (d : Char) (hd : isBrace d = false) :
    ∀ e ∈ escapeTextChar d, endsElementText e = false := by
  have hany : (escapeTextChar d).any endsElementText = false := by
    simp only [isBrace, Bool.or_eq_false_iff, beq_eq_false_iff_ne] at hd
    unfold escapeTextChar
    split
    · decide
    split
    · decide
    split
    · decide
    · next _ hlt hgt => simp [endsElementText, hlt, hgt, hd]
  simpa using hany

/-- A run of characters, if there are any. -/
theorem reads_elementChildren_runOf {g : Grammar} {children : List Child} {stop : Text}
    (hbefore : ∀ d ∈ before, endsElementText d = false) (hx : x.head?.all endsElementText = true)
    (hu : u.rest = before ++ x) (hn : u.rest.length < n)
    (h : ∀ n v, Source.rest v = x → x.length < n →
      Reads must (elementChildren g c n) v fun ts w => ts = children.map Child.tree ∧ w.rest = stop) :
    Reads must (elementChildren g c n) u fun ts w =>
      ts = (runOf before ++ children).map Child.tree ∧ w.rest = stop := by
  by_cases hne : before = []
  · subst hne
    exact h n u hu (by rwa [hu] at hn)
  · obtain ⟨k, rfl⟩ : ∃ k, n = k + 1 := ⟨n - 1, by omega⟩
    have hpos := List.length_pos_iff.2 hne
    rw [hu, List.length_append] at hn
    rw [runOf, if_neg hne]
    apply reads_elementChildren_run hbefore hne hx hu
    apply (h k (Source.raw x) rfl (by omega)).mono
    rintro ts v ⟨rfl, hv⟩
    exact ⟨rfl, hv⟩

/-- An escaped text in front of a closing tag is read as its children. -/
theorem reads_elementChildren_escaped (hbefore : ∀ d ∈ before, endsElementText d = false)
    (hu : u.rest = before ++ (escaped s ++ '<' :: '/' :: '>' :: x))
    (hfit : Suffices 2 rounds depth u.rest.length) (hn : u.rest.length < n) :
    Reads must (elementChildren (grammarWithin rounds depth) c n) u fun ts v =>
      ts = (childrenBehind before s).map Child.tree ∧ v.rest = '<' :: '/' :: '>' :: x := by
  induction s generalizing before u n with
  | nil =>
      rw [childrenBehind, ← List.append_nil (runOf before)]
      refine reads_elementChildren_runOf hbefore rfl hu hn fun n v hv hn => ?_
      obtain ⟨k, rfl⟩ : ∃ k, n = k + 1 := ⟨n - 1, by omega⟩
      exact reads_elementChildren_stop hv ⟨rfl, hv⟩
  | cons d s ih =>
      rw [childrenBehind]
      split
      · next hd =>
          have hcons : escaped (d :: s) ++ '<' :: '/' :: '>' :: x = '\x7b' :: '\'' :: d :: '\'' :: '\x7d' ::
              (escaped s ++ '<' :: '/' :: '>' :: x) := by
            rw [Template.escaped_cons_brace hd]
            rfl
          rw [hcons] at hu
          refine reads_elementChildren_runOf hbefore rfl hu hn fun n v hv hn => ?_
          obtain ⟨k, rfl⟩ : ∃ k, n = k + 1 := ⟨n - 1, by omega⟩
          rw [hu, List.length_append] at hfit
          simp only [List.length_cons] at hfit hn
          have hfitHere : Suffices 2 rounds depth v.rest.length := by
            rw [hv]
            simp only [List.length_cons]
            omega
          apply reads_elementChildren_brace hd hfitHere hv
          have hnone : ∀ e ∈ ([] : Text), endsElementText e = false := by simp
          have hrest := ih hnone (u := Source.raw (escaped s ++ '<' :: '/' :: '>' :: x)) rfl (n := k)
            (by simp only [Source.raw]; omega) (by simp only [Source.raw]; omega)
          apply hrest.mono
          rintro ts w ⟨rfl, hw⟩
          exact ⟨rfl, hw⟩
      · next hd =>
          rw [Template.escaped_cons (by simpa using hd), List.append_assoc,
            ← List.append_assoc before] at hu
          refine ih ?_ hu hfit hn
          intro e he
          rcases List.mem_append.1 he with he | he
          · exact hbefore e he
          · exact escapeTextChar_plain d (by simpa using hd) e he

/-- A reader that must read one result gives it. -/
theorem Reads.eq_some {α : Type} {p : Parser α} {a : α} {v : Source}
    (h : Reads true p u fun b w => b = a ∧ w = v) : p u = some (a, v) := by
  unfold Reads at h
  cases hp : p u with
  | none => simp [hp] at h
  | some found =>
      simp only [hp] at h
      rw [← h.1, ← h.2]

/-- The end of a tag that closes itself is no comment. -/
theorem skips_slash {P : Source → Prop} (h : P ⟨'/' :: '>' :: x, false, []⟩) :
    Skips must ('/' :: '>' :: x) P := by
  have hgap : Source.ofText ('/' :: '>' :: x) = some ⟨'/' :: '>' :: x, false, []⟩ := by
    rw [Source.ofText, gap, scanGap.eq_def]
    simp [isLineEnd, isSpace]
  rw [Skips, hgap]
  exact h

/-- An escaped text in a fragment is read as its children, up to the end of the fragment. -/
theorem element_escaped (c : Context) (s rest : Text) {length : Nat}
    (hlength : (text "<>" ++ escaped s ++ text "</>" ++ rest).length ≤ length) :
    element (grammar length) c (Source.raw (text "<>" ++ escaped s ++ text "</>" ++ rest)) =
      some (inner .fragment ((childrenOf s).map Child.tree), Source.raw rest) := by
  have hcode : text "<>" ++ escaped s ++ text "</>" ++ rest =
      '<' :: '>' :: (escaped s ++ '<' :: '/' :: '>' :: rest) := by
    have hopen : text "<>" = ['<', '>'] := rfl
    have hclose : text "</>" = ['<', '/', '>'] := rfl
    simp [hopen, hclose]
  have hnone : ∀ d ∈ ([] : Text), endsElementText d = false := by simp
  have hwithin : grammar length = grammarWithin (length + 2) (4 * length + 8) := rfl
  have hrounds : (grammarWithin (length + 2) (4 * length + 8)).rounds = length + 2 := rfl
  rw [hcode, List.length_cons, List.length_cons] at hlength
  rw [hcode, hwithin]
  apply Reads.eq_some
  simp only [element, Reads.bind_iff, hrounds]
  apply reads_sign_solid rfl rfl
  simp only [reads_atSign_iff, List.head?_cons, beq_self_eq_true, if_true, Reads.bind_iff]
  apply Reads.rawChar rfl
  have hchildren : Reads true (elementChildren (grammarWithin (length + 2) (4 * length + 8)) c
      (length + 2)) (Source.raw (escaped s ++ '<' :: '/' :: '>' :: rest)) fun ts v =>
        ts = (childrenOf s).map Child.tree ∧ v.rest = '<' :: '/' :: '>' :: rest :=
    reads_elementChildren_escaped hnone rfl (by simp only [Source.raw]; omega)
      (by simp only [Source.raw]; omega)
  apply hchildren.mono
  rintro ts v ⟨rfl, hv⟩
  apply reads_sign hv
  apply skips_slash
  apply reads_sign_solid rfl rfl
  apply Reads.rawChar rfl
  exact ⟨rfl, rfl⟩

/-! ## Comments -/

/-- The body of a comment is cut off at its end. -/
theorem exists_splitOnce_of_remark (h : Remark ('*' :: '/' :: x) s) :
    ∃ body, s = body ++ '*' :: '/' :: x ∧ Text.splitOnce (text "*/") s = some (body, x) := by
  have hend : text "*/" = ['*', '/'] := rfl
  induction h with
  | stop => exact ⟨[], rfl, by simp [Text.splitOnce, Text.stripStart, hend]⟩
  | @char d s hd _ ih =>
      obtain ⟨body, hs, hsplit⟩ := ih
      have hstrip : Text.stripStart (text "*/") (d :: s) = none := by
        by_cases hstar : d = '*'
        · have hhead := hd hstar
          cases s with
          | nil => simp [Text.stripStart, hend]
          | cons e s =>
              have hne : '/' ≠ e := fun heq => hhead (by rw [heq]; rfl)
              simp [Text.stripStart, hend, hne]
        · simp [Text.stripStart, hend, Ne.symm hstar]
      refine ⟨d :: body, by rw [hs]; rfl, ?_⟩
      simp [Text.splitOnce, hstrip, hsplit]

/-- The first end in a printed comment is its end. -/
theorem splitOnce_printComment (value : Text) :
    Text.splitOnce (text "*/") (printComment value) =
      some (text "\x7b/* " ++ guardComment value ++ [' '], ['\x7d']) := by
  have hopen : text "\x7b/* " = ['\x7b', '/', '*', ' '] := rfl
  have hclose : text " */\x7d" = [' ', '*', '/', '\x7d'] := rfl
  have hprinted : printComment value =
      text "\x7b/* " ++ guardComment value ++ [' '] ++ '*' :: '/' :: ['\x7d'] := by
    simp [printComment, hclose]
  have hend : Remark ('*' :: '/' :: ['\x7d']) (' ' :: '*' :: '/' :: ['\x7d']) :=
    .char (fun heq => absurd heq (by decide)) .stop
  have hremark : Remark ('*' :: '/' :: ['\x7d']) (printComment value) := by
    have hspelled : printComment value = '\x7b' :: '/' :: '*' :: ' ' ::
        (guardComment value ++ ' ' :: '*' :: '/' :: ['\x7d']) := by
      simp [printComment, hopen, hclose]
    rw [hspelled]
    refine .char (fun heq => absurd heq (by decide)) (.char (fun heq => absurd heq (by decide)) ?_)
    refine .char (fun _ => by simp) (.char (fun heq => absurd heq (by decide)) ?_)
    exact remark_guardComment value hend
  obtain ⟨body, hbody, hcut⟩ := exists_splitOnce_of_remark hremark
  rw [hprinted] at hbody
  rw [hcut, List.append_cancel_right hbody]

end Script

/-! ## Texts in their places -/

namespace Template

/-- How an escaped text is divided between tags. -/
structure IsDivided (reference : Text → Option Text) (s : Text) (children : List Script.Child) :
    Prop where
  reads : ∀ c rest length, (text "<>" ++ escaped s ++ text "</>" ++ rest).length ≤ length →
    Script.element (Script.grammar length) c
      (Script.Source.raw (text "<>" ++ escaped s ++ text "</>" ++ rest)) =
        some (Script.Tree.inner .fragment (children.map Script.Child.tree), Script.Source.raw rest)
  written : children.flatMap Script.Child.code = escaped s
  shown : (∀ d ∈ s, Spacing.isBreak d = false) →
    children.flatMap (Script.Child.shown reference) = s

/-- What is read of a text where it has been written: in a string literal, in an attribute of markup and
of a script, between tags and in a comment. The fields `resolved` and `decoded` undo the references of an
attribute and nothing else. A tokenizer of markup also replaces each NUL, which `markupValue` says; carriage
returns are normalised before it, when the document is read, and not here. -/
structure IsContained (reference : Text → Option Text) (s : Text) : Prop where
  string : ∀ rest, Script.readString (quoted s ++ rest) = some (s, rest)
  unquoted : '"' ∉ escapeAttribute s
  resolved : Html.resolve (escapeAttribute s) = s
  decoded : Script.decode reference (escapeAttribute s) = s
  markupValue : ∀ rest, Html.attributeValue ('"' :: (escapeAttribute s ++ '"' :: rest)) =
    (Html.replaceNul s, rest)
  scriptValue : ∀ rest, Script.readTagString ('"' :: (escapeAttribute s ++ '"' :: rest)) =
    some ('"' :: (escapeAttribute s ++ ['"']), rest)
  children : IsDivided reference s (Script.childrenOf s)
  comment : Text.splitOnce (text "*/") (Node.comment s).inline =
    some (text "\x7b/* " ++ guardComment s ++ [' '], ['\x7d'])

/-- No text leaves the place where it has been written, and none is read there as another one, once the
references in it are undone. What a tokenizer replaces besides references, a NUL or a carriage return, is
told in `IsContained`. -/
theorem isContained {reference : Text → Option Text} (hamp : reference (text "amp") = some ['&'])
    (hquot : reference (text "quot") = some ['"']) (hlt : reference (text "lt") = some ['<'])
    (hgt : reference (text "gt") = some ['>']) (s : Text) : IsContained reference s where
  string := Script.readString_quoted s
  unquoted := Script.quote_not_mem_escapeAttribute s
  resolved := Html.resolve_escapeAttribute s
  decoded := Script.decode_escapeAttribute hamp hquot s
  markupValue := Html.attributeValue_escapeAttribute s
  scriptValue := fun _ => Script.readTagString_append (Script.quote_not_mem_escapeAttribute s)
  children :=
    { reads := fun c rest _ => Script.element_escaped c s rest
      written := Script.flatMap_code_childrenBehind [] s
      shown := Script.flatMap_shown_childrenBehind hamp hlt hgt [] s }
  comment := Script.splitOnce_printComment s

/-- A text with an end of each place, and with what stands for one. -/
def signs : Text := text "\\'&quot;\"*/\x7b<\x7d**/"

theorem isContained_signs : IsContained Module.signReference signs ∧
    quoted signs = text "'\\\\\\'&quot;\"*/\x7b<\x7d**/'" ∧
      escapeAttribute signs = text "\\'&amp;quot;&quot;*/\x7b<\x7d**/" ∧
        guardComment signs = text "\\'&quot;\"* /\x7b<\x7d** /" ∧
          (Script.childrenOf signs).map (Script.Child.shown Module.signReference) =
            [text "\\'&quot;\"*/", ['\x7b'], ['<'], ['\x7d'], text "**/"] :=
  ⟨isContained rfl rfl rfl rfl signs, by decide +kernel, by decide +kernel, by decide +kernel,
    by decide +kernel⟩

end Template

end Viewloom
