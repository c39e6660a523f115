import Viewloom.Html.Lexer
import Viewloom.Markup.Print
import Viewloom.Proofs.Html.References

/-!
# Tokens of printed markup

What the printer writes for a tag or a comment is read as one token, whatever follows it. Names are
read in small letters.
-/

namespace Viewloom.Html

open Markup (escapeAttribute escapeAttributeChar escapeText escapeTextChar printAttribute)
open Text (lowerAscii)

variable {c : Char} {s tag name value rest : Text} {a : Attribute} {attributes : List Attribute}

/-! ## Attributes -/

theorem drop_reference (name rest : Text) : (name ++ ';' :: rest).drop (name.length + 1) = rest := by
  have hsplit : name ++ ';' :: rest = (name ++ [';']) ++ rest := by simp
  rw [hsplit]
  exact List.drop_left' (by simp)

/-- A reference within a value. -/
theorem splitValue_reference (stop : Char → Bool) {letter d : Char} (h : IsEntity letter name [d])
    (hstop : stop '&' = false) (rest : Text) :
    splitValue stop ('&' :: letter :: (name ++ ';' :: rest)) =
      (d :: (splitValue stop rest).1, (splitValue stop rest).2) := by
  rw [splitValue, if_neg (by simp [hstop]), if_pos rfl, h.charReference_eq]
  simp only [List.drop_succ_cons, drop_reference, List.singleton_append]

theorem replaceNul_eq_self (h : nul ∉ s) : replaceNul s = s := by
  have hself : ∀ c ∈ s, (if c = nul then replacementChar else c) = c := by
    intro c hc
    rw [if_neg]
    rintro rfl
    exact h hc
  rw [replaceNul, List.map_congr_left hself, List.map_id']

/-- An escaped value ends at its own quotation mark. -/
theorem splitValue_escapeAttribute (value rest : Text) :
    splitValue (· == '"') (escapeAttribute value ++ '"' :: rest) =
      (replaceNul value, '"' :: rest) := by
  induction value with
  | nil =>
      rw [escapeAttribute, List.flatMap_nil, List.nil_append, splitValue, if_pos (by simp)]
      rfl
  | cons c value ih =>
      have hcons : escapeAttribute (c :: value) = escapeAttributeChar c ++ escapeAttribute value := rfl
      have hvalue : replaceNul (c :: value) =
          (if c = nul then replacementChar else c) :: replaceNul value := rfl
      rw [hcons, hvalue, List.append_assoc, escapeAttributeChar]
      split
      · next hc =>
        have hamp : text "&amp;" = '&' :: 'a' :: (text "mp" ++ [';']) := by decide
        have hstep := splitValue_reference (· == '"') isEntity_amp (by decide)
          (escapeAttribute value ++ '"' :: rest)
        rw [hamp, List.cons_append, List.cons_append, List.append_assoc, List.singleton_append,
          hstep, ih, hc]
        rfl
      · split
        · next hc =>
          have hquot : text "&quot;" = '&' :: 'q' :: (text "uot" ++ [';']) := by decide
          have hstep := splitValue_reference (· == '"') isEntity_quot (by decide)
            (escapeAttribute value ++ '"' :: rest)
          rw [hquot, List.cons_append, List.cons_append, List.append_assoc, List.singleton_append,
            hstep, ih, hc]
          rfl
        · next hamp hquot =>
          rw [List.singleton_append, splitValue, if_neg (by simpa using hquot), if_neg hamp, ih]
          split <;> rfl

/-- An escaped value is read as what it was, but for zero characters. -/
theorem attributeValue_escapeAttribute (value rest : Text) :
    attributeValue ('"' :: (escapeAttribute value ++ '"' :: rest)) = (replaceNul value, rest) := by
  rw [attributeValue, splitValue_escapeAttribute]
  rfl

/-- A name that can be written in a tag: it begins with neither a blank nor a sign that ends a tag,
and nothing in it ends a name. -/
structure IsWritable (name : Text) : Prop where
  begins : ∃ c s, name = c :: s ∧ isSpace c = false ∧ c ≠ '/' ∧ c ≠ '>' ∧
    ∀ d ∈ s, endsAttributeName d = false
  noNul : nul ∉ lowerAscii name

theorem IsWritable.of_all {name : Text} {c : Char} {s : Text} (hname : name = c :: s)
    (hbegins : (!isSpace c && c != '/' && c != '>') = true)
    (hends : s.all (fun d => !endsAttributeName d) = true) (hnul : nul ∉ lowerAscii name) :
    IsWritable name := by
  simp only [Bool.and_eq_true, Bool.not_eq_true', bne_iff_ne] at hbegins
  exact ⟨⟨c, s, hname, hbegins.1.1, hbegins.1.2, hbegins.2, fun d hd => by
    simpa using List.all_eq_true.1 hends d hd⟩, hnul⟩

/-- Attributes that can be written in a tag and read from it. -/
structure AreWritable (attributes : List Attribute) : Prop where
  names : ∀ a ∈ attributes, IsWritable a.name
  values : ∀ a ∈ attributes, nul ∉ a.value
  nodup : (attributes.map fun a => lowerAscii a.name).Nodup

/-- An attribute as it is read, with its name in small letters. -/
def lowered (a : Attribute) : Attribute := ⟨lowerAscii a.name, a.value⟩

theorem skipSpaces_cons_of_not_isSpace (h : isSpace c = false) (s : Text) :
    skipSpaces (c :: s) = c :: s := by
  rw [skipSpaces, List.dropWhile_cons_of_neg (by simp [h])]

/-- Behind an attribute the tag goes on. -/
theorem tagRest_printAttribute (hname : IsWritable a.name) (hvalue : nul ∉ a.value) (rest : Text) :
    tagRest (printAttribute a ++ rest) =
      (tagRest rest).map fun (attributes, closed, rest) =>
        (consAttribute (lowered a) attributes, closed, rest) := by
  obtain ⟨c, s, hsplit, hspace, hslash, hclose, hs⟩ := hname.begins
  have hquote : text "=\"" = ['=', '"'] := by decide
  have hprint : printAttribute a ++ rest =
      ' ' :: c :: (s ++ '=' :: '"' :: (escapeAttribute a.value ++ '"' :: rest)) := by
    simp [printAttribute, hsplit, hquote]
  have hskip : skipSpaces (printAttribute a ++ rest) =
      c :: (s ++ '=' :: '"' :: (escapeAttribute a.value ++ '"' :: rest)) := by
    rw [hprint, skipSpaces, List.dropWhile_cons_of_pos (by decide)]
    exact skipSpaces_cons_of_not_isSpace hspace _
  have htake : (s ++ '=' :: '"' :: (escapeAttribute a.value ++ '"' :: rest)).takeWhile
      (fun c => !endsAttributeName c) = s := by
    rw [List.takeWhile_append_of_pos fun d hd => by simp [hs d hd],
      List.takeWhile_cons_of_neg (by decide), List.append_nil]
  have hdrop : (s ++ '=' :: '"' :: (escapeAttribute a.value ++ '"' :: rest)).dropWhile
      (fun c => !endsAttributeName c) = '=' :: '"' :: (escapeAttribute a.value ++ '"' :: rest) := by
    rw [List.dropWhile_append_of_pos fun d hd => by simp [hs d hd],
      List.dropWhile_cons_of_neg (by decide)]
  rw [tagRest]
  split
  · next h => cases hskip.symm.trans h
  · next h => exact absurd (List.cons.inj (hskip.symm.trans h)).1 hclose
  · next h => exact absurd (List.cons.inj (hskip.symm.trans h)).1 hslash
  · next h => exact absurd (List.cons.inj (hskip.symm.trans h)).1 hslash
  · next h =>
    obtain ⟨rfl, rfl⟩ := List.cons.inj (hskip.symm.trans h)
    have hequals : skipSpaces ((s ++ '=' :: '"' :: (escapeAttribute a.value ++ '"' :: rest)).dropWhile
        (fun c => !endsAttributeName c)) = '=' :: '"' :: (escapeAttribute a.value ++ '"' :: rest) := by
      rw [hdrop, skipSpaces_cons_of_not_isSpace (by decide)]
    dsimp only
    split
    · next after h =>
      obtain rfl := (List.cons.inj (hequals.symm.trans h)).2
      have hopen : skipSpaces ('"' :: (escapeAttribute a.value ++ '"' :: rest)) =
          '"' :: (escapeAttribute a.value ++ '"' :: rest) :=
        skipSpaces_cons_of_not_isSpace (by decide) _
      have hclosed : isUnclosed ('"' :: (escapeAttribute a.value ++ '"' :: rest)) = false := by
        simp [isUnclosed, splitValue_escapeAttribute]
      rw [hopen, hclosed, attributeValue_escapeAttribute, replaceNul_eq_self hvalue, htake, ← hsplit,
        replaceNul_eq_self hname.noNul]
      rfl
    · next h => exact absurd hequals (h _)

theorem tagRest_close (rest : Text) : tagRest ('>' :: rest) = some ([], false, rest) := by
  have hskip : skipSpaces ('>' :: rest) = '>' :: rest :=
    skipSpaces_cons_of_not_isSpace (by decide) rest
  rw [tagRest]
  split
  · next h => cases hskip.symm.trans h
  · next h => rw [(List.cons.inj (hskip.symm.trans h)).2]
  · next h => cases hskip.symm.trans h
  · next h => cases hskip.symm.trans h
  · next hne _ _ h => exact absurd (List.cons.inj (hskip.symm.trans h)).1.symm hne

/-- The attributes of a printed tag are read in order. -/
theorem tagRest_printed (h : AreWritable attributes) (rest : Text) :
    tagRest (attributes.flatMap printAttribute ++ '>' :: rest) =
      some (attributes.map lowered, false, rest) := by
  induction attributes with
  | nil => exact tagRest_close rest
  | cons a as ih =>
      obtain ⟨hnames, hvalues, hnodup⟩ := h
      rw [List.map_cons, List.nodup_cons] at hnodup
      rw [List.forall_mem_cons] at hnames hvalues
      have hfilter : (as.map lowered).filter (fun b => b.name != (lowered a).name) =
          as.map lowered := by
        refine List.filter_eq_self.2 fun b hb => ?_
        obtain ⟨a', ha', rfl⟩ := List.mem_map.1 hb
        rw [bne_iff_ne]
        exact fun heq => hnodup.1 (List.mem_map.2 ⟨a', ha', heq⟩)
      rw [List.flatMap_cons, List.append_assoc, tagRest_printAttribute hnames.1 hvalues.1,
        ih ⟨hnames.2, hvalues.2, hnodup.2⟩]
      simp [consAttribute, hfilter]

/-! ## Tags -/

/-- A tag that can be written: a letter, and nothing behind it that ends a name. -/
structure IsTag (tag : Text) : Prop where
  begins : ∃ c s, tag = c :: s ∧ c.isAlpha = true ∧ ∀ d ∈ s, endsTagName d = false
  noNul : nul ∉ lowerAscii tag

theorem IsTag.of_all {c : Char} {s : Text} (htag : tag = c :: s) (hc : c.isAlpha = true)
    (hs : s.all (fun d => !endsTagName d) = true) (hnul : nul ∉ lowerAscii tag) : IsTag tag :=
  ⟨⟨c, s, htag, hc, fun d hd => by simpa using List.all_eq_true.1 hs d hd⟩, hnul⟩

theorem IsTag.all (h : IsTag tag) : ∀ d ∈ tag, (!endsTagName d) = true := by
  obtain ⟨c, s, rfl, hc, hs⟩ := h.begins
  have hends : ∀ d, endsTagName d = true → d.isAlpha = false := by
    intro d hd
    simp only [endsTagName, isSpace, Bool.or_eq_true, beq_iff_eq] at hd
    rcases hd with ((((((rfl | rfl) | rfl) | rfl) | rfl) | rfl) | rfl) <;> decide
  intro d hd
  rcases List.mem_cons.1 hd with rfl | hd
  · cases hend : endsTagName d with
    | false => rfl
    | true => rw [hends d hend] at hc; cases hc
  · simp [hs d hd]

/-- What stands behind a printed tag name ends it. -/
theorem head?_attributes (attributes : List Attribute) (rest : Text) :
    (attributes.flatMap printAttribute ++ '>' :: rest).head?.any endsTagName = true := by
  cases attributes with
  | nil => rfl
  | cons a as => rfl

/-- What ends a name is no part of it. -/
theorem takeWhile_of_ends (h : s.head?.any endsTagName = true) :
    s.takeWhile (fun c => !endsTagName c) = [] ∧ s.dropWhile (fun c => !endsTagName c) = s := by
  cases s with
  | nil => cases h
  | cons c s =>
      have hc : endsTagName c = true := h
      rw [List.takeWhile_cons_of_neg (by simp [hc]), List.dropWhile_cons_of_neg (by simp [hc])]
      exact ⟨rfl, rfl⟩

/-- A printed tag is read with its attributes. -/
theorem tagToken_printed (token : List Attribute → Bool → Token) (htag : IsTag tag)
    (h : AreWritable attributes) (rest : Text) :
    tagToken token (tag ++ (attributes.flatMap printAttribute ++ '>' :: rest)) =
        (some (token (attributes.map lowered) false), rest) ∧
      tagName (tag ++ (attributes.flatMap printAttribute ++ '>' :: rest)) = lowerAscii tag := by
  have hends := head?_attributes attributes rest
  have htake : (tag ++ (attributes.flatMap printAttribute ++ '>' :: rest)).takeWhile
      (fun c => !endsTagName c) = tag := by
    rw [List.takeWhile_append_of_pos htag.all, (takeWhile_of_ends hends).1, List.append_nil]
  have hdrop : (tag ++ (attributes.flatMap printAttribute ++ '>' :: rest)).dropWhile
      (fun c => !endsTagName c) = attributes.flatMap printAttribute ++ '>' :: rest := by
    rw [List.dropWhile_append_of_pos htag.all, (takeWhile_of_ends hends).2]
  constructor
  · rw [tagToken, hdrop, tagRest_printed h]
  · rw [tagName, htake, replaceNul_eq_self htag.noNul]

/-- A printed start tag is read as one token. -/
theorem dataToken_openTag (foreign : Bool) (htag : IsTag tag) (h : AreWritable attributes)
    (rest : Text) :
    dataToken foreign (Markup.openTag tag attributes ++ rest) =
      (some (.startTag (lowerAscii tag) (attributes.map lowered) false), rest, .data) := by
  obtain ⟨c, s, hsplit, hc, -⟩ := htag.begins
  have hopen : Markup.openTag tag attributes ++ rest =
      '<' :: (tag ++ (attributes.flatMap printAttribute ++ '>' :: rest)) := by
    simp [Markup.openTag]
  obtain ⟨htoken, hname⟩ := tagToken_printed (.startTag (lowerAscii tag)) htag h rest
  have hhead : (tag ++ (attributes.flatMap printAttribute ++ '>' :: rest)).head? = some c := by
    simp [hsplit]
  have hfirst : ∀ d t, tag ++ (attributes.flatMap printAttribute ++ '>' :: rest) = d :: t →
      d.isAlpha = true := by
    intro d t heq
    rw [heq] at hhead
    exact Option.some.inj hhead ▸ hc
  rw [hopen, dataToken.eq_7]
  · rw [hhead, if_pos (by simp [hc]), startTagToken, hname, htoken]
  · intro t _ heq
    exact absurd (hfirst _ _ heq) (by decide)
  · intro t _ heq
    exact absurd (hfirst _ _ heq) (by decide)
  · intro _ heq
    exact absurd (hfirst _ _ heq) (by decide)
  · intro t _ heq
    exact absurd (hfirst _ _ heq) (by decide)
  · intro d t _ heq
    exact absurd (hfirst _ _ heq) (by decide)

/-- A printed end tag is read. -/
theorem endTagToken_printed (htag : IsTag tag) (rest : Text) :
    endTagToken (tag ++ '>' :: rest) = (some (.endTag (lowerAscii tag)), rest) := by
  have hnone : AreWritable [] := ⟨by simp, by simp, by simp⟩
  obtain ⟨htoken, hname⟩ := tagToken_printed (fun _ _ => .endTag (lowerAscii tag)) htag hnone rest
  rw [List.flatMap_nil, List.nil_append] at htoken hname
  rw [endTagToken, hname, htoken]

/-- A printed end tag is read as one token. -/
theorem dataToken_closeTag (foreign : Bool) (htag : IsTag tag) (rest : Text) :
    dataToken foreign (Markup.closeTag tag ++ rest) =
      (some (.endTag (lowerAscii tag)), rest, .data) := by
  obtain ⟨c, s, hsplit, hc, -⟩ := htag.begins
  have hmark : text "</" = ['<', '/'] := by decide
  have hclose : Markup.closeTag tag ++ rest = '<' :: '/' :: c :: (s ++ '>' :: rest) := by
    simp [Markup.closeTag, hmark, hsplit]
  have htoken := endTagToken_printed htag rest
  rw [hsplit, List.cons_append] at htoken
  have hne : c ≠ '>' := by
    rintro rfl
    exact absurd hc (by decide)
  rw [hclose, dataToken.eq_6 _ _ _ (fun h => hne h), if_pos hc, htoken, hsplit]

/-! ## Comments -/

/-- A comment that can be written: it does not begin like an end of its own, and holds none. -/
structure IsComment (value : Text) : Prop where
  first : ¬ ['>'] <+: value
  second : ¬ ['-', '>'] <+: value
  inner : ¬ text "-->" <:+: value
  bang : ¬ text "--!>" <:+: value
  noNul : nul ∉ value

/-- The content of a comment that ends nowhere else is read up to its end. -/
theorem splitCommentBody_printed (hinner : ¬ text "-->" <:+: value)
    (hbang : ¬ text "--!>" <:+: value) (rest : Text) :
    splitCommentBody (value ++ '-' :: '-' :: '>' :: rest) = (value, true, rest) := by
  have hend : text "-->" = ['-', '-', '>'] := by decide
  have hother : text "--!>" = ['-', '-', '!', '>'] := by decide
  rw [hend] at hinner
  rw [hother] at hbang
  induction value with
  | nil => rw [List.nil_append, splitCommentBody]
  | cons c value ih =>
      rw [List.infix_cons_iff, not_or] at hinner hbang
      rw [List.cons_append, splitCommentBody.eq_4, ih hinner.2 hbang.2]
      · rintro t rfl heq
        rcases value with _ | ⟨d, _ | ⟨e, value⟩⟩
        · simp at heq
        · simp at heq
        · simp only [List.cons_append, List.cons.injEq] at heq
          obtain ⟨rfl, rfl, -⟩ := heq
          exact hinner.1 ⟨value, rfl⟩
      · rintro t rfl heq
        rcases value with _ | ⟨d, _ | ⟨e, _ | ⟨f, value⟩⟩⟩
        · simp at heq
        · simp at heq
        · simp at heq
        · simp only [List.cons_append, List.cons.injEq] at heq
          obtain ⟨rfl, rfl, rfl, -⟩ := heq
          exact hbang.1 ⟨value, rfl⟩

/-- A printed comment is read as one token. -/
theorem dataToken_printComment (foreign : Bool) (h : IsComment value) (rest : Text) :
    dataToken foreign (Markup.printComment value ++ rest) = (some (.comment value), rest, .data) := by
  have hopen : text "<!--" = ['<', '!', '-', '-'] := by decide
  have hend : text "-->" = ['-', '-', '>'] := by decide
  have hdashes : text "--" = ['-', '-'] := by decide
  have hprint : Markup.printComment value ++ rest =
      '<' :: '!' :: '-' :: '-' :: (value ++ '-' :: '-' :: '>' :: rest) := by
    simp [Markup.printComment, hopen, hend]
  have hbody := splitCommentBody_printed h.inner h.bang rest
  have htoken : commentToken (value ++ '-' :: '-' :: '>' :: rest) = (some (.comment value), rest) := by
    rw [commentToken.eq_3, hbody]
    · simp only [if_true, replaceNul_eq_self h.noNul]
    · intro t heq
      rcases value with _ | ⟨c, value⟩
      · simp at heq
      · exact h.first ⟨value, by rw [(List.cons.inj heq).1]; rfl⟩
    · intro t heq
      rcases value with _ | ⟨c, _ | ⟨d, value⟩⟩
      · simp at heq
      · simp at heq
      · simp only [List.cons_append, List.cons.injEq] at heq
        obtain ⟨rfl, rfl, -⟩ := heq
        exact h.second ⟨value, rfl⟩
  have hstrip : Text.stripStart (text "--") ('-' :: '-' :: (value ++ '-' :: '-' :: '>' :: rest)) =
      some (value ++ '-' :: '-' :: '>' :: rest) := by
    rw [hdashes]
    exact Text.stripStart_eq_some_iff.2 rfl
  rw [hprint, dataToken, declarationToken, hstrip]
  simp only [htoken]

/-! ## Texts -/

/-- A character that the printer writes in a text as it stands. -/
def isPlain (c : Char) : Bool := !(c == '&' || c == '<' || c == '>')

theorem escapeText_append (s t : Text) : escapeText (s ++ t) = escapeText s ++ escapeText t :=
  List.flatMap_append

theorem escapeTextChar_of_isPlain (h : isPlain c = true) : escapeTextChar c = [c] := by
  simp only [isPlain, Bool.not_eq_true', Bool.or_eq_false_iff, beq_eq_false_iff_ne] at h
  rw [escapeTextChar, if_neg h.1.1, if_neg h.1.2, if_neg h.2]

theorem escapeText_of_isPlain (h : ∀ c ∈ s, isPlain c = true) : escapeText s = s := by
  have hself : ∀ c ∈ s, escapeTextChar c = [c] := fun c hc => escapeTextChar_of_isPlain (h c hc)
  rw [escapeText, List.flatMap_congr hself, List.flatMap_singleton']

/-- A sign that is written as a reference. -/
theorem exists_isEntity (h : isPlain c = false) : ∃ letter name, IsEntity letter name [c] ∧
    escapeTextChar c = '&' :: letter :: (name ++ [';']) := by
  simp only [isPlain, Bool.not_eq_false', Bool.or_eq_true, beq_iff_eq] at h
  rcases h with (rfl | rfl) | rfl
  · exact ⟨'a', text "mp", isEntity_amp, by decide⟩
  · exact ⟨'l', text "t", isEntity_lt, by decide⟩
  · exact ⟨'g', text "t", isEntity_gt, by decide⟩

/-- Characters are read up to the next sign of markup. -/
theorem dataToken_chars (foreign : Bool) (h : endsText c = false) (s : Text) :
    dataToken foreign (c :: s) =
      (some (.chars (splitRun endsText c s).1), (splitRun endsText c s).2, .data) := by
  simp only [endsText, Bool.or_eq_false_iff, beq_eq_false_iff_ne] at h
  rw [dataToken.eq_7]
  · simp [h.1.1, h.1.2, h.2]
  · exact fun _ heq _ => h.1.1 heq
  · exact fun _ heq _ => h.1.1 heq
  · exact fun heq _ => h.1.1 heq
  · exact fun _ heq _ => h.1.1 heq
  · exact fun _ _ heq _ => h.1.1 heq

/-- A known reference is read as the characters it stands for. -/
theorem dataToken_reference (foreign : Bool) {letter : Char} (h : IsEntity letter name value)
    (rest : Text) :
    dataToken foreign ('&' :: letter :: (name ++ ';' :: rest)) =
      (some (.chars value), rest, .data) := by
  rw [dataToken.eq_7]
  · rw [if_neg (by simp), if_pos rfl, h.charReference_eq]
    simp only [List.drop_succ_cons, drop_reference]
  all_goals simp

/-- Whether a character goes on with the run of another one in a printed text. -/
def goesOn (c d : Char) : Bool := isPlain d && isSpace d == isSpace c

/-- An escaped text goes on as long as the text does. -/
theorem takeWhile_escapeText (hnul : nul ∉ s) (hrest : ∀ d, rest.head? = some d → d = '<') :
    (escapeText s ++ rest).takeWhile (fun d => !endsText d && isSpace d == isSpace c) =
      s.takeWhile (goesOn c) := by
  have hstop : ∀ {t : Text}, t.head?.all endsText = true →
      t.takeWhile (fun d => !endsText d && isSpace d == isSpace c) = [] := by
    intro t ht
    cases t with
    | nil => rfl
    | cons d t =>
        have hd : endsText d = true := by simpa using ht
        exact List.takeWhile_cons_of_neg (by simp [hd])
  induction s with
  | nil =>
      refine hstop ?_
      cases rest with
      | nil => rfl
      | cons d rest =>
          rw [hrest d rfl]
          rfl
  | cons d s ih =>
      rw [List.mem_cons, not_or] at hnul
      have hcons : escapeText (d :: s) = escapeTextChar d ++ escapeText s := rfl
      cases hd : isPlain d with
      | false =>
          obtain ⟨letter, name, -, hescape⟩ := exists_isEntity hd
          rw [hcons, hescape, List.takeWhile_cons_of_neg (by simp [goesOn, hd])]
          exact hstop rfl
      | true =>
          have hends : endsText d = false := by
            simp only [isPlain, Bool.not_eq_true', Bool.or_eq_false_iff] at hd
            simp [endsText, hd.1.1, hd.1.2, Ne.symm hnul.1]
          rw [hcons, escapeTextChar_of_isPlain hd, List.append_assoc, List.singleton_append]
          cases hspace : isSpace d == isSpace c with
          | true =>
              rw [List.takeWhile_cons_of_pos (by simp [hends, hspace]), ih hnul.2,
                List.takeWhile_cons_of_pos (by simp [goesOn, hd, hspace])]
          | false =>
              rw [List.takeWhile_cons_of_neg (by simp [hspace]),
                List.takeWhile_cons_of_neg (by simp [goesOn, hspace])]

/-- A printed text is read bit by bit. -/
theorem dataToken_escapeText (foreign : Bool) (hne : value ≠ []) (hnul : nul ∉ value)
    (hrest : ∀ d, rest.head? = some d → d = '<') :
    ∃ bit more, value = bit ++ more ∧ bit ≠ [] ∧
      dataToken foreign (escapeText value ++ rest) =
        (some (.chars bit), escapeText more ++ rest, .data) := by
  obtain ⟨c, s, rfl⟩ := List.exists_cons_of_ne_nil hne
  have hcons : escapeText (c :: s) = escapeTextChar c ++ escapeText s := rfl
  cases hc : isPlain c with
  | false =>
      obtain ⟨letter, name, hentity, hescape⟩ := exists_isEntity hc
      refine ⟨[c], s, rfl, by simp, ?_⟩
      rw [hcons, hescape, ← dataToken_reference foreign hentity]
      simp
  | true =>
      rw [List.mem_cons, not_or] at hnul
      have hends : endsText c = false := by
        simp only [isPlain, Bool.not_eq_true', Bool.or_eq_false_iff] at hc
        simp [endsText, hc.1.1, hc.1.2, Ne.symm hnul.1]
      have hrun : ∀ d ∈ s.takeWhile (goesOn c), isPlain d = true := fun d hd =>
        (Bool.and_eq_true_iff.1 (List.all_eq_true.1 List.all_takeWhile d hd)).1
      have hsplit : escapeText s ++ rest =
          s.takeWhile (goesOn c) ++ (escapeText (s.dropWhile (goesOn c)) ++ rest) := by
        have happend := escapeText_append (s.takeWhile (goesOn c)) (s.dropWhile (goesOn c))
        rw [List.takeWhile_append_dropWhile, escapeText_of_isPlain hrun] at happend
        rw [happend, List.append_assoc]
      refine ⟨c :: s.takeWhile (goesOn c), s.dropWhile (goesOn c), by simp, by simp, ?_⟩
      rw [hcons, escapeTextChar_of_isPlain hc, List.append_assoc, List.singleton_append,
        dataToken_chars foreign hends, splitRun, takeWhile_escapeText hnul.2 hrest, hsplit,
        List.drop_left]

/-! ## Texts of elements that hold only text -/

/-- No closing tag begins with another sign. -/
theorem closes_of_lt {c : Char} {s : Text} (h : c ≠ '<') : closes tag (c :: s) = false := by
  unfold closes
  split
  · next heq => exact absurd (List.cons.inj heq).1 h
  · rfl

/-- Whether an end tag follows is seen from as many characters as it has. -/
theorem closes_append (h : tag.length + 3 ≤ s.length) (rest : Text) :
    closes tag (s ++ rest) = closes tag s := by
  rcases s with _ | ⟨c, _ | ⟨d, s⟩⟩
  · simp at h
  · simp at h
  · simp only [List.length_cons] at h
    have htake : (s ++ rest).take tag.length = s.take tag.length :=
      List.take_append_of_le_length (by omega)
    have hdrop : ((s ++ rest).drop tag.length).head? = (s.drop tag.length).head? := by
      rw [List.drop_append_of_le_length (by omega), List.head?_append_of_ne_nil]
      exact List.ne_nil_of_length_pos (by rw [List.length_drop]; omega)
    by_cases hopen : c = '<' ∧ d = '/'
    · obtain ⟨rfl, rfl⟩ := hopen
      simp only [closes, List.cons_append, htake, hdrop]
    · rw [List.cons_append, List.cons_append]
      unfold closes
      split
      · next heq =>
        simp only [List.cons.injEq] at heq
        exact absurd ⟨heq.1, heq.2.1⟩ hopen
      · split
        · next heq =>
          simp only [List.cons.injEq] at heq
          exact absurd ⟨heq.1, heq.2.1⟩ hopen
        · rfl

theorem closeTag_eq (tag : Text) : Markup.closeTag tag = '<' :: '/' :: (tag ++ ['>']) := by
  have hmark : text "</" = ['<', '/'] := by decide
  rw [Markup.closeTag, hmark]
  rfl

theorem length_closeTag (tag : Text) : (Markup.closeTag tag).length = tag.length + 3 := by
  rw [closeTag_eq]
  simp

/-- A closing tag closes its element, whatever follows. -/
theorem closes_closeTag (tag rest : Text) : closes tag (Markup.closeTag tag ++ rest) = true := by
  rw [closes_append (length_closeTag tag).ge, closeTag_eq]
  have hends : endsTagName '>' = true := by decide
  simp [closes, Text.equalsIgnoreCaseAscii, hends]

/-- A text that stands as it is in front of the end tag of its element. -/
def IsRaw (tag value : Text) : Prop :=
  splitRaw tag (value ++ Markup.closeTag tag) = (value, Markup.closeTag tag)

theorem splitRaw_closeTag (tag rest : Text) :
    splitRaw tag (Markup.closeTag tag ++ rest) = ([], Markup.closeTag tag ++ rest) := by
  have hcloses := closes_closeTag tag rest
  rw [closeTag_eq, List.cons_append] at hcloses ⊢
  rw [splitRaw, if_pos hcloses]

/-- A raw text is read up to its closing tag. -/
theorem splitRaw_printed (h : IsRaw tag value) (rest : Text) :
    splitRaw tag (value ++ (Markup.closeTag tag ++ rest)) = (value, Markup.closeTag tag ++ rest) := by
  induction value with
  | nil => exact splitRaw_closeTag tag rest
  | cons c value ih =>
      have hlong : tag.length + 3 ≤ (c :: (value ++ Markup.closeTag tag)).length := by
        simp [length_closeTag]
        omega
      have hsame := closes_append hlong rest
      rw [IsRaw, List.cons_append, splitRaw] at h
      split at h
      · cases h
      · next hcloses =>
        simp only [Prod.mk.injEq, List.cons.injEq, true_and] at h
        have hrest := ih (Prod.ext h.1 h.2)
        rw [List.cons_append, List.append_assoc] at hsame
        rw [List.cons_append, splitRaw, hsame, if_neg hcloses, hrest]

theorem not_mem_escapeText (value : Text) : '<' ∉ escapeText value := by
  rw [escapeText, List.mem_flatMap]
  rintro ⟨c, -, hc⟩
  cases hplain : isPlain c with
  | true =>
      rw [escapeTextChar_of_isPlain hplain, List.mem_singleton] at hc
      subst hc
      cases hplain
  | false =>
      simp only [isPlain, Bool.not_eq_false', Bool.or_eq_true, beq_iff_eq] at hplain
      rcases hplain with (rfl | rfl) | rfl <;> exact absurd hc (by decide)

/-- A raw text without angle brackets does not close its element. -/
theorem isRaw_of_not_mem (h : '<' ∉ value) : IsRaw tag value := by
  induction value with
  | nil => simpa [IsRaw] using splitRaw_closeTag tag []
  | cons c value ih =>
      rw [List.mem_cons, not_or] at h
      have hrest : splitRaw tag (value ++ Markup.closeTag tag) = _ := ih h.2
      rw [IsRaw, List.cons_append, splitRaw, closes_of_lt (Ne.symm h.1), hrest]
      simp

/-- An escaped text does not close the element it stands in. -/
theorem isRaw_escapeText (tag value : Text) : IsRaw tag (escapeText value) :=
  isRaw_of_not_mem (not_mem_escapeText value)

theorem splitEscapable_closeTag (tag rest : Text) :
    splitEscapable tag (Markup.closeTag tag ++ rest) = ([], Markup.closeTag tag ++ rest) := by
  have hcloses := closes_closeTag tag rest
  rw [closeTag_eq, List.cons_append] at hcloses ⊢
  rw [splitEscapable, if_pos hcloses]

/-- A printed text with references is read in front of the end tag of its element. -/
theorem splitEscapable_printed (hnul : nul ∉ value) (tag rest : Text) :
    splitEscapable tag (escapeText value ++ (Markup.closeTag tag ++ rest)) =
      (value, Markup.closeTag tag ++ rest) := by
  induction value with
  | nil => exact splitEscapable_closeTag tag rest
  | cons c value ih =>
      rw [List.mem_cons, not_or] at hnul
      have hcons : escapeText (c :: value) = escapeTextChar c ++ escapeText value := rfl
      cases hplain : isPlain c with
      | true =>
          have hsigns := hplain
          simp only [isPlain, Bool.not_eq_true', Bool.or_eq_false_iff, beq_eq_false_iff_ne] at hsigns
          rw [hcons, escapeTextChar_of_isPlain hplain, List.append_assoc, List.singleton_append,
            splitEscapable, closes_of_lt hsigns.1.2, if_neg hsigns.1.1, if_neg (Ne.symm hnul.1),
            ih hnul.2]
          simp
      | false =>
          obtain ⟨letter, name, hentity, hescape⟩ := exists_isEntity hplain
          rw [hcons, hescape]
          simp only [List.cons_append, List.append_assoc, List.nil_append]
          rw [splitEscapable, closes_of_lt (by decide), if_neg (by simp), if_pos rfl,
            hentity.charReference_eq]
          simp only [List.drop_succ_cons, drop_reference, ih hnul.2, List.singleton_append]

/-! ## Scripts -/

/-- A script that ends where its end tag stands. -/
def IsScript (value : Text) : Prop :=
  splitScript .outside (value ++ Markup.closeTag (text "script")) =
    (value, Markup.closeTag (text "script"))

theorem isPrefixOf_append {start : Text} (h : start.length ≤ s.length) (rest : Text) :
    start.isPrefixOf (s ++ rest) = start.isPrefixOf s := by
  rw [Bool.eq_iff_iff, List.isPrefixOf_iff_prefix, List.isPrefixOf_iff_prefix]
  exact ⟨fun hp => List.prefix_of_prefix_length_le hp (List.prefix_append ..) h,
    fun hp => hp.trans (List.prefix_append ..)⟩

theorem namesScript_append (h : 7 ≤ s.length) (rest : Text) :
    namesScript (s ++ rest) = namesScript s := by
  rw [namesScript, namesScript, List.take_append_of_le_length (by omega),
    List.drop_append_of_le_length (by omega), List.head?_append_of_ne_nil]
  exact List.ne_nil_of_length_pos (by rw [List.length_drop]; omega)

/-- How deep a script stands is seen from as many characters as its end tag has. -/
theorem step_append (depth : ScriptDepth) (c : Char) (h : 9 ≤ s.length) (rest : Text) :
    depth.step c (s ++ rest) = depth.step c s := by
  have hne : s ≠ [] := List.ne_nil_of_length_pos (by omega)
  have hlength : 7 ≤ s.tail.length := by
    rw [List.length_tail]
    omega
  have hcomment : (text "!--").length ≤ s.length := by
    have : (text "!--").length = 3 := by decide
    omega
  cases depth with
  | outside => simp only [ScriptDepth.step, isPrefixOf_append hcomment]
  | comment dashes => simp only [ScriptDepth.step, namesScript_append (show 7 ≤ s.length by omega)]
  | nested dashes =>
      simp only [ScriptDepth.step, List.head?_append_of_ne_nil _ hne,
        List.tail_append_of_ne_nil hne, namesScript_append hlength]

/-- A script that ends at its closing tag does so whatever follows. -/
theorem splitScript_append {depth : ScriptDepth}
    (h : splitScript depth (value ++ Markup.closeTag (text "script")) =
      (value, Markup.closeTag (text "script"))) (rest : Text) :
    splitScript depth (value ++ (Markup.closeTag (text "script") ++ rest)) =
      (value, Markup.closeTag (text "script") ++ rest) := by
  have hlength : (Markup.closeTag (text "script")).length = 9 := by decide
  have hname : (text "script").length = 6 := by decide
  have hlong : ∀ {s : Text}, 9 ≤ s.length → closes (text "script") (s ++ rest) =
      closes (text "script") s := fun hs => closes_append (by rw [hname]; exact hs) rest
  induction value generalizing depth with
  | nil =>
      have hsame := hlong hlength.ge
      rw [closeTag_eq, List.cons_append] at hsame ⊢
      rw [List.nil_append, closeTag_eq, splitScript] at h
      rw [List.nil_append, splitScript, hsame]
      split at h
      · next hcloses => rw [if_pos hcloses]
      · cases h
  | cons c value ih =>
      have hsame := hlong (s := c :: (value ++ Markup.closeTag (text "script"))) (by simp; omega)
      have hstep := step_append depth c (s := value ++ Markup.closeTag (text "script"))
        (by simp; omega) rest
      rw [List.cons_append, splitScript] at h
      split at h
      · cases h
      · next hcloses =>
        simp only [Prod.mk.injEq, List.cons.injEq, true_and] at h
        rw [List.cons_append, List.append_assoc] at hsame
        rw [List.append_assoc] at hstep
        rw [List.cons_append, splitScript, hsame, if_neg hcloses, hstep, ih (Prod.ext h.1 h.2)]

end Viewloom.Html
