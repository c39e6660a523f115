/-!
# Text

Text is a list of characters, so that every scanner and printer of the library is a function on
lists and can be reasoned about with list lemmas.
-/

namespace Viewloom

/-- A text, as the list of its characters. -/
abbrev Text := List Char

/-- The text of a literal of ASCII characters, read byte by byte. -/
def text (literal : String) : Text :=
  literal.toByteArray.data.toList.map fun b => Char.ofNat b.toNat

namespace Text

/-- The rest of a text behind a given beginning. -/
def stripStart : Text → Text → Option Text
  | [], s => some s
  | _ :: _, [] => none
  | p :: ps, c :: s => if p = c then stripStart ps s else none

/-- Cuts a text at the first occurrence of a separator. -/
def splitOnce (separator : Text) : Text → Option (Text × Text)
  | [] => if separator = [] then some ([], []) else none
  | c :: s =>
    match stripStart separator (c :: s) with
    | some rest => some ([], rest)
    | none => (splitOnce separator s).map fun (before, after) => (c :: before, after)

/-- Drops one carriage return from the end of a line. -/
def dropReturn : Text → Text
  | [] => []
  | ['\r'] => []
  | c :: s => c :: dropReturn s

/-- Drops the terminators of lines. A last line is not terminated, and is none if it is empty. -/
def closeLines : List Text → List Text
  | [] => []
  | [last] => if last = [] then [] else [last]
  | line :: rest => dropReturn line :: closeLines rest

/-- The lines of a text without their terminators, `\n` or `\r\n`. A last line is not terminated
and keeps its carriage return. -/
def lines (s : Text) : List Text := closeLines (s.splitOnP (· == '\n'))

/-- Lowers the ASCII capitals. -/
def lowerAscii (s : Text) : Text := s.map Char.toLower

/-- Whether texts differ in the case of Latin letters at most. -/
def equalsIgnoreCaseAscii (s t : Text) : Bool := lowerAscii s == lowerAscii t

/-- Drops the characters at the end that satisfy a test. -/
def dropWhileEnd (p : Char → Bool) (s : Text) : Text := (s.reverse.dropWhile p).reverse

@[simp]
theorem stripStart_nil (s : Text) : stripStart [] s = some s := by
  cases s <;> rfl

/-- A start is stripped from the texts that begin with it, and from no others. -/
theorem stripStart_eq_some_iff {start s rest : Text} :
    stripStart start s = some rest ↔ s = start ++ rest := by
  induction start generalizing s with
  | nil => simp
  | cons p ps ih =>
    cases s with
    | nil => simp [stripStart]
    | cons c s => by_cases h : p = c <;> simp [stripStart, h, ih, eq_comm]

/-- Cutting loses nothing but the separator. -/
theorem append_of_splitOnce {separator s before after : Text}
    (h : splitOnce separator s = some (before, after)) : s = before ++ separator ++ after := by
  induction s generalizing before with
  | nil =>
    simp only [splitOnce] at h
    split at h <;> simp_all
  | cons c s ih =>
    simp only [splitOnce] at h
    split at h
    · next rest hrest =>
      simp only [Option.some.injEq, Prod.mk.injEq] at h
      obtain ⟨rfl, rfl⟩ := h
      simpa using stripStart_eq_some_iff.1 hrest
    · simp only [Option.map_eq_some_iff, Prod.mk.injEq, Prod.exists] at h
      obtain ⟨b, a, hba, rfl, rfl⟩ := h
      simp [ih hba]

end Text

end Viewloom
