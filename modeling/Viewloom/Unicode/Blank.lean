import Viewloom.Text.Basic

/-!
# Blank characters

The characters with the Unicode property White_Space, and the text operations that depend on them.
-/

namespace Viewloom

namespace Unicode

/-- The characters with the property White_Space. -/
def blanks : List Nat :=
  [0x9, 0xa, 0xb, 0xc, 0xd, 0x20, 0x85, 0xa0, 0x1680, 0x2000, 0x2001, 0x2002, 0x2003, 0x2004,
    0x2005, 0x2006, 0x2007, 0x2008, 0x2009, 0x200a, 0x2028, 0x2029, 0x202f, 0x205f, 0x3000]

def isBlank (c : Char) : Bool := blanks.contains c.toNat

end Unicode

namespace Text

open Unicode

def trimStart (s : Text) : Text := s.dropWhile isBlank

def trimEnd (s : Text) : Text := dropWhileEnd isBlank s

/-- Drops the blanks at both ends. -/
def trim (s : Text) : Text := trimEnd (trimStart s)

/-- Whether a text consists of blanks, as the empty one does. -/
def isAllBlank (s : Text) : Bool := s.all isBlank

end Text

end Viewloom
