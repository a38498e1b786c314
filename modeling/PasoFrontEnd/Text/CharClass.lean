import PasoFrontEnd.Text.Letters
import PasoFrontEnd.Text.Numerals

/-!
Classes of characters. Letters, numerals and blanks are the Unicode classes; a decimal digit is one
of the ten ASCII digits. Case and normal forms play no part.
-/

namespace PasoFrontEnd.Text

/-- Membership in closed ranges that ascend: the search ends at the first range that begins beyond
the number. -/
def inRanges : List (Nat × Nat) → Nat → Bool
  | [], _ => false
  | (lo, hi) :: rest, n => if n < lo then false else n ≤ hi || inRanges rest n

/-- The code points with the White_Space property. -/
def blankRanges : List (Nat × Nat) :=
  [(0x09, 0x0D), (0x20, 0x20), (0x85, 0x85), (0xA0, 0xA0), (0x1680, 0x1680), (0x2000, 0x200A),
   (0x2028, 0x2029), (0x202F, 0x202F), (0x205F, 0x205F), (0x3000, 0x3000)]

def isLetter (c : Char) : Bool := inRanges letterRanges c.toNat

def isNumeral (c : Char) : Bool := inRanges numeralRanges c.toNat

/-- The characters that continue a word. -/
def isLetterOrNumeral (c : Char) : Bool := isLetter c || isNumeral c

def isBlank (c : Char) : Bool := inRanges blankRanges c.toNat

/-- Spaces and tabs: the characters that indent a line and separate the words of one keyword. -/
def isGap (c : Char) : Bool := c = ' ' || c = '\t'

end PasoFrontEnd.Text
