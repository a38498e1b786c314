/-!
Counts that must fit a machine word of 64 bits: indentation widths, scroll offsets, positions in a
token list. A word is a natural number below `Word.size`. What becomes of a sum that is no word
depends on how the program is built: it stops there, or it goes on from zero.
-/

namespace PasoFrontEnd.Word

/-- The number of words, the 64th power of two. -/
def size : Nat := 0x10000000000000000

/-- The greatest word. -/
def last : Nat := size - 1

/-- The sum of two words, starting again at zero beyond the greatest word. -/
def add (m n : Nat) : Nat := (m + n) % size

/-- The sum of two words, if it is a word. -/
def add? (m n : Nat) : Option Nat := if m + n < size then some (m + n) else none

/-- The difference of two words, if it is a word. -/
def sub? (m n : Nat) : Option Nat := if n ≤ m then some (m - n) else none

/-- The next word; the greatest word is its own successor. -/
def succ (n : Nat) : Nat := min (n + 1) last

theorem add?_eq_some {m n : Nat} (h : m + n < size) : add? m n = some (m + n) := if_pos h

theorem sub?_eq_some {m n : Nat} (h : n ≤ m) : sub? m n = some (m - n) := if_pos h

/-- How a program is built. -/
inductive Build where
  /-- It stops at a sum that is no word. -/
  | checked
  /-- It goes on from zero behind the greatest word. -/
  | wrapping
deriving DecidableEq, Repr

/-- The sum of two words in a program of this build; `none` where it stops. -/
def Build.add? : Build → Nat → Nat → Option Nat
  | checked, m, n => Word.add? m n
  | wrapping, m, n => some (Word.add m n)

end PasoFrontEnd.Word
