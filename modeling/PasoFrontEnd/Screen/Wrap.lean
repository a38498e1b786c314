import PasoFrontEnd.Text.CharClass

/-!
Filling lines with words. Characters of any kind are put into lines of a given width, broken where
words end; a word that fits into no line is broken anywhere. No line begins with a blank: the blanks
behind a break go with the line before it, as far as that has room for them, and are not shown.
-/

namespace PasoFrontEnd.Screen

/-- Blanks that a line can be broken at: white space, but no fixed blank, and the blank without
width. -/
def isBreak (c : Char) : Bool :=
  c = '\u200B' || Text.isBlank c && c ≠ '\u00A0'

/-- A text on its way into lines: the finished lines, last one first; the line being filled; and
behind it the gap and the word that it does not hold yet. -/
structure Wrap (α : Type) where
  done : List (List α) := []
  line : List α := []
  gap : List α := []
  word : List α := []
  /-- Whether the last character belongs to a word. -/
  inWord : Bool := false

namespace Wrap

variable {α : Type}

/-- Moves gap and word into the line. An empty line takes no gap. -/
def join (w : Wrap α) : Wrap α :=
  { w with
    line := (if w.line.isEmpty then [] else w.line ++ w.gap) ++ w.word
    gap := []
    word := [] }

/-- Puts a character behind the word, or into the gap. -/
def push (w : Wrap α) (blank : Bool) (a : α) : Wrap α :=
  if blank then { w with gap := w.gap ++ [a], inWord := false }
  else { w with word := w.word ++ [a], inWord := true }

/-- Ends the line. The gap behind it loses as many blanks as the line has cells left. -/
def breakLine (w : Wrap α) (width : Nat) : Wrap α :=
  { w with done := w.line :: w.done, line := [], gap := w.gap.drop (width - w.line.length) }

/-- Takes one character. -/
def step (blank : α → Bool) (width : Nat) (w : Wrap α) (a : α) : Wrap α :=
  let wordEnds := w.inWord && blank a
  let overfull := w.line.isEmpty && (width ≤ w.word.length || width ≤ w.gap.length)
  let w := if wordEnds || overfull then w.join else w
  if width ≤ w.line.length + w.gap.length + w.word.length then
    let w := w.breakLine width
    if blank a && w.gap.isEmpty then w else w.push (blank a) a
  else w.push (blank a) a

/-- All lines, after the last character. -/
def finish (w : Wrap α) : List (List α) :=
  let gapOnly := w.line.isEmpty && w.word.isEmpty && !w.gap.isEmpty
  let done := if gapOnly then [] :: w.done else w.done
  let last := w.join.line
  let done := if last.isEmpty then done else last :: done
  if done.isEmpty then [[]] else done.reverse

end Wrap

/-- The lines of the given width that a text is filled into. -/
def wrap {α : Type} (blank : α → Bool) (width : Nat) (text : List α) : List (List α) :=
  (text.foldl (Wrap.step blank width) {}).finish

end PasoFrontEnd.Screen
