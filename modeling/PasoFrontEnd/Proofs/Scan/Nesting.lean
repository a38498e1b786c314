import Mathlib.Data.List.Infix
import PasoFrontEnd.Proofs.Layout.Changes
import PasoFrontEnd.Proofs.Scan.Cutting

/-!
Blocks in a scan. The widths of the open blocks are a stack that every change of layout follows, the
end of the input closes what is left of it, and so the markers among the tokens of any text are
balanced. A scanner that has come to the end of its text finds nothing more there.
-/

namespace PasoFrontEnd

/-- Whether the fault is that the input ends inside blocks. -/
def LexError.Fault.isUnterminatedBlock : LexError.Fault → Bool
  | unterminatedBlock _ => true
  | _ => false

namespace Event

/-- Only the end of the input is reported to be inside blocks. -/
theorem isUnterminatedBlock_of_mem_errors {e : Event} (inner : ∀ depth loc, e ≠ .ended depth loc)
    {error : LexError} (h : error ∈ e.errors) : error.fault.isUnterminatedBlock = false := by
  cases e with
  | ended depth loc => exact absurd rfl (inner depth loc)
  | layout change loc =>
      cases change with
      | misaligned _ =>
          obtain rfl := List.mem_singleton.1 h
          rfl
      | _ => contradiction
  | piece p loc =>
      rw [Event.errors] at h
      cases fault : p.fault? with
      | none => simp [fault] at h
      | some _ =>
          simp only [fault, List.mem_singleton] at h
          subst h
          cases p with
          | quoted _ closed => cases closed <;> cases fault; rfl
          | rejected c =>
              cases fault
              change LexError.Fault.isUnterminatedBlock (if c = '!' then _ else _) = false
              split <;> rfl
          | _ => contradiction

/-- Nothing that is written out in a text becomes a block marker or the end mark. -/
theorem kind_of_mem_tokens {p : Piece} {rest : List Char} (stands : p.Stands rest) {loc : Location}
    {keep : Bool} {t : Token} (h : t ∈ (piece p loc).tokens keep) :
    t.kind ≠ .indent ∧ t.kind ≠ .dedent ∧ t.kind ≠ .eof := by
  rw [Event.tokens] at h
  cases token : p.token? keep with
  | none => simp [token] at h
  | some written =>
      simp only [token, List.mem_singleton] at h
      exact h ▸ stands.kind_token? token

end Event

namespace Scan

/-- The events follow a stack of open widths, innermost first: each block that ends is the one begun
last, and the end of the input, the last event, counts the blocks that are open. -/
inductive Nested (last : Location) : List Nat → List Event → Prop
  | piece {levels p rest loc events} (stands : Piece.Stands p rest)
      (more : Nested last levels events) :
      Nested last levels (.piece p loc :: events)
  | opened {levels width loc events} (more : Nested last (width :: levels) events) :
      Nested last levels (.layout (.opened width) loc :: events)
  | closed {levels width loc events} (more : Nested last levels events) :
      Nested last (width :: levels) (.layout (.closed width) loc :: events)
  | misaligned {levels width loc events} (more : Nested last levels events) :
      Nested last levels (.layout (.misaligned width) loc :: events)
  | ended {levels} : Nested last levels [.ended levels.length last]

variable {last : Location} {events : List Event}

/-- What one line does to the blocks, it does to the stack. -/
theorem nested_enter (l : Layout) (width : Nat) (loc : Location)
    (more : Nested last (l.enter width).2.levels events) :
    Nested last l.levels ((l.enter width).1.map (Event.layout · loc) ++ events) :=
  Layout.enter_induction
    (motive := fun levels changes =>
      Nested last levels (changes.map (Event.layout · loc) ++ events))
    (fun _ => .opened) .closed .misaligned more

theorem nested_lineEvents (o : ScanOptions) (l : Layout) (loc : Location) (line : List Piece)
    (more : Nested last (l.enterLine o.tabWidth line).2.levels events) :
    Nested last l.levels (lineEvents o l loc line ++ events) := by
  unfold lineEvents Layout.enterLine at *
  split
  case h_1 h =>
    rw [h] at more
    exact more
  case h_2 width h =>
    rw [h] at more
    exact nested_enter l width _ more

theorem nested_pieceEvents (o : ScanOptions) (l : Layout) (loc : Location) {ps : List Piece}
    (hps : ∀ p ∈ ps, ∃ rest, p.Stands rest) :
    Nested (loc.advance (ps.flatMap Piece.chars)) l.levels (pieceEvents o l loc ps) := by
  fun_induction pieceEvents o l loc ps with
  | case1 => exact .ended
  | case2 l loc rest below ih =>
      have more := ih fun p hp => hps p (by simp [hp])
      exact .piece (@Piece.Stands.newline []) (nested_lineEvents o l below rest more)
  | case3 l loc p rest _ ih =>
      obtain ⟨_, stands⟩ := hps p (by simp)
      rw [List.flatMap_cons, Location.advance_append]
      exact .piece stands (ih fun p hp => hps p (by simp [hp]))

theorem nested_ofChars (o : ScanOptions) (loc : Location) (cs : List Char) :
    Nested (loc.advance cs) [] (ofChars o loc cs).events := by
  have pieces := nested_pieceEvents o (Layout.enterLine {} o.tabWidth (Piece.split cs)).2 loc
    fun p (hp : p ∈ Piece.split cs) => Piece.exists_stands_of_mem_split hp
  rw [Piece.flatMap_chars_split] at pieces
  exact nested_lineEvents o {} loc _ pieces

end Scan

/-- The tokens close as many blocks as they open and the given number more, never more than are
open, and end in the only end mark. -/
inductive Balanced (eof : Token) : Nat → List Token → Prop
  | opened {height t ts} (kind : t.kind = .indent) (more : Balanced eof (height + 1) ts) :
      Balanced eof height (t :: ts)
  | closed {height t ts} (kind : t.kind = .dedent) (more : Balanced eof height ts) :
      Balanced eof (height + 1) (t :: ts)
  | other {height t ts} (kind : t.kind ≠ .indent ∧ t.kind ≠ .dedent ∧ t.kind ≠ .eof)
      (more : Balanced eof height ts) : Balanced eof height (t :: ts)
  | ended (kind : eof.kind = .eof) : Balanced eof 0 [eof]

/-- How many tokens are of a kind. -/
def countKind (kind : Token.Kind) (ts : List Token) : Nat := ts.countP (·.kind = kind)

namespace Balanced

variable {eof : Token} {height : Nat} {ts : List Token}

theorem exists_eq_append (h : Balanced eof height ts) :
    ∃ front, ts = front ++ [eof] ∧ ∀ t ∈ front, t.kind ≠ .eof := by
  induction h with
  | opened kind _ ih | closed kind _ ih =>
      obtain ⟨front, rfl, hfront⟩ := ih
      exact ⟨_ :: front, rfl, by simpa [kind] using hfront⟩
  | other kind _ ih =>
      obtain ⟨front, rfl, hfront⟩ := ih
      exact ⟨_ :: front, rfl, by simpa [kind.2.2] using hfront⟩
  | ended _ => exact ⟨[], rfl, by simp⟩

theorem countKind_eq (h : Balanced eof height ts) :
    countKind .dedent ts = countKind .indent ts + height := by
  unfold countKind
  induction h with
  | opened kind _ ih | closed kind _ ih =>
      simp only [List.countP_cons, kind] at ih ⊢
      simp
      omega
  | other kind _ ih => simpa [List.countP_cons, kind] using ih
  | ended kind => simp [kind]

theorem countKind_le (h : Balanced eof height ts) {part : List Token} (hp : part <+: ts) :
    countKind .dedent part ≤ countKind .indent part + height := by
  unfold countKind
  induction h generalizing part with
  | opened kind _ ih | closed kind _ ih =>
      obtain rfl | ⟨part, rfl, hpart⟩ := List.prefix_cons_iff.1 hp
      · simp
      · have := ih hpart
        simp only [List.countP_cons, kind]
        simp
        omega
  | other kind _ ih =>
      obtain rfl | ⟨part, rfl, hpart⟩ := List.prefix_cons_iff.1 hp
      · simp
      · simpa [List.countP_cons, kind] using ih hpart
  | ended kind =>
      obtain rfl | ⟨part, rfl, hpart⟩ := List.prefix_cons_iff.1 hp
      · simp
      · simp [List.prefix_nil.1 hpart, kind]

end Balanced

theorem Scan.Nested.balanced {last : Location} {levels : List Nat} {events : List Event}
    (h : Nested last levels events) (keep : Bool) :
    Balanced ⟨.eof, "", last⟩ levels.length (events.flatMap (Event.tokens keep)) := by
  induction h with
  | @piece levels p rest loc events stands _ ih =>
      rw [List.flatMap_cons, Event.tokens]
      cases ht : p.token? keep with
      | none => exact ih
      | some token => exact .other (stands.kind_token? ht) ih
  | opened _ ih => exact .opened rfl ih
  | closed _ ih => exact .closed rfl ih
  | misaligned _ ih => exact ih
  | @ended levels =>
      simp only [List.flatMap_cons, List.flatMap_nil, List.append_nil, Event.tokens]
      induction levels with
      | nil => exact .ended rfl
      | cons _ _ ih => exact .closed rfl ih

theorem Scan.balanced_ofChars (o : ScanOptions) (loc : Location) (cs : List Char) :
    Balanced ⟨.eof, "", loc.advance cs⟩ 0 (ofChars o loc cs).tokens :=
  (nested_ofChars o loc cs).balanced o.keepComments

namespace Scanner

/-- The scanner after the given number of scans. -/
def afterScans (s : Scanner) : Nat → Scanner
  | 0 => s
  | n + 1 => (s.afterScans n).scan.2

/-- Later scans start where the first has come to: at the end of the text. -/
theorem afterScans_succ (s : Scanner) (n : Nat) :
    s.afterScans (n + 1) = { s with location := s.location.advance s.rest, rest := [] } := by
  induction n with
  | zero => exact behind_eq s
  | succ n ih =>
      rw [afterScans, ih]
      exact behind_eq _

theorem scan_of_rest_eq_nil {s : Scanner} (h : s.rest = []) :
    s.scan.1.tokens = [⟨.eof, "", s.location⟩] ∧ s.scan.1.errors = [] := by
  simp only [scan, h, Scan.ofChars, Piece.split_nil]
  exact ⟨rfl, rfl⟩

/-- The tokens of a first scan end in their only end mark, and their block markers are balanced;
every further scan gives that end mark again and nothing else. -/
theorem scan_balanced (source : String) (o : ScanOptions) :
    let scanner := ofString source o
    let tokens := scanner.scan.1.tokens
    ∃ front eof, tokens = front ++ [eof] ∧ eof.kind = .eof ∧ (∀ t ∈ front, t.kind ≠ .eof) ∧
      countKind .indent tokens = countKind .dedent tokens ∧
      (∀ part, part <+: tokens → countKind .dedent part ≤ countKind .indent part) ∧
      ∀ n, ((scanner.afterScans (n + 1)).scan.1.tokens = [eof] ∧
        (scanner.afterScans (n + 1)).scan.1.errors = []) := by
  intro scanner tokens
  have balanced : Balanced _ 0 tokens := Scan.balanced_ofChars o .start source.toList
  obtain ⟨front, htokens, hfront⟩ := balanced.exists_eq_append
  refine ⟨front, _, htokens, rfl, hfront, balanced.countKind_eq.symm, fun part hp =>
    balanced.countKind_le hp, fun n => ?_⟩
  rw [afterScans_succ]
  exact scan_of_rest_eq_nil rfl

end Scanner

end PasoFrontEnd
