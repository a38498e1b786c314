import PasoFrontEnd.Explorer.Highlight
import PasoFrontEnd.Proofs.Layout.Lines
import PasoFrontEnd.Proofs.Scan.Modes
import PasoFrontEnd.Proofs.Scan.Places

/-!
The colours of a line and its tokens. The spans of a line are the line, and those that are string
literals and comments take up the same columns as the tokens that a scan of the line alone puts out
for them. The two cut words and numbers in different ways, but neither ever cuts a quote or a
comment mark into a word, so from the beginning of a line on they meet the same ones.
-/

namespace PasoFrontEnd

/-- Some text of a line, with the column of its first character and the column behind its last
one. -/
structure Stretch where
  text : List Char
  first : Nat
  behind : Nat
deriving DecidableEq, Repr

namespace Stretch

def startingAt (column : Nat) (text : List Char) : Stretch := ⟨text, column, column + text.length⟩

/-- Whether the text begins as a string literal or a comment does. -/
def isMarked (s : Stretch) : Bool := s.text.head?.any fun c => c = '"' || c = '~'

end Stretch

/-- What a string literal or a comment takes up in the line that it stands in. A literal has its
second quote unless the line ends behind its text. -/
def Token.stretch? (line : List Char) (t : Token) : Option Stretch :=
  let text := t.lexeme.toList
  let closing := if line.length ≤ t.location.column + text.length then [] else ['"']
  match t.kind with
  | .text => some (.startingAt t.location.column ('"' :: text ++ closing))
  | .comment => some (.startingAt t.location.column ('~' :: text))
  | _ => none

namespace Explorer.Highlight

open Screen

/-- The texts of the spans from a column on, with their places. -/
def stretches (column : Nat) : Line → List Stretch
  | [] => []
  | span :: spans =>
    .startingAt column span.text.toList :: stretches (column + span.text.toList.length) spans

/-- The string literals and comments of a line from a column on, told by the first characters
alone. -/
def marked (column : Nat) : List Char → List Stretch
  | [] => []
  | c :: cs =>
    if c = '~' then [.startingAt column (c :: cs)]
    else if c = '"' then
      .startingAt column (Piece.readQuoted cs).1.chars ::
        marked (column + (Piece.readQuoted cs).1.chars.length) (Piece.readQuoted cs).2
    else marked (column + 1) cs
termination_by cs => cs.length
decreasing_by
  · have whole := congrArg List.length (Piece.splits_readQuoted cs).choose_spec.2
    rw [List.length_append] at whole
    exact Nat.lt_succ_of_le (by omega)
  · exact Nat.lt_succ_self _

variable {before cs body rest : List Char}

/-! The spans of a line. -/

theorem flatMap_text_word (cs : List Char) : (word cs).flatMap (·.text.toList) = cs := by
  unfold word
  cases cs <;> simp

theorem quoted_eq (cs : List Char) :
    quoted cs =
      match cs.dropWhile (· ≠ '"') with
      | [] => (cs, [])
      | _ :: rest => (cs.takeWhile (· ≠ '"') ++ ['"'], rest) := by
  fun_induction quoted cs with
  | case1 => rfl
  | case2 => rfl
  | case3 c cs notQuote ih =>
      have goesOn : decide (c ≠ '"') = true := by simpa using notQuote
      simp only [ih, List.dropWhile_cons, List.takeWhile_cons, goesOn, if_true]
      split <;> rfl

/-- The colours find the end of a string literal where the scanner does. -/
theorem quoted_eq_readQuoted (cs : List Char) :
    '"' :: (quoted cs).1 = (Piece.readQuoted cs).1.chars ∧
      (quoted cs).2 = (Piece.readQuoted cs).2 := by
  rw [quoted_eq, Piece.readQuoted]
  cases cs.dropWhile (· ≠ '"') with
  | nil => exact ⟨by simp [Piece.chars], rfl⟩
  | cons => exact ⟨rfl, rfl⟩
theorem flatMap_text_spansFrom (before cs : List Char) :
    (spansFrom before cs).flatMap (·.text.toList) = before ++ cs := by
  fun_induction spansFrom before cs with
  | case1 before => simp [flatMap_text_word]
  | case2 before cs => simp [flatMap_text_word]
  | case3 before cs _ ih =>
      rw [List.flatMap_append, flatMap_text_word, List.flatMap_cons, ih, List.nil_append,
        String.toList_ofList, List.cons_append, append_quoted]
  | case4 before c cs _ _ _ ih => simp [flatMap_text_word, ih]
  | case5 before c cs _ _ _ ih => simp [ih]

theorem stretches_append (column : Nat) (front back : Line) :
    stretches column (front ++ back) =
      stretches column front ++
        stretches (column + (front.flatMap (·.text.toList)).length) back := by
  induction front generalizing column with
  | nil => rfl
  | cons span front ih =>
      rw [List.cons_append, stretches, ih, stretches, List.cons_append, List.flatMap_cons,
        List.length_append, Nat.add_assoc]

/-- No quote and no comment mark. -/
def Unmarked (cs : List Char) : Prop := ∀ c ∈ cs, c ≠ '~' ∧ c ≠ '"'

theorem isMarked_startingAt {cs : List Char} (h : Unmarked cs) (column : Nat) :
    (Stretch.startingAt column cs).isMarked = false := by
  cases cs with
  | nil => rfl
  | cons c cs => simp [Stretch.startingAt, Stretch.isMarked, h c]

theorem filter_stretches_word {cs : List Char} (h : Unmarked cs) (column : Nat) :
    (stretches column (word cs)).filter Stretch.isMarked = [] := by
  unfold word
  split
  · rfl
  · simp [stretches, isMarked_startingAt h]

/-- Spans that begin as string literals or comments are those, where the word before has neither
mark. -/
theorem filter_stretches_spansFrom (h : Unmarked before) (column : Nat) (cs : List Char) :
    (stretches column (spansFrom before cs)).filter Stretch.isMarked =
      marked (column + before.length) cs := by
  fun_induction spansFrom before cs generalizing column with
  | case1 before => rw [filter_stretches_word h, marked]
  | case2 before cs =>
      rw [stretches_append, flatMap_text_word, List.filter_append, filter_stretches_word h, marked,
        if_pos rfl, stretches, stretches, String.toList_ofList]
      rfl
  | case3 before cs _ ih =>
      obtain ⟨text, behind⟩ := quoted_eq_readQuoted cs
      have literal (column : Nat) : (Stretch.startingAt column ('"' :: (quoted cs).1)).isMarked :=
        rfl
      rw [stretches_append, flatMap_text_word, List.filter_append, filter_stretches_word h, marked,
        if_neg (by decide), if_pos rfl, stretches, String.toList_ofList, List.filter_cons,
        if_pos (literal _), ih (by simp [Unmarked]), ← text, ← behind]
      rfl
  | case4 before c cs notTilde notQuote _ ih =>
      have unmarked : Unmarked [c] := by simp [Unmarked, notTilde, notQuote]
      rw [stretches_append, flatMap_text_word, List.filter_append, filter_stretches_word h, marked,
        if_neg notTilde, if_neg notQuote, stretches, Char.toString_eq_singleton,
        String.toList_singleton,
        List.filter_cons, if_neg (by simp [isMarked_startingAt unmarked]), ih (by simp [Unmarked])]
      rfl
  | case5 before c cs notTilde notQuote _ ih =>
      have unmarked : Unmarked (before ++ [c]) := by
        simpa [Unmarked, or_imp, forall_and, notTilde, notQuote] using h
      rw [ih unmarked, marked, if_neg notTilde, if_neg notQuote, List.length_append]
      rfl

/-! The tokens of a line. -/

theorem marked_append {a : List Char} (h : Unmarked a) (column : Nat) (cs : List Char) :
    marked column (a ++ cs) = marked (column + a.length) cs := by
  induction a generalizing column with
  | nil => rfl
  | cons c a ih =>
      have apart := h c (by simp)
      rw [List.cons_append, marked, if_neg apart.1, if_neg apart.2,
        ih fun d hd => h d (by simp [hd]), List.length_cons, Nat.add_assoc, Nat.add_comm 1]

theorem marked_closed (noQuote : '"' ∉ body) (column : Nat) (rest : List Char) :
    marked column ('"' :: body ++ '"' :: rest) =
      .startingAt column ('"' :: body ++ ['"']) :: marked (column + (body.length + 2)) rest := by
  have hread : Piece.readQuoted (body ++ '"' :: rest) = (.quoted body true, rest) :=
    Piece.read_text noQuote rest
  rw [List.cons_append, marked, if_neg (by decide), if_pos rfl, hread]
  simp [Piece.chars]

theorem marked_open (noQuote : '"' ∉ body) (column : Nat) :
    marked column ('"' :: body) = [.startingAt column ('"' :: body)] := by
  have none : body.dropWhile (· ≠ '"') = [] := List.dropWhile_eq_nil_iff.2 fun c hc => by
    simpa using fun (same : c = '"') => noQuote (same ▸ hc)
  have hread : Piece.readQuoted body = (.quoted body false, []) := by
    rw [Piece.readQuoted, none]
  rw [marked, if_neg (by decide), if_pos rfl, hread, marked]
  simp [Piece.chars]

variable {l : Layout} {line front : List Char}

theorem stretch?_closed (whole : front ++ ('"' :: body ++ '"' :: rest) = line) (row : Nat) :
    Token.stretch? line ⟨.text, String.ofList body, ⟨row, 1 + front.length⟩⟩ =
      some (.startingAt (1 + front.length) ('"' :: body ++ ['"'])) := by
  have goesOn : ¬ line.length ≤ 1 + front.length + body.length := by
    rw [← whole]
    simp only [List.length_append, List.length_cons]
    omega
  simp [Token.stretch?, goesOn]

theorem stretch?_open (whole : front ++ '"' :: body = line) (row : Nat) :
    Token.stretch? line ⟨.text, String.ofList body, ⟨row, 1 + front.length⟩⟩ =
      some (.startingAt (1 + front.length) ('"' :: body)) := by
  have ends : line.length ≤ 1 + front.length + body.length := by
    rw [← whole]
    simp only [List.length_append, List.length_cons]
    omega
  simp [Token.stretch?, ends]

theorem filterMap_stretch?_ended (depth : Nat) (loc : Location) :
    ((Event.ended depth loc).tokens true).filterMap (Token.stretch? line) = [] := by
  refine List.filterMap_eq_nil_iff.2 fun t ht => ?_
  obtain ht | ht := List.mem_append.1 ht
  · rw [List.eq_of_mem_replicate ht]
    rfl
  · rw [List.mem_singleton.1 ht]
    rfl

theorem filterMap_stretch?_plain {p : Piece} (stands : p.Stands rest) (plain : p.isPlain)
    (loc : Location) :
    ((Event.piece p loc).tokens true).filterMap (Token.stretch? line) = [] := by
  cases stands with
  | blank | rejected => rfl
  | @lexeme kind text _ written _ => cases kind <;> first | rfl | contradiction
  | newline | comment | closed | unclosed => contradiction

/-- From a place of a line on, the tokens of string literals and comments stand where these are. -/
theorem filterMap_stretch?_pieceEvents (whole : front ++ cs = line) (sameLine : '\n' ∉ line) :
    ((Scan.pieceEvents {} l ⟨1, 1 + front.length⟩ (Piece.split cs)).flatMap
      (Event.tokens true)).filterMap
      (Token.stretch? line) = marked (1 + front.length) cs := by
  induction cs using Piece.text_induction generalizing front with
  | nil =>
      rw [Piece.split_nil, Scan.pieceEvents, List.flatMap_singleton, filterMap_stretch?_ended,
        marked]
  | @piece p rest stands hsplit ih =>
      have inLine : '\n' ∉ p.chars ++ rest := fun h => sameLine (whole ▸ List.mem_append_right _ h)
      obtain ⟨inPiece, behind⟩ : '\n' ∉ p.chars ∧ '\n' ∉ rest := by simpa using inLine
      have notNewline : p ≠ .newline := by
        rintro rfl
        exact inPiece List.mem_cons_self
      have wholeBehind : (front ++ p.chars) ++ rest = line := by rw [List.append_assoc, whole]
      have more := ih rest (Nat.le_refl _) wholeBehind
      rw [List.length_append, ← Nat.add_assoc] at more
      rw [hsplit, Scan.pieceEvents_cons notNewline, Location.advance_of_sameLine inPiece,
        List.flatMap_cons, List.filterMap_append, more]
      cases stands.shape hsplit with
      | newline => contradiction
      | plain plain inner =>
          rw [filterMap_stretch?_plain stands plain, marked_append fun c hc => (inner c hc).2]
          rfl
      | comment _ ends =>
          obtain rfl : rest = [] := ends.resolve_right fun ⟨more, newline⟩ =>
            behind (by simp [newline])
          simp [Event.tokens, Piece.token?, Piece.chars, Token.stretch?, marked]
      | @closed body _ noQuote =>
          have text : Piece.chars (.quoted body true) ++ rest = '"' :: body ++ '"' :: rest := by
            simp [Piece.chars]
          rw [text] at whole ⊢
          rw [marked_closed noQuote]
          simp [Event.tokens, Piece.token?, Piece.chars, stretch?_closed whole]
      | @unclosed body noQuote =>
          have text : Piece.chars (.quoted body false) ++ [] = '"' :: body := by simp [Piece.chars]
          rw [text] at whole ⊢
          rw [marked_open noQuote]
          simp [Event.tokens, Piece.token?, stretch?_open whole, marked]

/-- The spans of a line are the line, and those that begin with a quote or a comment mark are,
column for column, the string literals and the comments that a scan of the line alone finds. -/
theorem spans_agree {line : String} (sameLine : '\n' ∉ line.toList) :
    (spans line).flatMap (·.text.toList) = line.toList ∧
      (stretches 1 (spans line)).filter Stretch.isMarked =
        (Scan.ofString line {}).tokens.filterMap (Token.stretch? line.toList) := by
  refine ⟨flatMap_text_spansFrom [] line.toList, ?_⟩
  have markers : ((Scan.lineEvents {} {} .start (Piece.split line.toList)).flatMap
      (Event.tokens true)).filterMap (Token.stretch? line.toList) = [] := by
    refine List.filterMap_eq_nil_iff.2 fun t ht => ?_
    obtain kind | kind := (Scan.isMarker_of_mem_changes ht).1 <;> simp [Token.stretch?, kind]
  rw [Scan.tokens_ofString, Scan.eventsFrom, List.flatMap_append, List.filterMap_append, markers]
  have whole : [] ++ line.toList = line.toList := rfl
  exact (filter_stretches_spansFrom (by simp [Unmarked]) 1 line.toList).trans
    (filterMap_stretch?_pieceEvents whole sameLine).symm

/-- A comment mark in a literal, characters that begin no token, a point behind a number in front of
a literal, and a quote in a comment. -/
theorem spans_agree_crowded :
    let line := "a3.b\"x~y\"$!1.\"z\" ~ \"w"
    '\n' ∉ line.toList ∧
      (stretches 1 (spans line)).filter Stretch.isMarked =
        [⟨"\"x~y\"".toList, 5, 10⟩, ⟨"\"z\"".toList, 14, 17⟩, ⟨"~ \"w".toList, 18, 22⟩] ∧
      (Scan.ofString line {}).tokens.filterMap (Token.stretch? line.toList) =
        [⟨"\"x~y\"".toList, 5, 10⟩, ⟨"\"z\"".toList, 14, 17⟩, ⟨"~ \"w".toList, 18, 22⟩] := by
  intro line
  have sameLine : '\n' ∉ line.toList := by decide +kernel
  have marked : (stretches 1 (spans line)).filter Stretch.isMarked =
      [⟨"\"x~y\"".toList, 5, 10⟩, ⟨"\"z\"".toList, 14, 17⟩, ⟨"~ \"w".toList, 18, 22⟩] := by
    decide +kernel
  exact ⟨sameLine, marked, (spans_agree sameLine).2.symm.trans marked⟩

end Explorer.Highlight

end PasoFrontEnd
