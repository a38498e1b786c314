import PasoFrontEnd.LexError
import PasoFrontEnd.Text.CharClass
import PasoFrontEnd.Token.Kind

/-!
The pieces that a program text is made of. Cutting a text into pieces looks at no line structure:
each piece is the longest one of its class that stands at the head of the text, and the pieces put
together again are the text.
-/

namespace PasoFrontEnd

namespace Symbol

/-- The symbol that is written with this character alone. -/
def ofChar? : Char → Option Symbol
  | '+' => some plus
  | '-' => some minus
  | '*' => some star
  | '/' => some slash
  | '>' => some greater
  | '<' => some less
  | ',' => some comma
  | '.' => some dot
  | '(' => some openParen
  | ')' => some closeParen
  | '=' => some assign
  | _ => none

/-- The symbol that is written with this character and an equals sign behind it. -/
def withEquals? : Char → Option Symbol
  | '>' => some atLeast
  | '<' => some atMost
  | '=' => some equal
  | '!' => some unequal
  | _ => none

end Symbol

namespace Keyword

/-- The keyword of several words that begins with this word, and its further words. -/
def continued? (first : List Char) : Option (Keyword × List (List Char)) :=
  if first = "si".toList then some (siNo, ["no".toList])
  else if first = "de".toList then some (deLoContrario, ["lo".toList, "contrario".toList])
  else none

end Keyword

inductive Piece where
  | newline
  /-- White space that is no newline. -/
  | blank (c : Char)
  /-- A comment, with the text behind its mark. -/
  | comment (text : List Char)
  /-- A string literal, with the text between its quotes; an open one lacks the second quote. -/
  | quoted (body : List Char) (closed : Bool)
  /-- A word, a number or a symbol. -/
  | lexeme (kind : Token.Kind) (text : List Char)
  /-- A character that begins no token. -/
  | rejected (c : Char)
deriving DecidableEq, Repr

namespace Piece

def chars : Piece → List Char
  | newline => ['\n']
  | blank c => [c]
  | comment text => '~' :: text
  | quoted body closed => '"' :: body ++ (if closed then ['"'] else [])
  | lexeme _ text => text
  | rejected c => [c]

def isGap : Piece → Bool
  | blank c => Text.isGap c
  | _ => false

/-- Kind and lexeme of the token that the piece stands for. -/
def token? (keepComments : Bool) : Piece → Option (Token.Kind × List Char)
  | newline => some (.newline, ['\n'])
  | blank _ | rejected _ => none
  | comment text => if keepComments then some (.comment, text) else none
  | quoted body _ => some (.text, body)
  | lexeme kind text => some (kind, text)

def fault? : Piece → Option LexError.Fault
  | quoted _ false => some .unterminatedString
  | rejected c => some (if c = '!' then .malformedNegation else .invalidCharacter c)
  | _ => none

/-- A string literal behind its opening quote. It has no escapes and may hold newlines. -/
def readQuoted (cs : List Char) : Piece × List Char :=
  match cs.dropWhile (· ≠ '"') with
  | [] => (quoted cs false, [])
  | _ :: rest => (quoted (cs.takeWhile (· ≠ '"')) true, rest)

/-- A comment behind its mark; it ends before the next newline. -/
def readComment (cs : List Char) : Piece × List Char :=
  (comment (cs.takeWhile (· ≠ '\n')), cs.dropWhile (· ≠ '\n'))

/-- A number that begins with the digit `c`: a decimal if a point and a digit follow its digits. -/
def readNumber (c : Char) (cs : List Char) : Piece × List Char :=
  let whole := c :: cs.takeWhile Char.isDigit
  match cs.dropWhile Char.isDigit with
  | '.' :: d :: rest =>
    if d.isDigit then
      (lexeme .decimal (whole ++ '.' :: d :: rest.takeWhile Char.isDigit),
        rest.dropWhile Char.isDigit)
    else (lexeme .integer whole, '.' :: d :: rest)
  | rest => (lexeme .integer whole, rest)

/-- Whether a word goes on at the head of the text. -/
def inWord (cs : List Char) : Bool := cs.head?.any Text.isLetterOrNumeral

/-- The given words at the head of the text, each behind at least one space or tab and none as the
beginning of a longer word: the text that they take up, and the text behind them. -/
def readWords? : List (List Char) → List Char → Option (List Char × List Char)
  | [], cs => some ([], cs)
  | word :: words, cs =>
    let gap := cs.takeWhile Text.isGap
    let tail := cs.dropWhile Text.isGap
    let rest := tail.drop word.length
    if gap = [] || !word.isPrefixOf tail || inWord rest then none
    else (readWords? words rest).map fun (text, rest) => (gap ++ word ++ text, rest)

/-- An identifier or keyword that begins with the letter `c`. A keyword of several words is taken
if all of them follow on the line, else its first word stands for itself. -/
def readWord (c : Char) (cs : List Char) : Piece × List Char :=
  let word := c :: cs.takeWhile Text.isLetterOrNumeral
  let rest := cs.dropWhile Text.isLetterOrNumeral
  let single :=
    match Keyword.ofSpelling? (String.ofList word) with
    | some k => Token.Kind.keyword k
    | none => Token.Kind.identifier
  match Keyword.continued? word with
  | none => (lexeme single word, rest)
  | some (k, words) =>
    match readWords? words rest with
    | none => (lexeme single word, rest)
    | some (text, rest) => (lexeme (.keyword k) (word ++ text), rest)

/-- A symbol of one character, or a character that begins no token. -/
def ofChar (c : Char) : Piece :=
  match Symbol.ofChar? c with
  | some s => lexeme (.symbol s) [c]
  | none => rejected c

/-- A symbol that begins with `c`; an equals sign behind it is taken if there is such a symbol. -/
def readSymbol (c : Char) : List Char → Piece × List Char
  | '=' :: rest =>
    match Symbol.withEquals? c with
    | some s => (lexeme (.symbol s) [c, '='], rest)
    | none => (ofChar c, '=' :: rest)
  | rest => (ofChar c, rest)

/-- The piece at the head of the text `c :: cs`, and the text behind it. -/
def read (c : Char) (cs : List Char) : Piece × List Char :=
  if c = '\n' then (newline, cs)
  else if Text.isBlank c then (blank c, cs)
  else if c = '"' then readQuoted cs
  else if c = '~' then readComment cs
  else if c.isDigit then readNumber c cs
  else if Text.isLetter c then readWord c cs
  else readSymbol c cs

/-! Reading loses nothing: a piece begins with the character it is read at, and what it leaves is
the text behind it. -/

/-- The piece is spelled from the head of `c :: cs` on, and what is left stands behind it. -/
def Splits (c : Char) (cs : List Char) (r : Piece × List Char) : Prop :=
  ∃ text, r.1.chars = c :: text ∧ text ++ r.2 = cs

theorem splits_readQuoted (cs : List Char) : Splits '"' cs (readQuoted cs) := by
  have whole := cs.takeWhile_append_dropWhile (p := (· ≠ '"'))
  unfold readQuoted
  split
  · exact ⟨cs, by simp [chars], by simp⟩
  · rename_i d rest h
    have hd : d = '"' := by
      have hhead := List.head?_dropWhile_not (fun x => decide (x ≠ '"')) cs
      rw [h] at hhead
      simpa using hhead
    refine ⟨cs.takeWhile (· ≠ '"') ++ ['"'], by simp [chars], ?_⟩
    rw [h, hd] at whole
    simpa using whole

theorem splits_readComment (cs : List Char) : Splits '~' cs (readComment cs) :=
  ⟨cs.takeWhile (· ≠ '\n'), rfl, cs.takeWhile_append_dropWhile⟩

theorem splits_readNumber (c : Char) (cs : List Char) : Splits c cs (readNumber c cs) := by
  have whole := cs.takeWhile_append_dropWhile (p := Char.isDigit)
  unfold readNumber
  simp only
  split
  · rename_i d rest h
    rw [h] at whole
    split
    · refine ⟨cs.takeWhile Char.isDigit ++ '.' :: d :: rest.takeWhile Char.isDigit, rfl,
        Eq.trans ?_ whole⟩
      simp
    · exact ⟨_, rfl, whole⟩
  · exact ⟨_, rfl, whole⟩

theorem append_of_readWords? {words : List (List Char)} {cs text rest : List Char}
    (h : readWords? words cs = some (text, rest)) : text ++ rest = cs := by
  induction words generalizing cs text rest with
  | nil => simp_all [readWords?]
  | cons word words ih =>
    simp only [readWords?] at h
    split at h
    · contradiction
    · rename_i hne
      simp only [Bool.or_eq_true, Bool.not_eq_true', not_or, Bool.not_eq_false] at hne
      obtain ⟨⟨-, hword⟩, -⟩ := hne
      obtain ⟨tail, htail⟩ := List.isPrefixOf_iff_prefix.1 hword
      obtain ⟨⟨more, last⟩, hmore, heq⟩ := Option.map_eq_some_iff.1 h
      have hrest := ih hmore
      simp only [Prod.mk.injEq] at heq
      obtain ⟨rfl, rfl⟩ := heq
      rw [List.append_assoc, hrest, List.append_assoc, List.prefix_iff_eq_append.1
        (List.isPrefixOf_iff_prefix.1 hword), List.takeWhile_append_dropWhile]

theorem splits_readWord (c : Char) (cs : List Char) : Splits c cs (readWord c cs) := by
  have whole := cs.takeWhile_append_dropWhile (p := Text.isLetterOrNumeral)
  unfold readWord
  simp only
  split
  · exact ⟨_, rfl, whole⟩
  · split
    · exact ⟨_, rfl, whole⟩
    · rename_i text rest h
      refine ⟨cs.takeWhile Text.isLetterOrNumeral ++ text, rfl, ?_⟩
      rw [List.append_assoc, append_of_readWords? h, whole]

theorem chars_ofChar (c : Char) : (ofChar c).chars = [c] := by
  unfold ofChar
  split <;> rfl

theorem splits_readSymbol (c : Char) (cs : List Char) : Splits c cs (readSymbol c cs) := by
  unfold readSymbol
  split
  · split
    · exact ⟨['='], rfl, rfl⟩
    · exact ⟨[], chars_ofChar c, rfl⟩
  · exact ⟨[], chars_ofChar c, rfl⟩

theorem splits_read (c : Char) (cs : List Char) : Splits c cs (read c cs) := by
  unfold read
  split
  · rename_i h
    exact ⟨[], by simp [chars, h], rfl⟩
  split
  · exact ⟨[], rfl, rfl⟩
  split
  · rename_i h
    exact h ▸ splits_readQuoted cs
  split
  · rename_i h
    exact h ▸ splits_readComment cs
  split
  · exact splits_readNumber c cs
  split
  · exact splits_readWord c cs
  · exact splits_readSymbol c cs

theorem length_read_le (c : Char) (cs : List Char) : (read c cs).2.length ≤ cs.length := by
  obtain ⟨text, -, h⟩ := splits_read c cs
  have := congrArg List.length h
  simp only [List.length_append] at this
  omega

/-- The pieces of a text, in order. -/
def split : List Char → List Piece
  | [] => []
  | c :: cs => (read c cs).1 :: split (read c cs).2
termination_by cs => cs.length
decreasing_by exact Nat.lt_succ_of_le (length_read_le c cs)

@[simp] theorem split_nil : split [] = [] := by rw [split]

theorem split_cons (c : Char) (cs : List Char) :
    split (c :: cs) = (read c cs).1 :: split (read c cs).2 := by rw [split]

/-- The pieces of a text are the text. -/
theorem flatMap_chars_split (cs : List Char) : (split cs).flatMap chars = cs := by
  fun_induction split cs with
  | case1 => rfl
  | case2 c cs ih =>
    obtain ⟨text, hchars, htext⟩ := splits_read c cs
    rw [List.flatMap_cons, ih, hchars, List.cons_append, htext]

end Piece

end PasoFrontEnd
