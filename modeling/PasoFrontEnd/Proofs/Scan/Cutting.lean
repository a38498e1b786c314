import PasoFrontEnd.Scan.Basic

/-!
What the pieces of a text are like, and how the text goes on behind them. Spaces and tabs at the
head of a text are pieces of one character each, so the indentation of a line can be read off the
text.
-/

namespace PasoFrontEnd

/-- The kinds of tokens that words, numbers and symbols are. -/
def Token.Kind.isWritten : Token.Kind → Bool
  | .identifier | .integer | .decimal | .keyword _ | .symbol _ => true
  | _ => false

namespace Piece

/-- A piece as it stands in front of a text. -/
inductive Stands : Piece → List Char → Prop
  | newline {rest} : Stands .newline rest
  | blank {c rest} (blank : Text.isBlank c) (sameLine : c ≠ '\n') : Stands (.blank c) rest
  | comment {text rest} (sameLine : '\n' ∉ text) (ends : rest = [] ∨ ∃ more, rest = '\n' :: more) :
      Stands (.comment text) rest
  | closed {body rest} (noQuote : '"' ∉ body) : Stands (.quoted body true) rest
  | unclosed {body} (noQuote : '"' ∉ body) : Stands (.quoted body false) []
  | lexeme {kind text rest} (written : kind.isWritten) (nonempty : text ≠ []) :
      Stands (.lexeme kind text) rest
  | rejected {c rest} (sameLine : c ≠ '\n') : Stands (.rejected c) rest

private theorem not_mem_takeWhile_ne (c : Char) (cs : List Char) : c ∉ cs.takeWhile (· ≠ c) := by
  intro h
  simpa using List.all_eq_true.1 List.all_takeWhile c h

private theorem dropWhile_ne_eq (c : Char) (cs : List Char) :
    cs.dropWhile (· ≠ c) = [] ∨ ∃ rest, cs.dropWhile (· ≠ c) = c :: rest := by
  cases h : cs.dropWhile (· ≠ c) with
  | nil => exact .inl rfl
  | cons d rest =>
      have hhead := List.head?_dropWhile_not (fun x => decide (x ≠ c)) cs
      rw [h] at hhead
      have same : d = c := by simpa using hhead
      exact .inr ⟨rest, by rw [same]⟩

theorem stands_readQuoted (cs : List Char) : (readQuoted cs).1.Stands (readQuoted cs).2 := by
  unfold readQuoted
  split
  case h_1 h =>
    refine .unclosed fun hmem => ?_
    have whole := cs.takeWhile_append_dropWhile (p := (· ≠ '"'))
    rw [h, List.append_nil] at whole
    exact not_mem_takeWhile_ne '"' cs (by rwa [whole])
  case h_2 => exact .closed (not_mem_takeWhile_ne '"' cs)

theorem stands_readComment (cs : List Char) : (readComment cs).1.Stands (readComment cs).2 :=
  .comment (not_mem_takeWhile_ne '\n' cs) (dropWhile_ne_eq '\n' cs)

theorem stands_readNumber (c : Char) (cs : List Char) :
    (readNumber c cs).1.Stands (readNumber c cs).2 := by
  unfold readNumber
  simp only
  split
  · split <;> exact .lexeme rfl (List.cons_ne_nil _ _)
  · exact .lexeme rfl (List.cons_ne_nil _ _)

theorem stands_readWord (c : Char) (cs : List Char) :
    (readWord c cs).1.Stands (readWord c cs).2 := by
  unfold readWord
  simp only
  split
  · refine .lexeme ?_ (List.cons_ne_nil _ _)
    split <;> rfl
  · split
    · refine .lexeme ?_ (List.cons_ne_nil _ _)
      split <;> rfl
    · exact .lexeme rfl (List.cons_ne_nil _ _)

theorem stands_ofChar {c : Char} (sameLine : c ≠ '\n') (rest : List Char) :
    (ofChar c).Stands rest := by
  unfold ofChar
  split
  · exact .lexeme rfl (List.cons_ne_nil _ _)
  · exact .rejected sameLine

theorem stands_readSymbol {c : Char} (sameLine : c ≠ '\n') (cs : List Char) :
    (readSymbol c cs).1.Stands (readSymbol c cs).2 := by
  unfold readSymbol
  split
  · split
    · exact .lexeme rfl (List.cons_ne_nil _ _)
    · exact stands_ofChar sameLine _
  · exact stands_ofChar sameLine _

theorem stands_read (c : Char) (cs : List Char) : (read c cs).1.Stands (read c cs).2 := by
  unfold read
  split
  · exact .newline
  rename_i sameLine
  split
  · exact .blank (by assumption) sameLine
  split
  · exact stands_readQuoted cs
  split
  · exact stands_readComment cs
  split
  · exact stands_readNumber c cs
  split
  · exact stands_readWord c cs
  · exact stands_readSymbol sameLine cs

theorem chars_append_read (c : Char) (cs : List Char) :
    (read c cs).1.chars ++ (read c cs).2 = c :: cs := by
  obtain ⟨text, hchars, htext⟩ := splits_read c cs
  rw [hchars, List.cons_append, htext]

/-- Texts piece by piece, from their end on: a piece may ask for any text that is no longer than the
one behind it. -/
theorem text_induction {motive : List Char → Prop} (nil : motive [])
    (piece : ∀ {p : Piece} {rest : List Char}, p.Stands rest →
      split (p.chars ++ rest) = p :: split rest →
      (∀ cs, cs.length ≤ rest.length → motive cs) → motive (p.chars ++ rest))
    (cs : List Char) : motive cs := by
  have bounded (n : Nat) (cs : List Char) (hn : cs.length ≤ n) : motive cs := by
    induction n generalizing cs with
    | zero => exact List.length_eq_zero_iff.1 (Nat.le_zero.1 hn) ▸ nil
    | succ n ih =>
        cases cs with
        | nil => exact nil
        | cons c cs =>
            have hread := chars_append_read c cs
            have hsplit := split_cons c cs
            have hlen := length_read_le c cs
            simp only [List.length_cons] at hn
            rw [← hread] at hsplit ⊢
            exact piece (stands_read c cs) hsplit fun ds hds => ih ds (by omega)
  exact bounded _ cs (Nat.le_refl _)

theorem exists_stands_of_mem_split {p : Piece} {cs : List Char} (h : p ∈ split cs) :
    ∃ rest, p.Stands rest := by
  fun_induction split cs with
  | case1 => simp at h
  | case2 c cs ih =>
      obtain rfl | h := List.mem_cons.1 h
      · exact ⟨_, stands_read c cs⟩
      · exact ih h

/-- The pieces of a text are no block markers and no end marks. -/
theorem Stands.kind_token? {p : Piece} {rest : List Char} (h : p.Stands rest) {keep : Bool}
    {kind : Token.Kind} {lexeme : List Char} (ht : p.token? keep = some (kind, lexeme)) :
    kind ≠ .indent ∧ kind ≠ .dedent ∧ kind ≠ .eof := by
  cases h with
  | blank | rejected => contradiction
  | lexeme written _ => cases ht; refine ⟨?_, ?_, ?_⟩ <;> rintro rfl <;> contradiction
  | comment =>
      cases keep with
      | true => cases ht; simp
      | false => contradiction
  | newline | closed | unclosed => cases ht; simp

end Piece

namespace Text

/-- White space that ends no line. -/
def isInnerBlank (c : Char) : Bool := isBlank c && c ≠ '\n'

theorem isInnerBlank_of_isGap {c : Char} (h : isGap c) : isInnerBlank c := by
  obtain rfl | rfl : c = ' ' ∨ c = '\t' := by simpa [isGap] using h
  · rfl
  · rfl

end Text

namespace Piece

/-! White space at the head of a text, above all spaces and tabs. -/

theorem read_blank {c : Char} (h : Text.isInnerBlank c) (cs : List Char) :
    read c cs = (blank c, cs) := by
  obtain ⟨isBlank, sameLine⟩ : Text.isBlank c = true ∧ c ≠ '\n' := by
    simpa [Text.isInnerBlank] using h
  rw [read, if_neg sameLine, if_pos isBlank]

theorem read_gap {c : Char} (h : Text.isGap c) (cs : List Char) : read c cs = (blank c, cs) :=
  read_blank (Text.isInnerBlank_of_isGap h) cs

theorem isGap_read {c : Char} (h : Text.isGap c = false) (cs : List Char) :
    (read c cs).1.isGap = false := by
  cases hp : (read c cs).1 with
  | blank d =>
      obtain ⟨text, hchars, -⟩ := splits_read c cs
      rw [hp] at hchars
      cases hchars
      exact h
  | _ => rfl

theorem split_takeWhile_isGap (cs : List Char) :
    Layout.indentation (split cs) = cs.takeWhile Text.isGap := by
  unfold Layout.indentation
  induction cs with
  | nil => rw [split_nil]; rfl
  | cons c cs ih =>
      cases h : Text.isGap c with
      | true => simp [split_cons, read_gap h, isGap, h, chars, ih]
      | false => simp [split_cons, isGap_read h, h]

theorem dropWhile_isGap_split (cs : List Char) :
    (split cs).dropWhile isGap = split (cs.dropWhile Text.isGap) := by
  induction cs with
  | nil => simp
  | cons c cs ih =>
      cases h : Text.isGap c with
      | true => simp [split_cons, read_gap h, isGap, h, ih]
      | false => rw [List.dropWhile_cons_of_neg (by simp [h]), split_cons,
          List.dropWhile_cons_of_neg (by simp [isGap_read h])]

theorem split_append_of_isInnerBlank {blanks : List Char} (h : ∀ c ∈ blanks, Text.isInnerBlank c)
    (cs : List Char) : split (blanks ++ cs) = blanks.map blank ++ split cs := by
  induction blanks with
  | nil => rfl
  | cons c blanks ih =>
      rw [List.cons_append, split_cons, read_blank (h c (by simp)),
        ih fun d hd => h d (by simp [hd])]
      rfl

theorem split_append_of_isGap {gap : List Char} (h : ∀ c ∈ gap, Text.isGap c) (cs : List Char) :
    split (gap ++ cs) = gap.map blank ++ split cs :=
  split_append_of_isInnerBlank (fun c hc => Text.isInnerBlank_of_isGap (h c hc)) cs

theorem newline_mem_split_append_of_isGap {gap cs : List Char} (h : ∀ c ∈ gap, Text.isGap c) :
    newline ∈ split (gap ++ cs) ↔ newline ∈ split cs := by
  simp [split_append_of_isGap h]

end Piece

end PasoFrontEnd
