import PasoFrontEnd.Proofs.Grammar.Editing
import PasoFrontEnd.Proofs.Scan.Places
import PasoFrontEnd.Proofs.Tree.Headings

/-!
Outlines of programs that are read from a text. A scan puts names, numbers and texts of string
literals into its tokens that have the form of one, and a parse takes nothing else over into a tree.
So no two programs without decimals have one outline, but for the columns of statements and the
places in expressions.
-/

namespace PasoFrontEnd

/-- The lexeme has the form that the kind asks for, as far as a tree takes the lexeme over. -/
def Token.Kind.Forms : Token.Kind → List Char → Prop
  | .identifier, name => IsName (String.ofList name)
  | .integer, ds => ds ≠ [] ∧ ∀ d ∈ ds, d.isDigit
  | .text, body => '"' ∉ body
  | _, _ => True

namespace Piece

/-- The token of the piece, if there is one, has the form that its kind asks for. -/
def Formed (p : Piece) : Prop :=
  ∀ ⦃keep kind text⦄, p.token? keep = some (kind, text) → kind.Forms text

theorem Formed.lexeme {kind : Token.Kind} {text : List Char} (h : kind.Forms text) :
    (lexeme kind text).Formed := by
  rintro _ _ _ ⟨⟩
  exact h

theorem formed_readQuoted (cs : List Char) : (readQuoted cs).1.Formed := by
  obtain ⟨body, closed, rest, h⟩ :
      ∃ body closed rest, readQuoted cs = (quoted body closed, rest) := by
    unfold readQuoted
    split <;> exact ⟨_, _, _, rfl⟩
  have stands := stands_readQuoted cs
  rw [h] at stands ⊢
  rintro _ _ _ ⟨⟩
  cases stands with
  | closed noQuote | unclosed noQuote => exact noQuote

theorem formed_readNumber {c : Char} (digit : c.isDigit) (cs : List Char) :
    (readNumber c cs).1.Formed := by
  have whole : Token.Kind.integer.Forms (c :: cs.takeWhile Char.isDigit) := by
    refine ⟨List.cons_ne_nil _ _, ?_⟩
    rw [List.forall_mem_cons]
    exact ⟨digit, List.all_eq_true.1 List.all_takeWhile⟩
  unfold readNumber
  simp only
  split
  · split
    · exact .lexeme trivial
    · exact .lexeme whole
  · exact .lexeme whole

theorem formed_readWord {c : Char} (letter : Text.isLetter c) (cs : List Char) :
    (readWord c cs).1.Formed := by
  have identifier (notKeyword : Keyword.ofSpelling? (String.ofList
      (c :: cs.takeWhile Text.isLetterOrNumeral)) = none) :
      Token.Kind.identifier.Forms (c :: cs.takeWhile Text.isLetterOrNumeral) :=
    ⟨⟨c, _, String.toList_ofList, letter, List.all_eq_true.1 List.all_takeWhile⟩, notKeyword⟩
  unfold readWord
  simp only
  split
  · refine .lexeme ?_
    split
    · trivial
    · exact identifier ‹_›
  · split
    · refine .lexeme ?_
      split
      · trivial
      · exact identifier ‹_›
    · exact .lexeme trivial

theorem formed_ofChar (c : Char) : (ofChar c).Formed := by
  unfold ofChar
  split
  · exact .lexeme trivial
  · exact nofun

theorem formed_readSymbol (c : Char) (cs : List Char) : (readSymbol c cs).1.Formed := by
  unfold readSymbol
  split
  · split
    · exact .lexeme trivial
    · exact formed_ofChar c
  · exact formed_ofChar c

theorem formed_read (c : Char) (cs : List Char) : (read c cs).1.Formed := by
  unfold read
  split
  · rintro _ _ _ ⟨⟩
    trivial
  split
  · exact nofun
  split
  · exact formed_readQuoted cs
  split
  · rintro keep _ _ comment
    cases keep <;> cases comment
    trivial
  split
  · exact formed_readNumber ‹_› cs
  split
  · exact formed_readWord ‹_› cs
  · exact formed_readSymbol c cs

theorem formed_of_mem_split {p : Piece} {cs : List Char} (h : p ∈ split cs) : p.Formed := by
  fun_induction split cs with
  | case1 => simp at h
  | case2 c cs ih =>
      obtain rfl | h := List.mem_cons.1 h
      · exact formed_read c cs
      · exact ih h

end Piece

theorem Decimal.nonneg_of_readInt64? {t : String} {n : Int64} (nonempty : t.toList ≠ [])
    (digits : ∀ d ∈ t.toList, d.isDigit) (h : readInt64? t = some n) : 0 ≤ n.toInt := by
  rw [readInt64?, readInteger?_digits nonempty digits] at h
  simp only at h
  split at h
  · rename_i bounds
    rw [← Option.some.inj h,
      Int64.toInt_ofInt_of_le bounds.1 (Int.lt_of_le_of_lt bounds.2 (by decide))]
    exact Int.natCast_nonneg _
  · contradiction

def Literal.isDecimal : Literal → Bool
  | decimal _ => true
  | integer _ | text _ | boolean _ | null => false

namespace Grammar

/-- What a tree takes over from the token is of the given kinds. -/
structure Brings (name : String → Prop) (literal : Literal → Prop) (t : Token) : Prop where
  named : t.kind = .identifier → name t.lexeme
  written : ∀ v, Writes t v → literal v

variable {name : String → Prop} {literal : Literal → Prop}

theorem each_of_forall₂ {b b' : List Stmt}
    (h : List.Forall₂ (fun s s' => s = s' ∧ s.Each name literal) b b') :
    b = b' ∧ Block.Each name literal b := by
  induction h with
  | nil => exact ⟨rfl, trivial⟩
  | cons same _ ih => exact ⟨by rw [same.1, ih.1], same.2, ih.2⟩

/-- Every token that brings names and literals of the given kinds alone is like itself, and so are
the trees that are made of them. -/
def givenLikeness (name : String → Prop) (literal : Literal → Prop) : Likeness where
  token t u := t = u ∧ Brings name literal t
  expr e e' := e = e' ∧ e.Each name literal
  stmt s s' := s = s' ∧ s.Each name literal
  strict := True
  blankLines := False
  kind h := congrArg Token.kind h.1
  written := by
    rintro t _ v ⟨rfl, brings⟩ hliteral
    exact ⟨v, hliteral, rfl, brings.written v (literal?_eq_some_some_iff.1 hliteral)⟩
  unwritten _ h hliteral := h.1 ▸ hliteral
  named := by
    rintro t _ ⟨rfl, brings⟩ kind
    exact ⟨rfl, brings.named kind⟩
  negation := by
    rintro t _ e _ ⟨rfl, -⟩ - ⟨rfl, each⟩
    exact ⟨rfl, each⟩
  operation := by
    rintro t _ op l _ r _ ⟨rfl, -⟩ - ⟨rfl, left⟩ ⟨rfl, right⟩
    exact ⟨rfl, left, right⟩
  assignment := by
    rintro t _ e _ ⟨rfl, brings⟩ kind ⟨rfl, each⟩
    exact ⟨rfl, brings.named kind, each⟩
  declaration := by
    rintro t _ i _ type e e' ⟨rfl, -⟩ - ⟨rfl, brings⟩ kind init
    cases init with
    | none => exact ⟨rfl, brings.named kind, by simp⟩
    | some same =>
        obtain ⟨rfl, each⟩ := same
        exact ⟨rfl, brings.named kind, by simpa using each⟩
  print := by
    rintro t _ e _ ⟨rfl, -⟩ - ⟨rfl, each⟩
    exact ⟨rfl, each⟩
  branch := by
    rintro t _ c _ b b' o o' ⟨rfl, -⟩ - ⟨rfl, condition⟩ body otherwise
    obtain ⟨rfl, bodyEach⟩ := each_of_forall₂ body
    cases otherwise with
    | none => exact ⟨rfl, condition, bodyEach⟩
    | some other =>
        obtain ⟨rfl, otherEach⟩ := each_of_forall₂ other
        exact ⟨rfl, condition, bodyEach, otherEach⟩
  loop := by
    rintro t _ c _ b b' ⟨rfl, -⟩ - ⟨rfl, condition⟩ body
    obtain ⟨rfl, bodyEach⟩ := each_of_forall₂ body
    exact ⟨rfl, condition, bodyEach⟩
  doLoop := by
    rintro t _ b b' c _ ⟨rfl, -⟩ - body ⟨rfl, condition⟩
    obtain ⟨rfl, bodyEach⟩ := each_of_forall₂ body
    exact ⟨rfl, condition, bodyEach⟩

theorem brings_of_isStructural {t : Token} (structured : t.kind.isStructural) :
    Brings name literal t where
  named kind := by simp [kind, Token.Kind.isStructural] at structured
  written v writes := by
    cases writes with
    | integer kind _ | decimal kind _ | text kind | verdadero kind | falso kind | nulo kind =>
        simp [kind, Token.Kind.isStructural] at structured

/-- A program holds names and literals of the kinds alone that its tokens give. -/
theorem each_of_parse {ts : List Token} {p : Program} (brings : ∀ t ∈ ts, Brings name literal t)
    (parsed : parse ts = .ok p) : p.Each name literal := by
  have states : (givenLikeness name literal).States false (.ofTokens ts) (.ofTokens ts) := by
    refine ⟨.of_forall₂ (List.forall₂_same.2 fun t ht => ⟨rfl, brings t ?_⟩), rfl, ?_⟩
    · exact (State.tokens_ofTokens_sublist ts).subset ht
    · exact brings_of_isStructural (by rw [State.eof_kind]; rfl)
  have outcomes := Likeness.outcomes_parse trivial states
  rw [parsed] at outcomes
  cases outcomes with
  | ok body => exact (each_of_forall₂ body).2

end Grammar

open Grammar (Brings brings_of_isStructural)

theorem Token.Kind.Forms.brings {kind : Token.Kind} {text : List Char} (h : kind.Forms text)
    (loc : Location) :
    Brings IsName (fun v => v.isDecimal = false → v.Readable) ⟨kind, String.ofList text, loc⟩ where
  named name := by
    cases name
    exact h
  written v writes := by
    have spelled : (String.ofList text).toList = text := String.toList_ofList
    cases writes with
    | integer integer value =>
        cases integer
        rw [← spelled] at h
        exact fun _ => Decimal.nonneg_of_readInt64? h.1 h.2 value
    | text quoted =>
        cases quoted
        rw [← spelled] at h
        exact fun _ => h
    | decimal _ _ => exact nofun
    | verdadero _ | falso _ | nulo _ => exact fun _ => trivial

theorem Scan.brings_of_mem_tokens {source : String} {o : ScanOptions} {t : Token}
    (h : t ∈ (ofString source o).tokens) :
    Brings IsName (fun v => v.isDecimal = false → v.Readable) t := by
  rw [tokens_ofString] at h
  obtain ⟨e, he, ht⟩ := List.mem_flatMap.1 h
  cases e with
  | piece p loc =>
      obtain ⟨front, back, hsplit, -⟩ := exists_of_mem_eventsFrom he
      have formed := Piece.formed_of_mem_split (hsplit ▸ List.mem_append_right _ List.mem_cons_self)
      rw [Event.tokens] at ht
      split at ht
      · obtain rfl := List.mem_singleton.1 ht
        exact (formed ‹_›).brings loc
      · simp at ht
  | layout change loc =>
      refine brings_of_isStructural ?_
      cases change with
      | opened _ | closed _ => exact List.mem_singleton.1 ht ▸ rfl
      | misaligned _ => simp [Event.tokens] at ht
  | ended depth loc =>
      refine brings_of_isStructural ?_
      obtain ht | ht := List.mem_append.1 ht
      · exact (List.eq_of_mem_replicate ht) ▸ rfl
      · exact List.mem_singleton.1 ht ▸ rfl

/-- No literal of the program is a decimal. -/
def Program.WithoutDecimals (p : Program) : Prop := p.Each (fun _ => True) (·.isDecimal = false)

theorem Grammar.withoutDecimals_of_parse {ts : List Token} {p : Program}
    (exact : ∀ t ∈ ts, t.kind ≠ .decimal) (parsed : parse ts = .ok p) : p.WithoutDecimals := by
  refine each_of_parse (fun t ht => ⟨fun _ => trivial, fun v writes => ?_⟩) parsed
  cases writes with
  | decimal kind _ => exact absurd kind (exact t ht)
  | integer _ _ | text _ | verdadero _ | falso _ | nulo _ => rfl

theorem Scan.readable_of_parse {source : String} {o : ScanOptions} {p : Program}
    (parsed : parse (ofString source o).tokens = .ok p) (exact : p.WithoutDecimals) :
    p.Each IsName Literal.Readable :=
  Block.Each.both (fun _ name _ => name) (fun _ readable exact => readable exact) p.statements
    (Grammar.each_of_parse (fun _ => brings_of_mem_tokens) parsed) exact

/-- The outline of a program determines it. Programs without decimals that are read from texts and
have one outline are the same but for the columns of statements and the places in expressions. The
outline of any program lists its tree, with one line for the program, one for each statement and one
for each block. -/
theorem outline_determines :
    (∀ (source source' : String) (o o' : ScanOptions) (p p' : Program),
      parse (Scan.ofString source o).tokens = .ok p →
        parse (Scan.ofString source' o').tokens = .ok p' →
      p.WithoutDecimals → p'.WithoutDecimals → p.outline = p'.outline → p.shown = p'.shown) ∧
    ∀ p : Program, p.outline = p.tree.lines 0 ∧
      p.outline.length = 1 + (Block.preorder p.statements).length +
        ((Block.preorder p.statements).flatMap Stmt.blocks).length := by
  refine ⟨fun source source' o o' p p' parsed parsed' exact exact' same => ?_, fun p => ?_⟩
  · exact Program.shown_of_outline (Scan.readable_of_parse parsed exact)
      (Scan.readable_of_parse parsed' exact') same
  · rw [p.length_outline, Nat.add_assoc]
    exact ⟨p.outline_eq_lines, rfl⟩

/-- One program in two texts: other columns and further parentheses. -/
def narrow : String := "si (x > 1)\n  muestra \"a @2\"\nentero n = 7"

def wide : String := "si ((x>1)) ~ c\n        muestra  (\"a @2\")\nentero  n = 7"

theorem outline_determines_wide : ∃ p p',
    parse (Scan.ofString narrow {}).tokens = .ok p ∧ parse (Scan.ofString wide {}).tokens = .ok p' ∧
    p.WithoutDecimals ∧ p'.WithoutDecimals ∧
    p.outline = ["Program (2 statements)", "  If (x > 1) @1", "    then", "      Print \"a @2\" @2",
      "  VarDeclaration entero n = 7 @3"] ∧
    p'.outline = p.outline ∧ p.shown = p'.shown := by
  have outlines : (parse (Scan.ofString narrow {}).tokens).toOption.map Program.outline =
        some ["Program (2 statements)", "  If (x > 1) @1", "    then", "      Print \"a @2\" @2",
          "  VarDeclaration entero n = 7 @3"] ∧
      (parse (Scan.ofString wide {}).tokens).toOption.map Program.outline =
        (parse (Scan.ofString narrow {}).tokens).toOption.map Program.outline := by
    decide +kernel
  have exact : ∀ t ∈ (Scan.ofString narrow {}).tokens, t.kind ≠ .decimal := by decide +kernel
  have exact' : ∀ t ∈ (Scan.ofString wide {}).tokens, t.kind ≠ .decimal := by decide +kernel
  cases parsed : parse (Scan.ofString narrow {}).tokens with
  | error _ => simp [parsed, Except.toOption] at outlines
  | ok p =>
      cases parsed' : parse (Scan.ofString wide {}).tokens with
      | error _ => simp [parsed, parsed', Except.toOption] at outlines
      | ok p' =>
          rw [parsed, parsed'] at outlines
          have outline := Option.some.inj outlines.1
          have same := Option.some.inj outlines.2
          have clean := Grammar.withoutDecimals_of_parse exact parsed
          have clean' := Grammar.withoutDecimals_of_parse exact' parsed'
          exact ⟨p, p', rfl, rfl, clean, clean', outline, same,
            outline_determines.1 narrow wide {} {} p p' parsed parsed' clean clean' same.symm⟩

end PasoFrontEnd
