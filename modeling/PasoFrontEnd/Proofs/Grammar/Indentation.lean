import PasoFrontEnd.Proofs.Grammar.Completeness
import PasoFrontEnd.Proofs.Layout.Lines
import PasoFrontEnd.Proofs.Scan.Nesting

/-!
The blocks of a tree are the indentation of its text. A derivation is aligned if the statements of a
block stand on lines of one width, which is greater than that of the statement with the block, and
if the words that belong to a statement stand on lines as wide as its own. What a scan without
inconsistent dedents puts out has only aligned derivations.
-/

namespace PasoFrontEnd.Grammar

/-- The token is the first of a line of the given width. -/
def Begins (first : Token → Prop) (width : Nat → Nat) (w : Nat) (t : Token) : Prop :=
  first t ∧ width t.location.line = w

mutual

/-- The statement begins a line of the given width, and so do an else part and the condition behind
a body; its blocks are aligned further in. -/
def Statement.Aligned (first : Token → Prop) (width : Nat → Nat) (w : Nat) {ts rest : List Token}
    {s : Stmt} {n : Nat} : Statement ts s rest n → Prop
  | .assignment (t := t) _ _ _ _ | .declaration (t := t) _ _ _ | .initialized (t := t) _ _ _ _ _
  | .print (t := t) _ _ _ => Begins first width w t
  | .branch (t := t) _ _ body | .loop (t := t) _ _ body =>
      Begins first width w t ∧ body.Aligned first width w
  | .branchElse (t := t) (o := o) _ _ body _ otherwise =>
      Begins first width w t ∧ body.Aligned first width w ∧
        Begins first width w o ∧ otherwise.Aligned first width w
  | .doLoop (t := t) (w := m) _ body _ _ _ =>
      Begins first width w t ∧ body.Aligned first width w ∧ Begins first width w m

/-- The block of a statement on a line of the given width: its statements stand on lines of one
greater width. -/
def IndentedBlock.Aligned (first : Token → Prop) (width : Nat → Nat) (owner : Nat)
    {ts rest : List Token} {b : Block} {n : Nat} : IndentedBlock ts b rest n → Prop
  | .intro _ _ _ body _ _ => ∃ w, owner < w ∧ body.Aligned first width w

/-- All the statements are aligned with the given width. -/
def Statements.Aligned (first : Token → Prop) (width : Nat → Nat) (w : Nat) {ts rest : List Token}
    {b : Block} {n : Nat} : Statements ts b rest n → Prop
  | .nil _ => True
  | .cons _ s more => s.Aligned first width w ∧ more.Aligned first width w

end

/-- Statements outside all blocks stand on lines of width 0. -/
def Derivation.Aligned (first : Token → Prop) (width : Nat → Nat) {ts : List Token} {p : Program}
    {n : Nat} : Derivation ts p n → Prop
  | .intro body _ => body.Aligned first width 0

variable {first : Token → Prop} {width : Nat → Nat} {levels : List Nat} {rank n : Nat}
  {ts rest : List Token}

theorem Writes.isCode {t : Token} {value : Literal} (h : Writes t value) : t.IsCode := by
  cases h with
  | integer kind _ | decimal kind _ | text kind | verdadero kind | falso kind | nulo kind =>
      simp [Token.IsCode, kind]

/-- Expressions stay in the middle of a line. -/
theorem Expression.laid {e : Expr} (h : Expression rank ts e rest n)
    (laid : Laid first width false levels ts) : Laid first width false levels rest := by
  induction h with
  | literal writes => exact (laid.of_code writes.isCode).2
  | named name => exact (laid.of_code (by simp [Token.IsCode, name])).2
  | group opening _ closing ih =>
      have inner := ih (laid.of_code (by simp [Token.IsCode, opening])).2
      exact (inner.of_code (by simp [Token.IsCode, closing])).2
  | negation sign _ ih => exact ih (laid.of_code (by simp [Token.IsCode, sign])).2
  | operand _ ih => exact ih laid
  | @operation _ _ _ t _ _ _ _ _ op _ operator _ ihl ihr =>
      have code : t.IsCode := by cases op <;> simp [Token.IsCode, operator.kind_eq, BinaryOp.kind]
      exact ihr ((ihl laid).of_code code).2

theorem Condition.laid {c : Expr} :
    Condition ts c rest n → Laid first width false levels ts → Laid first width false levels rest
  | .intro opening inner closing, laid => by
      have inner := inner.laid (laid.of_code (by simp [Token.IsCode, opening])).2
      exact (inner.of_code (by simp [Token.IsCode, closing])).2

theorem Newlines.laid (h : Newlines ts rest) (laid : Laid first width true levels ts) :
    Laid first width true levels rest := by
  induction h with
  | none => exact laid
  | cons newline _ ih => exact ih (laid.of_newline newline)

theorem LineEnd.laid :
    LineEnd ts rest → Laid first width false levels ts → Laid first width true levels rest
  | .newline kind, laid => laid.of_newline kind
  | .ahead kind, laid => laid.of_closing kind

mutual

/-- A statement at the beginning of a line is aligned with the innermost block, and leaves that
block as it was. -/
theorem Statement.aligned {ts rest n} {s : Stmt} {levels : List Nat} :
    (d : Statement ts s rest n) → Laid first width true levels ts →
      d.Aligned first width (levels.headD 0) ∧ Laid first width true levels rest
  | .assignment name assign value ends, laid => by
      obtain ⟨head, laid⟩ := laid.of_code (by simp [Token.IsCode, name])
      have assigned := (laid.of_code (by simp [Token.IsCode, assign])).2
      exact ⟨head rfl, ends.laid (value.laid assigned)⟩
  | .declaration typed name ends, laid => by
      obtain ⟨head, laid⟩ := laid.of_code (by simp [Token.IsCode, typed])
      have named := (laid.of_code (by simp [Token.IsCode, name])).2
      exact ⟨head rfl, ends.laid named⟩
  | .initialized typed name assign value ends, laid => by
      obtain ⟨head, laid⟩ := laid.of_code (by simp [Token.IsCode, typed])
      have named := (laid.of_code (by simp [Token.IsCode, name])).2
      have assigned := (named.of_code (by simp [Token.IsCode, assign])).2
      exact ⟨head rfl, ends.laid (value.laid assigned)⟩
  | .print muestra value ends, laid => by
      obtain ⟨head, laid⟩ := laid.of_code (by simp [Token.IsCode, muestra])
      exact ⟨head rfl, ends.laid (value.laid laid)⟩
  | .branch word condition body, laid | .loop word condition body, laid => by
      obtain ⟨head, laid⟩ := laid.of_code (by simp [Token.IsCode, word])
      obtain ⟨inside, laid⟩ := body.aligned (condition.laid laid)
      exact ⟨⟨head rfl, inside⟩, laid⟩
  | .branchElse (o := o) si condition body other otherwise, laid => by
      obtain ⟨head, laid⟩ := laid.of_code (by simp [Token.IsCode, si])
      obtain ⟨inside, laid⟩ := body.aligned (condition.laid laid)
      have code : o.IsCode := by obtain other | other := other <;> simp [Token.IsCode, other]
      obtain ⟨otherHead, laid⟩ := laid.of_code code
      obtain ⟨otherInside, laid⟩ := otherwise.aligned laid
      exact ⟨⟨head rfl, inside, otherHead rfl, otherInside⟩, laid⟩
  | .doLoop haz body mientras condition ends, laid => by
      obtain ⟨head, laid⟩ := laid.of_code (by simp [Token.IsCode, haz])
      obtain ⟨inside, laid⟩ := body.aligned laid
      obtain ⟨lastHead, laid⟩ := laid.of_code (by simp [Token.IsCode, mientras])
      exact ⟨⟨head rfl, inside, lastHead rfl⟩, ends.laid (condition.laid laid)⟩

theorem IndentedBlock.aligned {ts rest n} {b : Block} {levels : List Nat} {fresh : Bool} :
    (d : IndentedBlock ts b rest n) → Laid first width fresh levels ts →
      d.Aligned first width (levels.headD 0) ∧ Laid first width true levels rest
  | .intro newline more opened body _ closed, laid => by
      -- the width at the first marker is that of every statement up to the second
      obtain ⟨w, wider, laid⟩ := (more.laid (laid.of_newline newline)).of_indent opened
      obtain ⟨inside, laid⟩ := body.aligned laid
      exact ⟨⟨w, wider, inside⟩, laid.of_dedent closed⟩

theorem Statements.aligned {ts rest n} {b : Block} {levels : List Nat} :
    (d : Statements ts b rest n) → Laid first width true levels ts →
      d.Aligned first width (levels.headD 0) ∧ Laid first width true levels rest
  | .nil blank, laid => ⟨trivial, blank.laid laid⟩
  | .cons blank s more, laid => by
      obtain ⟨head, laid⟩ := s.aligned (blank.laid laid)
      obtain ⟨below, laid⟩ := more.aligned laid
      exact ⟨⟨head, below⟩, laid⟩

end

theorem Derivation.aligned {p : Program} :
    (d : Derivation ts p n) → Laid first width true [] ts → d.Aligned first width
  | .intro body _, laid => (body.aligned laid).1

/-- Comments play no part in a parse. -/
theorem parse_withoutComments (tokens : List Token) :
    parse (tokens.filter (·.kind ≠ .comment)) = parse tokens := by
  simp [parse, State.ofTokens, Parser.kept]

/-- Apart from their comments, the tokens of a scan are fit for a parse. -/
theorem ended_ofString (source : String) (o : ScanOptions) :
    Ended ((Scan.ofString source o).tokens.filter (·.kind ≠ .comment)) := by
  obtain ⟨front, htokens, hfront⟩ :=
    (Scan.balanced_ofChars o .start source.toList).exists_eq_append
  change (Scan.ofString source o).tokens = _ at htokens
  have hkept : (Scan.ofString source o).tokens.filter (·.kind ≠ .comment) =
      front.filter (·.kind ≠ .comment) ++ [⟨.eof, "", Location.start.advance source.toList⟩] := by
    rw [htokens, List.filter_append]
    rfl
  refine ⟨_, _, hkept, rfl, fun t ht => ?_⟩
  obtain ⟨hmem, hcomment⟩ := List.mem_filter.1 ht
  exact ⟨hfront t hmem, of_decide_eq_true hcomment⟩

/-- What is parsed from a scan without inconsistent dedents has the blocks that the indentation of
the text shows. -/
theorem aligned_of_parse {source : String} {o : ScanOptions} {p : Program}
    (narrow : ∀ line, Layout.lineWidth o.tabWidth source.toList line < Word.size)
    (consistent : ∀ e ∈ (Scan.ofString source o).errors, ∀ w, e.fault ≠ .inconsistentDedent w)
    (parsed : parse (Scan.ofString source o).tokens = .ok p) :
    let tokens := (Scan.ofString source o).tokens
    let kept := tokens.filter (·.kind ≠ .comment)
    (∃ n, Nonempty (Derivation kept p n)) ∧ ∀ {n} (d : Derivation kept p n),
      d.Aligned (FirstOnLine tokens) (Layout.lineWidth o.tabWidth source.toList) := by
  intro tokens kept
  constructor
  · obtain ⟨s', hok⟩ := parse_eq_ok_iff.1 ((parse_withoutComments tokens).trans parsed)
    obtain ⟨n, -, derivation⟩ := program_sound hok
    rw [input_ofTokens (ended_ofString source o)] at derivation
    exact ⟨n, derivation⟩
  · intro n d
    exact d.aligned (Scan.laid_ofString narrow consistent).withoutComments

/-- A loop with a branch inside; a line with a comment and a blank line stand between their parts.
-/
def loopWithBranch : String :=
  "haz\n\tsi (a)\n\t  b = 1\n ~ b\n\tsi no ~ c\n\t c = 2\n\nmientras (a)\n"

theorem aligned_loopWithBranch :
    (∀ line, Layout.lineWidth 8 loopWithBranch.toList line < Word.size) ∧
      (Scan.ofString loopWithBranch {}).errors = [] ∧
      ∃ p, parse (Scan.ofString loopWithBranch {}).tokens = .ok p ∧
        ∃ n, ∃ d : Derivation
            ((Scan.ofString loopWithBranch {}).tokens.filter (·.kind ≠ .comment)) p n,
          d.Aligned (FirstOnLine (Scan.ofString loopWithBranch {}).tokens)
            (Layout.lineWidth 8 loopWithBranch.toList) := by
  have narrow (line : Nat) : Layout.lineWidth 8 loopWithBranch.toList line < Word.size :=
    Nat.lt_of_le_of_lt (Layout.lineWidth_le _ _ _) (by decide +kernel)
  have clean : (Scan.ofString loopWithBranch {}).errors = [] := by decide +kernel
  have accepted : (parse (Scan.ofString loopWithBranch {}).tokens).toBool = true := by
    decide +kernel
  cases parsed : parse (Scan.ofString loopWithBranch {}).tokens with
  | error e => simp [parsed, Except.toBool] at accepted
  | ok p =>
      obtain ⟨⟨n, ⟨d⟩⟩, aligned⟩ := aligned_of_parse (o := {}) narrow (by simp [clean]) parsed
      exact ⟨narrow, clean, p, rfl, n, d, aligned d⟩

end PasoFrontEnd.Grammar
