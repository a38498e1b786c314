import PasoFrontEnd.Proofs.Grammar.Indentation
import PasoFrontEnd.Proofs.Grammar.Span
import PasoFrontEnd.Proofs.Scan.Order
import PasoFrontEnd.Proofs.Tree.Listing

/-!
The order of a source text in what is made of it. Tokens, errors and the statements of a program
come in the order of their places; a statement stands at the place of its first token, which is one
of its own.
-/

namespace PasoFrontEnd

namespace Grammar

/-- Some tokens that stand in this order in front of the rest, none of them one that marks
structure, are where the statements stand. -/
def Starts (ts rest : List Token) (b : Block) : Prop :=
  ∃ firsts : List Token, (∀ t ∈ firsts, t.kind.isStructural = false) ∧
    b.map Stmt.location = firsts.map Token.location ∧
    ∀ more : List Token, more.Sublist rest → (firsts ++ more).Sublist ts

variable {ts us rest : List Token} {b c : Block} {s : Stmt}

theorem Starts.append (h : Starts ts us b) (h' : Starts us rest c) : Starts ts rest (b ++ c) := by
  obtain ⟨firsts, code, places, stand⟩ := h
  obtain ⟨firsts', code', places', stand'⟩ := h'
  refine ⟨firsts ++ firsts',
    by simpa [or_imp, forall_and] using ⟨code, code'⟩, by simp [places, places'],
    fun more sub => ?_⟩
  rw [List.append_assoc]
  exact stand _ (stand' more sub)

theorem Starts.behind (h : Starts us rest b) (suffix : us <:+ ts) : Starts ts rest b := by
  obtain ⟨firsts, code, places, stand⟩ := h
  exact ⟨firsts, code, places, fun more sub => (stand more sub).trans suffix.sublist⟩

theorem Starts.before (h : Starts ts us b) (suffix : rest <:+ us) : Starts ts rest b := by
  obtain ⟨firsts, code, places, stand⟩ := h
  exact ⟨firsts, code, places, fun more sub => stand more (sub.trans suffix.sublist)⟩

theorem Starts.cons {t : Token} (h : Starts ts rest b) (code : t.kind.isStructural = false)
    (place : s.location = t.location) : Starts (t :: ts) rest (s :: b) := by
  obtain ⟨firsts, code', places, stand⟩ := h
  exact ⟨t :: firsts, by simpa [code] using code', by simp [place, places],
    fun more sub => (stand more sub).cons_cons t⟩

theorem Starts.nil (suffix : rest <:+ ts) : Starts ts rest [] :=
  ⟨[], by simp, rfl, fun _ sub => sub.trans suffix.sublist⟩

theorem Detaches.suffix {fits : List Token → Prop} {R : List Token → List Token → Prop}
    (h : Detaches fits R ts rest) : rest <:+ ts := by
  obtain ⟨span, rfl, -⟩ := h
  exact List.suffix_append span rest

theorem LineEnd.suffix : LineEnd ts rest → rest <:+ ts
  | .newline _ => List.suffix_cons _ _
  | .ahead _ => List.suffix_rfl

mutual

/-- Each statement stands at its first token, in front of the tokens of those in its blocks. -/
theorem Statement.starts {ts rest n} {s : Stmt} : Statement ts s rest n → Starts ts rest s.preorder
  | .assignment name _ value ends => by
      simp only [Stmt.preorder]
      refine .cons (.nil ?_) (by simp [name, Token.Kind.isStructural]) rfl
      exact (ends.suffix.trans value.detaches.suffix).trans (List.suffix_cons _ _)
  | .declaration typed _ ends => by
      simp only [Stmt.preorder]
      refine .cons (.nil ?_) (by simp [typed, Token.Kind.isStructural]) rfl
      exact ends.suffix.trans (List.suffix_cons _ _)
  | .initialized typed _ _ value ends => by
      simp only [Stmt.preorder]
      refine .cons (.nil (.trans ?_ (List.suffix_cons _ _)))
        (by simp [typed, Token.Kind.isStructural]) rfl
      exact (ends.suffix.trans value.detaches.suffix).trans (List.suffix_cons _ _)
  | .print muestra value ends => by
      simp only [Stmt.preorder]
      refine .cons (.nil ?_) (by simp [muestra, Token.Kind.isStructural]) rfl
      exact ends.suffix.trans value.detaches.suffix
  | .branch si condition body => by
      simp only [Stmt.preorder]
      have inner := body.starts.behind condition.detaches.suffix
      exact inner.cons (by simp [si, Token.Kind.isStructural]) rfl
  | .branchElse si condition body _ otherwise => by
      simp only [Stmt.preorder]
      have first := body.starts.before (List.suffix_cons _ _)
      have inner := (first.append otherwise.starts).behind condition.detaches.suffix
      exact inner.cons (by simp [si, Token.Kind.isStructural]) rfl
  | .loop mientras condition body => by
      simp only [Stmt.preorder]
      have inner := body.starts.behind condition.detaches.suffix
      exact inner.cons (by simp [mientras, Token.Kind.isStructural]) rfl
  | .doLoop haz body _ condition ends => by
      simp only [Stmt.preorder]
      refine .cons (body.starts.before ?_) (by simp [haz, Token.Kind.isStructural]) rfl
      exact (ends.suffix.trans condition.detaches.suffix).trans (List.suffix_cons _ _)

theorem IndentedBlock.starts {ts rest n} {b : Block} :
    IndentedBlock ts b rest n → Starts ts rest (Block.preorder b)
  | .intro _ more _ body _ _ => by
      refine (body.starts.before (List.suffix_cons _ _)).behind ?_
      exact ((List.suffix_cons _ _).trans more.detaches.suffix).trans (List.suffix_cons _ _)

theorem Statements.starts {ts rest n} {b : Block} :
    Statements ts b rest n → Starts ts rest (Block.preorder b)
  | .nil blank => .nil blank.detaches.suffix
  | .cons blank first more => by
      rw [Block.preorder]
      exact (first.starts.append more.starts).behind blank.detaches.suffix

end

/-- In tokens that stand in order the statements do as well. -/
theorem Derivation.pairwise_preorder {p : Program} {n : Nat}
    (ordered : ts.Pairwise Token.Precedes) :
    Derivation ts p n → ((Block.preorder p.statements).map Stmt.location).Pairwise (· < ·)
  | .intro body _ => by
      obtain ⟨firsts, code, places, stand⟩ := body.starts
      have sub : firsts.Sublist ts := by simpa using stand [] (List.nil_sublist _)
      rw [places, List.pairwise_map]
      refine (ordered.sublist sub).imp_of_mem fun {t _} ht _ precedes => precedes.2 ?_
      have unmarked := code t ht
      cases kind : t.kind <;> simp_all [Token.isMarker, Token.Kind.isStructural]

end Grammar

/-- Everything that a scan puts out is in the order of the text. A token stands in front of those
behind it, or at their place if it is the marker of a block. Errors are reported in order, none
behind the end of the input; an open string literal and open blocks are reported once at most, the
literal in front of nothing but the blocks. The statements of a program that is parsed from the
tokens stand in order too. -/
theorem scan_inOrder (source : String) (o : ScanOptions) :
    let scan := Scan.ofString source o
    scan.tokens.Pairwise Token.Precedes ∧
    scan.errors.Pairwise (·.location ≤ ·.location) ∧
    (∀ e ∈ scan.errors, ∀ t ∈ scan.tokens, t.kind = .eof → e.location ≤ t.location) ∧
    scan.errors.countP (·.fault = .unterminatedString) ≤ 1 ∧
    scan.errors.countP (·.fault.isUnterminatedBlock) ≤ 1 ∧
    scan.errors.Pairwise (fun e e' =>
      e.fault = .unterminatedString → e'.fault.isUnterminatedBlock = true) ∧
    ∀ p, parse scan.tokens = .ok p →
      ((Block.preorder p.statements).map Stmt.location).Pairwise (· < ·) := by
  intro scan
  have ordered : Scan.InOrder _ _ scan.tokens scan.errors := Scan.inOrder_ofString source o
  have ends : Scan.EndsLast scan.errors := Scan.endsLast_ofString source o
  refine ⟨ordered.tokens, ordered.errors,
    fun e he t ht eof => ordered.eof t ht eof ▸ ordered.errors_to e he,
    ends.countP_unterminatedString, ends.countP_unterminatedBlock, ends.pairwise.imp And.right,
    fun p parsed => ?_⟩
  obtain ⟨s', hok⟩ := Grammar.parse_eq_ok_iff.1 ((Grammar.parse_withoutComments _).trans parsed)
  obtain ⟨n, -, ⟨derivation⟩⟩ := Grammar.program_sound hok
  rw [Grammar.input_ofTokens (Grammar.ended_ofString source o)] at derivation
  exact derivation.pairwise_preorder (ordered.tokens.filter _)

/-- A branch whose text ends inside its block and inside a string literal. -/
def unfinishedBranch : String := "si (a)\n\tb = \"x"

theorem scan_inOrder_unfinishedBranch :
    let scan := Scan.ofString unfinishedBranch {}
    scan.errors = [⟨.unterminatedString, ⟨2, 6⟩⟩, ⟨.unterminatedBlock 1, ⟨2, 8⟩⟩] ∧
      ∃ p, parse scan.tokens = .ok p ∧
        (Block.preorder p.statements).map Stmt.location = [⟨1, 1⟩, ⟨2, 2⟩] ∧
        ((Block.preorder p.statements).map Stmt.location).Pairwise (· < ·) := by
  intro scan
  obtain ⟨-, -, -, -, -, -, statements⟩ := scan_inOrder unfinishedBranch {}
  have errors : scan.errors = [⟨.unterminatedString, ⟨2, 6⟩⟩, ⟨.unterminatedBlock 1, ⟨2, 8⟩⟩] := by
    decide +kernel
  have places : (parse scan.tokens).toOption.map
      (fun p => (Block.preorder p.statements).map Stmt.location) = some [⟨1, 1⟩, ⟨2, 2⟩] := by
    decide +kernel
  cases parsed : parse scan.tokens with
  | error _ => simp [parsed, Except.toOption] at places
  | ok p =>
      rw [parsed] at places
      exact ⟨errors, p, rfl, Option.some.inj places, statements p parsed⟩

end PasoFrontEnd
