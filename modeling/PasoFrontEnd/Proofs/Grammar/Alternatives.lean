import PasoFrontEnd.Proofs.Grammar.Calls
import PasoFrontEnd.Proofs.Grammar.Viability
import PasoFrontEnd.Proofs.Scan.Nesting

/-!
The kinds that an error names in place of the refused token. The tokens in front of it go on to a
program with a token of such a kind, but for the end of a statement: the rule for it names the ends
of a block and of the input wherever the statement stands. Which of the two can stand there is
decided by the markers in front of it, since those of a program are balanced.
-/

namespace PasoFrontEnd

namespace Grammar

section balanced

variable {rank n height : Nat} {ts rest : List Token} {eof : Token}

theorem Expression.balanced {e : Expr} (h : Expression rank ts e rest n)
    (more : Balanced eof height rest) : Balanced eof height ts := by
  induction h with
  | literal writes => exact .other (by cases writes <;> simp [*]) more
  | named name => exact .other (by simp [name]) more
  | group opening _ closing ih =>
      exact .other (by simp [opening]) (ih (.other (by simp [closing]) more))
  | negation sign _ ih => exact .other (by simp [sign]) (ih more)
  | operand _ ih => exact ih more
  | @operation _ _ _ _ _ _ _ _ _ op _ operator _ ihl ihr =>
      exact ihl (.other (by rw [operator.kind_eq]; cases op <;> simp [BinaryOp.kind]) (ihr more))

theorem Condition.balanced {c : Expr} (more : Balanced eof height rest) :
    Condition ts c rest n → Balanced eof height ts
  | .intro opening inner closing =>
      .other (by simp [opening]) (inner.balanced (.other (by simp [closing]) more))

theorem Newlines.balanced (h : Newlines ts rest) (more : Balanced eof height rest) :
    Balanced eof height ts := by
  induction h with
  | none => exact more
  | cons newline _ ih => exact .other (by simp [newline]) (ih more)

theorem LineEnd.balanced (more : Balanced eof height rest) :
    LineEnd ts rest → Balanced eof height ts
  | .newline kind => .other (by simp [kind]) more
  | .ahead _ => more

mutual

theorem Statement.balanced {ts rest n height} {s : Stmt} (more : Balanced eof height rest) :
    Statement ts s rest n → Balanced eof height ts
  | .assignment name assign value ends =>
      .other (by simp [name]) (.other (by simp [assign]) (value.balanced (ends.balanced more)))
  | .declaration typed name ends =>
      .other (by simp [typed]) (.other (by simp [name]) (ends.balanced more))
  | .initialized typed name assign value ends =>
      .other (by simp [typed]) (.other (by simp [name]) (.other (by simp [assign])
        (value.balanced (ends.balanced more))))
  | .print muestra value ends => .other (by simp [muestra]) (value.balanced (ends.balanced more))
  | .branch si condition body => .other (by simp [si]) (condition.balanced (body.balanced more))
  | .branchElse si condition body other otherwise =>
      .other (by simp [si]) (condition.balanced (body.balanced
        (.other (by obtain kind | kind := other <;> simp [kind]) (otherwise.balanced more))))
  | .loop mientras condition body =>
      .other (by simp [mientras]) (condition.balanced (body.balanced more))
  | .doLoop haz body mientras condition ends =>
      .other (by simp [haz]) (body.balanced (.other (by simp [mientras])
        (condition.balanced (ends.balanced more))))

theorem IndentedBlock.balanced {ts rest n height} {b : Block} (more : Balanced eof height rest) :
    IndentedBlock ts b rest n → Balanced eof height ts
  | .intro newline blank opened body _ closed =>
      .other (by simp [newline])
        (blank.balanced (.opened opened (body.balanced (.closed closed more))))

theorem Statements.balanced {ts rest n height} {b : Block} (more : Balanced eof height rest) :
    Statements ts b rest n → Balanced eof height ts
  | .nil blank => blank.balanced more
  | .cons blank first others => blank.balanced (first.balanced (others.balanced more))

end

/-- The markers of a program are balanced, and its end mark is the only one. -/
theorem Derivation.balanced {p : Program} :
    Derivation ts p n → ∃ eof, Balanced eof 0 ts
  | .intro body ends => ⟨_, body.balanced (.ended ends)⟩

end balanced

/-- A block is open behind the tokens. -/
def InBlock (front : List Token) : Prop := countKind .dedent front < countKind .indent front

/-- The end of a block outside of any, or the end of the input inside of one. -/
def Misplaced (front : List Token) (kind : Token.Kind) : Prop :=
  kind = .dedent ∧ ¬ InBlock front ∨ kind = .eof ∧ InBlock front

/-- Parsing refuses the token at the given place among those that are kept. -/
def RefusesAt (tokens : List Token) (i : Nat) (expected : List Token.Kind) (found : Token) : Prop :=
  ∃ e, parse tokens = .error e ∧ e.cause = .unexpectedToken expected found ∧
    (Parser.ofTokens tokens).program.2.position = i

section misplaced

variable {front ts : List Token} {kind : Token.Kind} {p : Program} {n : Nat}

theorem inBlock_congr {front' : List Token} (h : front'.map Token.kind = front.map Token.kind) :
    InBlock front' ↔ InBlock front := by
  have counted (kind : Token.Kind) (ts : List Token) :
      countKind kind ts = (ts.map Token.kind).countP (· = kind) := by
    simp [countKind, List.countP_map, Function.comp_def]
  rw [InBlock, InBlock, counted, counted, counted .dedent front, counted .indent front, h]

/-- No program has a misplaced end. -/
theorem isEmpty_derivation_of_misplaced (h : Misplaced front kind)
    (begins : front.map Token.kind ++ [kind] <+: ts.map Token.kind) :
    IsEmpty (Derivation ts p n) := by
  refine ⟨fun derivation => ?_⟩
  obtain ⟨eof, balanced⟩ := derivation.balanced
  obtain ⟨kinds, hkinds⟩ := begins
  rw [List.append_assoc] at hkinds
  obtain ⟨front', back, rfl, same, hback⟩ := List.map_eq_append_iff.1 hkinds.symm
  obtain ⟨t, more, rfl, rfl, -⟩ := List.map_eq_cons_iff.1 hback
  rw [Misplaced, ← inBlock_congr same] at h
  obtain ⟨dedent, outside⟩ | ⟨ends, inside⟩ := h
  · have closed : countKind .dedent (front' ++ [t]) ≤ countKind .indent (front' ++ [t]) + 0 :=
      balanced.countKind_le ⟨more, by simp⟩
    refine outside ?_
    simpa [InBlock, countKind, List.countP_append, dedent] using closed
  · have counts := balanced.countKind_eq
    obtain ⟨code, whole, hcode⟩ := balanced.exists_eq_append
    -- the end mark is the last token, so what is open there stays open
    obtain rfl | ⟨more, last, rfl⟩ := more.eq_nil_or_concat
    · simp [countKind, List.countP_append, ends] at counts
      exact Nat.ne_of_lt inside counts
    · rw [List.concat_eq_append, ← List.cons_append, ← List.append_assoc] at whole
      refine hcode t ?_ ends
      simp [← List.append_inj_left' whole rfl]

/-- What an error names can stand there, unless it is a misplaced end. -/
theorem Offered.misplaced_or_begins {wants : Prop} (h : Offered wants sequenceSpans front kind) :
    Misplaced front kind ∨ ∃ more p n,
      Nonempty (Derivation (front ++ specimen kind :: more) p n) := by
  have placed {kind more p n} (h : Nonempty (Derivation (front ++ specimen kind :: more) p n)) :
      ¬ Misplaced front kind := by
    intro misplaced
    obtain ⟨derivation⟩ := h
    exact (isEmpty_derivation_of_misplaced misplaced (by simp [specimen])).false derivation
  have viable_begins {kind} (viable : Viable sequenceSpans (front ++ [specimen kind])) :
      ∃ more p n, Nonempty (Derivation (front ++ specimen kind :: more) p n) := by
    obtain ⟨more, p, n, derivation⟩ := viable.exists_derivation
    exact ⟨more, p, n, by rwa [List.append_assoc] at derivation⟩
  cases h with
  | goesOn _ viable => exact .inr (viable_begins viable)
  | inBlock viable =>
      obtain ⟨more, p, n, derivation⟩ := viable_begins viable
      refine .inl (.inr ⟨rfl, ?_⟩)
      simpa [Misplaced] using placed derivation
  | whole _ closing phrase =>
      obtain ⟨p, n, derivation⟩ := exists_derivation_of_mem phrase
      obtain rfl | rfl := closing
      · refine .inl (.inl ⟨rfl, ?_⟩)
        simpa [Misplaced] using placed derivation
      · exact .inr ⟨[], p, n, derivation⟩

end misplaced

section refused

variable {tokens front behind : List Token} {i : Nat} {expected : List Token.Kind} {found t : Token}

/-- The run that is refused at a place has read the tokens in front of it. -/
theorem RefusesAt.exists_run (h : RefusesAt tokens i expected found) :
    ∃ e s', statements (fun kind => kind = .eof) (statement maxNesting) (.ofTokens tokens) =
      .error e s' ∧
      e.cause = .unexpectedToken expected found ∧
      ∃ front, (State.ofTokens tokens).input = front ++ s'.input ∧ front.length = i := by
  obtain ⟨e, refused, cause, rfl⟩ := h
  obtain ⟨s', hrun⟩ := parse_eq_error_iff.1 refused
  refine ⟨e, s', hrun, cause, ?_⟩
  obtain ⟨onward, alike⟩ := Parser.program_inStep (p := .ofTokens tokens) rfl
  obtain ⟨t, ht, hinput⟩ := alike.run
  rw [Parser.program_ofTokens, refused] at ht
  obtain ⟨-, rfl⟩ := @Rule.result_inj _ (.error e) (.error e) _ _
    (ht.symm.trans (Rule.bind_of_error hrun))
  obtain ⟨front, hfront⟩ := alike.suffix
  refine ⟨front, by rw [hinput, hfront]; rfl, ?_⟩
  have lengths := congrArg List.length hfront
  rw [List.length_append, State.length_input, State.length_input] at lengths
  have total : _ = 0 + (Parser.ofTokens tokens).state.left := onward.position
  change _ = (Parser.ofTokens tokens).program.2.state.position
  omega

/-- A token is not refused where a program has one of its kind. -/
theorem not_refusesAt {more : List Token} {p : Program} {n : Nat}
    (code : ∀ u ∈ front, u.kind ≠ .eof ∧ u.kind ≠ .comment) (plain : t.kind ≠ .comment)
    (begins : Nonempty (Derivation (front ++ specimen t.kind :: more) p n)) :
    ¬ RefusesAt (front ++ t :: behind) front.length expected found := by
  intro h
  obtain ⟨derivation⟩ := begins
  obtain ⟨e, s', hrun, cause, front', hinput, hlength⟩ := h.exists_run
  obtain ⟨rest, hfront, hrest⟩ := @exists_input_eq_append front behind t code plain
  obtain ⟨rfl, rfl⟩ := List.append_inj (hfront.symm.trans hinput) hlength.symm
  obtain ⟨us, hs'⟩ := List.head?_eq_some_iff.1 hrest
  have settled : e.found?.isSome := by simp [SyntaxError.found?, cause]
  exact (isEmpty_derivation_of_refused hrun settled hinput hs' (by simp [specimen])).false
    derivation

/-- The kinds that are named in place of a refused token can stand there, unless it is the end of a
block that a whole statement without a newline has taken for its own end. A token of such a kind is
not refused there again, whatever stands behind it; but for the end of a block outside of any and
the end of the input inside of one, with which the tokens in front of them begin no program. -/
theorem expected_stands (plain : ∀ t ∈ tokens, t.kind ≠ .comment)
    (ends : ∃ t ∈ tokens.getLast?, t.kind = .eof) (h : RefusesAt tokens i expected found) :
    ∀ kind ∈ expected, ¬ Stray (· = .eof) (tokens.take i) found →
      (¬ Misplaced (tokens.take i) kind → ∀ t behind, t.kind = kind → ∀ expected' found',
        ¬ RefusesAt (tokens.take i ++ t :: behind) i expected' found') ∧
      (Misplaced (tokens.take i) kind → ∀ ts p n,
        (tokens.take i).map Token.kind ++ [kind] <+: ts.map Token.kind →
          IsEmpty (Derivation ts p n)) := by
  obtain ⟨e, s', hrun, cause, front, hinput, rfl⟩ := h.exists_run
  obtain ⟨back, htokens⟩ := exists_input_append plain ends
  obtain ⟨us, hs'⟩ := s'.input_eq_next_cons
  have read : tokens.take front.length = front := by
    rw [htokens, hinput, List.append_assoc, List.take_left]
  have code : ∀ u ∈ front, u.kind ≠ .eof ∧ u.kind ≠ .comment := fun u hu =>
    ⟨State.kind_ne_eof_of_input (hs' ▸ hinput) u hu, plain u (by
      rw [htokens, hinput]
      simp [hu])⟩
  obtain ⟨-, -, front', hinput', -, -, named⟩ :=
    statements_interrupts (statement_sound maxNesting) (statement_keepsTo maxNesting) hrun found
      (by simp [SyntaxError.found?, cause])
  obtain rfl := List.append_cancel_right (hinput.symm.trans hinput')
  rw [read]
  intro kind hkind unstray
  have offered :=
    (named kind (by simpa [SyntaxError.expected, cause] using hkind)).resolve_right unstray
  refine ⟨fun placed t behind hk expected' found' => ?_,
    fun misplaced ts p n => isEmpty_derivation_of_misplaced misplaced⟩
  obtain rfl := hk
  obtain ⟨more, p, n, begins⟩ := offered.misplaced_or_begins.resolve_left placed
  exact not_refusesAt code offered.kind_ne_comment begins

/-- The tokens of `a = 1 2`. -/
def trailing : List Token :=
  [⟨.identifier, "a", ⟨1, 1⟩⟩, ⟨.symbol .assign, "=", ⟨1, 3⟩⟩, ⟨.integer, "1", ⟨1, 5⟩⟩,
   ⟨.integer, "2", ⟨1, 7⟩⟩, ⟨.eof, "", ⟨1, 8⟩⟩]

theorem expected_stands_trailing :
    RefusesAt trailing 3 [.newline, .dedent, .eof] ⟨.integer, "2", ⟨1, 7⟩⟩ ∧
      (∀ t behind, t.kind = .newline ∨ t.kind = .eof → ∀ expected' found',
        ¬ RefusesAt (trailing.take 3 ++ t :: behind) 3 expected' found') ∧
      ∀ ts p n, (trailing.take 3).map Token.kind ++ [.dedent] <+: ts.map Token.kind →
        IsEmpty (Derivation ts p n) := by
  have refused : RefusesAt trailing 3 [.newline, .dedent, .eof] ⟨.integer, "2", ⟨1, 7⟩⟩ :=
    ⟨⟨_, ⟨1, 7⟩⟩, by cbv, rfl, by decide +kernel⟩
  have unstray : ¬ Stray (· = .eof) (trailing.take 3) ⟨.integer, "2", ⟨1, 7⟩⟩ :=
    fun stray => by simpa using stray.closing
  have stands := expected_stands (by decide) ⟨_, rfl, rfl⟩ refused
  have newline := (stands .newline (by decide) unstray).1 (by simp [Misplaced])
  have eof := (stands .eof (by decide) unstray).1 (by simp [Misplaced, InBlock]; decide)
  have dedent := (stands .dedent (by decide) unstray).2 (.inl ⟨rfl, by simp [InBlock]; decide⟩)
  refine ⟨refused, ?_, dedent⟩
  rintro t behind (hk | hk)
  · exact newline t behind hk
  · exact eof t behind hk

/-- The end of a block is named behind `a = 1`, and refused there in its turn. -/
theorem refusesAt_dedent_again :
    ¬ ∀ tokens i expected found, (∀ t ∈ tokens, t.kind ≠ .comment) →
      (∃ t ∈ tokens.getLast?, t.kind = .eof) → RefusesAt tokens i expected found →
      ∀ kind ∈ expected, ∀ t behind, t.kind = kind → ∀ expected' found',
        ¬ RefusesAt (tokens.take i ++ t :: behind) i expected' found' := by
  intro every
  refine every trailing 3 _ _ (by decide) ⟨_, rfl, rfl⟩
    ⟨⟨_, ⟨1, 7⟩⟩, by cbv, rfl, by decide +kernel⟩ .dedent (by decide)
    ⟨.dedent, "", ⟨1, 7⟩⟩ [⟨.eof, "", ⟨1, 7⟩⟩] rfl statementStart _
      ⟨⟨_, ⟨1, 7⟩⟩, by cbv, rfl, by decide +kernel⟩

/-- Where such an end stands in front of no block, the start of a statement is named in its place;
the statement in front of it lacks the newline that it would need. -/
example :
    RefusesAt (trailing.take 3 ++ [⟨.dedent, "", ⟨1, 7⟩⟩, ⟨.eof, "", ⟨1, 7⟩⟩]) 3 statementStart
        ⟨.dedent, "", ⟨1, 7⟩⟩ ∧
      RefusesAt (trailing.take 3 ++ [⟨.identifier, "b", ⟨1, 7⟩⟩, ⟨.eof, "", ⟨1, 8⟩⟩]) 3
        [.newline, .dedent, .eof] ⟨.identifier, "b", ⟨1, 7⟩⟩ :=
  ⟨⟨⟨_, ⟨1, 7⟩⟩, by cbv, rfl, by decide +kernel⟩, ⟨_, ⟨1, 7⟩⟩, by cbv, rfl, by decide +kernel⟩

end refused

end Grammar

end PasoFrontEnd
