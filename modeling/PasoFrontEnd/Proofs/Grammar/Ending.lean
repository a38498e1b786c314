import Mathlib.Data.List.Forall2
import PasoFrontEnd.Proofs.Grammar.Completeness

/-!
The end of the input is as good as a newline. A list of tokens, and the list with a newline in front
of the marks that only close blocks and the input, derive the same programs: the end of the last
statement takes the newline, or the statements of its block pass over it.

Both directions are one induction over derivations. It asks for little: a relation of lists that
goes along with the single tokens of a derivation and with the newlines around its statements.
-/

namespace PasoFrontEnd

/-- Whether a statement on one line can end at a token of this kind. -/
def Token.Kind.endsLine : Token.Kind → Bool
  | newline | dedent | eof => true
  | _ => false

namespace Grammar

/-- Lists that a derivation goes along with side by side, token for token; the newlines around
statements may be others on either side. -/
structure Carries (T : List Token → List Token → Prop) : Prop where
  token : ∀ {t ts us}, T (t :: ts) us → t.kind.endsLine = false → ∃ us', us = t :: us' ∧ T ts us'
  newlines : ∀ {ts us rest}, T ts us → Newlines ts rest → ∃ rest', Newlines us rest' ∧ T rest rest'
  lineEnd : ∀ {ts us rest}, T ts us → LineEnd ts rest → ∃ rest', LineEnd us rest' ∧ T rest rest'
  opening : ∀ {t ts us i rest}, T (t :: ts) us → t.kind = .newline → Newlines ts (i :: rest) →
    i.kind = .indent → ∃ us', us = t :: us' ∧ T ts us'
  closing : ∀ {t ts us}, T (t :: ts) us → t.kind = .dedent →
    ∃ t' us', t'.kind = .dedent ∧ Newlines us (t' :: us') ∧ T ts us'
  ending : ∀ {t us}, T [t] us → t.kind = .eof → ∃ t', t'.kind = .eof ∧ Newlines us [t']

/-- Newlines behind the last statement belong to the statements. -/
def Statements.append {ts us rest : List Token} {b : Block} {n : Nat} :
    Statements ts b us n → Newlines us rest → Statements ts b rest n
  | .nil blank, h => .nil (blank.trans h)
  | .cons blank first more, h => .cons blank first (more.append h)

variable {T : List Token → List Token → Prop}

theorem Writes.endsLine {t : Token} {value : Literal} (h : Writes t value) :
    t.kind.endsLine = false := by
  cases h <;> simp_all [Token.Kind.endsLine]

theorem Expression.carried (carries : Carries T) {rank n : Nat} {ts us rest : List Token} {e : Expr}
    (d : Expression rank ts e rest n) (h : T ts us) :
    ∃ rest', T rest rest' ∧ Expression rank us e rest' n := by
  induction d generalizing us with
  | literal writes =>
      obtain ⟨us, rfl, h₁⟩ := carries.token h writes.endsLine
      exact ⟨us, h₁, .literal writes⟩
  | named kind =>
      obtain ⟨us, rfl, h₁⟩ := carries.token h (by rw [kind]; rfl)
      exact ⟨us, h₁, .named kind⟩
  | group opening _ closing ih =>
      obtain ⟨us, rfl, h₁⟩ := carries.token h (by rw [opening]; rfl)
      obtain ⟨vs, h₂, inner⟩ := ih h₁
      obtain ⟨vs, rfl, h₃⟩ := carries.token h₂ (by rw [closing]; rfl)
      exact ⟨vs, h₃, .group opening inner closing⟩
  | negation sign _ ih =>
      obtain ⟨us, rfl, h₁⟩ := carries.token h (by rw [sign]; rfl)
      obtain ⟨vs, h₂, operand⟩ := ih h₁
      exact ⟨vs, h₂, .negation sign operand⟩
  | operand _ ih =>
      obtain ⟨vs, h₁, operand⟩ := ih h
      exact ⟨vs, h₁, .operand operand⟩
  | @operation _ _ _ _ _ _ _ _ _ op _ operator _ ihl ihr =>
      obtain ⟨vs, h₁, left⟩ := ihl h
      obtain ⟨vs, rfl, h₂⟩ := carries.token h₁ (by rw [operator.kind_eq]; cases op <;> rfl)
      obtain ⟨ws, h₃, right⟩ := ihr h₂
      exact ⟨ws, h₃, .operation left operator right⟩

theorem Condition.carried (carries : Carries T) {n : Nat} {ts us rest : List Token} {c : Expr} :
    Condition ts c rest n → T ts us → ∃ rest', T rest rest' ∧ Condition us c rest' n
  | .intro opening inner closing, h => by
      obtain ⟨us, rfl, h₁⟩ := carries.token h (by rw [opening]; rfl)
      obtain ⟨vs, h₂, inner⟩ := inner.carried carries h₁
      obtain ⟨vs, rfl, h₃⟩ := carries.token h₂ (by rw [closing]; rfl)
      exact ⟨vs, h₃, .intro opening inner closing⟩

mutual

theorem Statement.carried (carries : Carries T) {ts us rest : List Token} {s : Stmt} {n : Nat} :
    Statement ts s rest n → T ts us → ∃ rest', T rest rest' ∧ Nonempty (Statement us s rest' n)
  | .assignment name assign value ends, h => by
      obtain ⟨us, rfl, h₁⟩ := carries.token h (by rw [name]; rfl)
      obtain ⟨us, rfl, h₂⟩ := carries.token h₁ (by rw [assign]; rfl)
      obtain ⟨vs, h₃, value⟩ := value.carried carries h₂
      obtain ⟨rest', ends, h₄⟩ := carries.lineEnd h₃ ends
      exact ⟨rest', h₄, ⟨.assignment name assign value ends⟩⟩
  | .declaration typed name ends, h => by
      obtain ⟨us, rfl, h₁⟩ := carries.token h (by rw [typed]; rfl)
      obtain ⟨us, rfl, h₂⟩ := carries.token h₁ (by rw [name]; rfl)
      obtain ⟨rest', ends, h₃⟩ := carries.lineEnd h₂ ends
      exact ⟨rest', h₃, ⟨.declaration typed name ends⟩⟩
  | .initialized typed name assign value ends, h => by
      obtain ⟨us, rfl, h₁⟩ := carries.token h (by rw [typed]; rfl)
      obtain ⟨us, rfl, h₂⟩ := carries.token h₁ (by rw [name]; rfl)
      obtain ⟨us, rfl, h₃⟩ := carries.token h₂ (by rw [assign]; rfl)
      obtain ⟨vs, h₄, value⟩ := value.carried carries h₃
      obtain ⟨rest', ends, h₅⟩ := carries.lineEnd h₄ ends
      exact ⟨rest', h₅, ⟨.initialized typed name assign value ends⟩⟩
  | .print muestra value ends, h => by
      obtain ⟨us, rfl, h₁⟩ := carries.token h (by rw [muestra]; rfl)
      obtain ⟨vs, h₂, value⟩ := value.carried carries h₁
      obtain ⟨rest', ends, h₃⟩ := carries.lineEnd h₂ ends
      exact ⟨rest', h₃, ⟨.print muestra value ends⟩⟩
  | .branch si condition body, h => by
      obtain ⟨us, rfl, h₁⟩ := carries.token h (by rw [si]; rfl)
      obtain ⟨vs, h₂, condition⟩ := condition.carried carries h₁
      obtain ⟨rest', h₃, ⟨body⟩⟩ := body.carried carries h₂
      exact ⟨rest', h₃, ⟨.branch si condition body⟩⟩
  | .branchElse si condition body other otherwise, h => by
      obtain ⟨us, rfl, h₁⟩ := carries.token h (by rw [si]; rfl)
      obtain ⟨vs, h₂, condition⟩ := condition.carried carries h₁
      obtain ⟨vs, h₃, ⟨body⟩⟩ := body.carried carries h₂
      obtain ⟨vs, rfl, h₄⟩ :=
        carries.token h₃ (by obtain kind | kind := other <;> rw [kind] <;> rfl)
      obtain ⟨rest', h₅, ⟨otherwise⟩⟩ := otherwise.carried carries h₄
      exact ⟨rest', h₅, ⟨.branchElse si condition body other otherwise⟩⟩
  | .loop mientras condition body, h => by
      obtain ⟨us, rfl, h₁⟩ := carries.token h (by rw [mientras]; rfl)
      obtain ⟨vs, h₂, condition⟩ := condition.carried carries h₁
      obtain ⟨rest', h₃, ⟨body⟩⟩ := body.carried carries h₂
      exact ⟨rest', h₃, ⟨.loop mientras condition body⟩⟩
  | .doLoop haz body mientras condition ends, h => by
      obtain ⟨us, rfl, h₁⟩ := carries.token h (by rw [haz]; rfl)
      obtain ⟨vs, h₂, ⟨body⟩⟩ := body.carried carries h₁
      obtain ⟨vs, rfl, h₃⟩ := carries.token h₂ (by rw [mientras]; rfl)
      obtain ⟨vs, h₄, condition⟩ := condition.carried carries h₃
      obtain ⟨rest', ends, h₅⟩ := carries.lineEnd h₄ ends
      exact ⟨rest', h₅, ⟨.doLoop haz body mientras condition ends⟩⟩

theorem IndentedBlock.carried (carries : Carries T) {ts us rest : List Token} {b : Block}
    {n : Nat} :
    IndentedBlock ts b rest n → T ts us →
      ∃ rest', T rest rest' ∧ Nonempty (IndentedBlock us b rest' n)
  | .intro newline more opened body nonempty closed, h => by
      obtain ⟨us, rfl, h₁⟩ := carries.opening h newline more opened
      obtain ⟨vs, more, h₂⟩ := carries.newlines h₁ more
      obtain ⟨vs, rfl, h₃⟩ := carries.token h₂ (by rw [opened]; rfl)
      obtain ⟨ws, h₄, ⟨body⟩⟩ := body.carried carries h₃
      obtain ⟨d, rest', closed, blank, h₅⟩ := carries.closing h₄ closed
      exact ⟨rest', h₅, ⟨.intro newline more opened (body.append blank) nonempty closed⟩⟩

theorem Statements.carried (carries : Carries T) {ts us rest : List Token} {b : Block} {n : Nat} :
    Statements ts b rest n → T ts us → ∃ rest', T rest rest' ∧ Nonempty (Statements us b rest' n)
  | .nil blank, h => by
      obtain ⟨rest', blank, h₁⟩ := carries.newlines h blank
      exact ⟨rest', h₁, ⟨.nil blank⟩⟩
  | .cons blank first more, h => by
      obtain ⟨vs, blank, h₁⟩ := carries.newlines h blank
      obtain ⟨vs, h₂, ⟨first⟩⟩ := first.carried carries h₁
      obtain ⟨rest', h₃, ⟨more⟩⟩ := more.carried carries h₂
      exact ⟨rest', h₃, ⟨.cons blank first more⟩⟩

end

theorem Derivation.carried (carries : Carries T) {ts us : List Token} {p : Program} {n : Nat} :
    Derivation ts p n → T ts us → Nonempty (Derivation us p n)
  | .intro body ends, h => by
      obtain ⟨rest', h₁, ⟨body⟩⟩ := body.carried carries h
      obtain ⟨t', ends, blank⟩ := carries.ending h₁ ends
      exact ⟨.intro (body.append blank) ends⟩

/-- Tokens that close blocks and the input, of the same kinds on both sides. -/
abbrev Closings : List Token → List Token → Prop :=
  List.Forall₂ fun t u => (t.kind = .dedent ∨ t.kind = .eof) ∧ u.kind = t.kind

/-- The second list has a newline in front of the tokens at its end that close blocks and the input.
Behind the newline only the closing tokens are left of both lists. -/
inductive Ending : List Token → List Token → Prop
  | closings {ts us} (closings : Closings ts us) : Ending ts us
  | newline {t ts n us} (newline : n.kind = .newline) (closings : Closings (t :: ts) us) :
      Ending (t :: ts) (n :: us)
  | token {t ts us} (more : Ending ts us) : Ending (t :: ts) (t :: us)

variable {t u n : Token} {ts us rest : List Token}

namespace Closings

theorem flip (h : Closings ts us) : Closings us ts := by
  induction h with
  | nil => exact .nil
  | cons head _ ih => exact .cons ⟨head.2 ▸ head.1, head.2.symm⟩ ih

theorem kind (h : Closings (t :: ts) us) : t.kind = .dedent ∨ t.kind = .eof := by
  cases h with
  | cons head _ => exact head.1

theorem kind_ne_newline (h : Closings (t :: ts) us) : t.kind ≠ .newline := by
  obtain kind | kind := h.kind <;> simp [kind]

theorem endsLine (h : Closings (t :: ts) us) : t.kind.endsLine := by
  obtain kind | kind := h.kind <;> rw [kind] <;> rfl

theorem exists_cons (h : Closings (t :: ts) us) :
    ∃ u us', us = u :: us' ∧ u.kind = t.kind ∧ Closings ts us' := by
  cases h with
  | cons head more => exact ⟨_, _, rfl, head.2, more⟩

/-- No newlines are among closing tokens. -/
theorem eq_of_newlines (h : Closings ts us) (newlines : Newlines ts rest) : rest = ts := by
  cases newlines with
  | none => rfl
  | cons newline _ => exact absurd newline h.kind_ne_newline

end Closings

namespace Ending

theorem cons_left (h : Ending (t :: ts) us) (notClosing : t.kind ≠ .dedent ∧ t.kind ≠ .eof) :
    ∃ us', us = t :: us' ∧ Ending ts us' := by
  cases h with
  | closings closings | newline _ closings => exact absurd closings.kind (not_or.2 notClosing)
  | token more => exact ⟨_, rfl, more⟩

/-- In front of a token of the kind that the shorter list begins with, the longer list has at most a
newline. -/
theorem newlines_left (h : Ending (t :: ts) us) :
    ∃ t' us', t'.kind = t.kind ∧ Newlines us (t' :: us') ∧ Ending ts us' := by
  cases h with
  | closings closings =>
      obtain ⟨u, us', rfl, kind, more⟩ := closings.exists_cons
      exact ⟨u, us', kind, .none, .closings more⟩
  | newline newline closings =>
      obtain ⟨u, us', rfl, kind, more⟩ := closings.exists_cons
      exact ⟨u, us', kind, .cons newline .none, .closings more⟩
  | token more => exact ⟨t, _, rfl, .none, more⟩

theorem carries : Carries Ending where
  token h inLine := h.cons_left ⟨fun kind => by simp [kind, Token.Kind.endsLine] at inLine,
    fun kind => by simp [kind, Token.Kind.endsLine] at inLine⟩
  newlines := by
    intro ts us rest h newlines
    induction newlines generalizing us with
    | none => exact ⟨us, .none, h⟩
    | cons newline _ ih =>
        obtain ⟨us', rfl, h₁⟩ := h.cons_left (by simp [newline])
        obtain ⟨rest', newlines, h₂⟩ := ih h₁
        exact ⟨rest', .cons newline newlines, h₂⟩
  lineEnd := by
    intro ts us rest h ends
    cases ends with
    | newline newline =>
        obtain ⟨us', rfl, h₁⟩ := h.cons_left (by simp [newline])
        exact ⟨us', .newline newline, h₁⟩
    | ahead closing =>
        cases h with
        | closings closings =>
            obtain ⟨u, us', rfl, -, -⟩ := closings.exists_cons
            exact ⟨_, .ahead closings.flip.kind, .closings closings⟩
        | newline newline closings => exact ⟨_, .newline newline, .closings closings⟩
        | token more => exact ⟨_, .ahead closing, .token more⟩
  opening h newline _ _ := h.cons_left (by simp [newline])
  closing := by
    intro t ts us h kind
    obtain ⟨t', us', kind', newlines, more⟩ := h.newlines_left
    exact ⟨t', us', kind'.trans kind, newlines, more⟩
  ending := by
    intro t us h kind
    obtain ⟨t', us', kind', newlines, more⟩ := h.newlines_left
    cases more with
    | closings closings =>
        cases closings
        exact ⟨t', kind'.trans kind, newlines⟩

theorem cons_right (h : Ending ts (u :: us)) (inLine : u.kind.endsLine = false) :
    ∃ ts', ts = u :: ts' ∧ Ending ts' us := by
  cases h with
  | closings closings => simp [closings.flip.endsLine] at inLine
  | newline newline _ => simp [newline, Token.Kind.endsLine] at inLine
  | token more => exact ⟨_, rfl, more⟩

theorem newline_right (h : Ending ts (u :: us)) (newline : u.kind = .newline) :
    Closings ts us ∨ ∃ ts', ts = u :: ts' ∧ Ending ts' us := by
  cases h with
  | closings closings => exact absurd newline closings.flip.kind_ne_newline
  | newline _ closings => exact .inl closings
  | token more => exact .inr ⟨_, rfl, more⟩

theorem closing_right (h : Ending ts (u :: us)) (closing : u.kind = .dedent ∨ u.kind = .eof) :
    ∃ t ts', ts = t :: ts' ∧ t.kind = u.kind ∧ Ending ts' us := by
  cases h with
  | closings closings =>
      obtain ⟨t, ts', rfl, kind, more⟩ := closings.flip.exists_cons
      exact ⟨t, ts', rfl, kind, .closings more.flip⟩
  | newline newline _ => simp [newline] at closing
  | token more => exact ⟨u, _, rfl, rfl, more⟩

/-- The newline that only the longer list has stands behind everything but closing tokens, so no
block begins behind it. -/
theorem carries_flip : Carries (fun us ts => Ending ts us) where
  token h inLine := h.cons_right inLine
  newlines := by
    intro us ts rest h newlines
    induction newlines generalizing ts with
    | none => exact ⟨ts, .none, h⟩
    | cons newline more ih =>
        obtain closings | ⟨ts', rfl, h₁⟩ := h.newline_right newline
        · obtain rfl := closings.flip.eq_of_newlines more
          exact ⟨ts, .none, .closings closings⟩
        · obtain ⟨rest', newlines, h₂⟩ := ih h₁
          exact ⟨rest', .cons newline newlines, h₂⟩
  lineEnd := by
    intro us ts rest h ends
    cases ends with
    | newline newline =>
        cases h with
        | closings closings => exact absurd newline closings.flip.kind_ne_newline
        | newline _ closings => exact ⟨_, .ahead closings.kind, .closings closings⟩
        | token more => exact ⟨_, .newline newline, more⟩
    | ahead closing =>
        obtain ⟨t, ts', rfl, kind, -⟩ := h.closing_right closing
        exact ⟨_, .ahead (kind ▸ closing), h⟩
  opening := by
    intro u us ts i rest h newline newlines opened
    obtain closings | more := h.newline_right newline
    · obtain rfl := closings.flip.eq_of_newlines newlines
      simpa [opened] using closings.flip.kind
    · exact more
  closing := by
    intro u us ts h kind
    obtain ⟨t, ts', rfl, kind', more⟩ := h.closing_right (.inl kind)
    exact ⟨t, ts', kind'.trans kind, .none, more⟩
  ending := by
    intro u ts h kind
    obtain ⟨t, ts', rfl, kind', more⟩ := h.closing_right (.inr kind)
    cases more with
    | closings closings =>
        cases closings
        exact ⟨t, kind'.trans kind, .none⟩

end Ending

/-- A newline in front of the closing tokens at the end changes no program. -/
theorem parse_of_ending (h : Ending ts us) (ended : Ended ts) (ended' : Ended us) (p : Program) :
    parse us = .ok p ↔ parse ts = .ok p := by
  have input := input_ofTokens ended
  have input' := input_ofTokens ended'
  rw [parse_eq_ok_iff, parse_eq_ok_iff]
  constructor
  · intro ⟨s', hok⟩
    obtain ⟨n, hn, ⟨d⟩⟩ := program_sound hok
    obtain ⟨d⟩ := (input' ▸ d).carried Ending.carries_flip h
    exact reads_program d hn input
  · intro ⟨s', hok⟩
    obtain ⟨n, hn, ⟨d⟩⟩ := program_sound hok
    obtain ⟨d⟩ := (input ▸ d).carried Ending.carries h
    exact reads_program d hn input'

end Grammar

end PasoFrontEnd
