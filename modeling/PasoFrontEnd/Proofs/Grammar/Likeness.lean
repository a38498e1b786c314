import Mathlib.Data.List.Forall2
import PasoFrontEnd.Proofs.Grammar.Soundness

/-!
Tokens that the rules of the grammar read alike. The rules decide by the kinds of tokens and by
whether a literal writes a value; what else a token holds they only put into trees and errors.
Behind a newline they pass over further newlines. So lists of tokens that are alike one by one, or
but for such newlines, end in trees or errors that are alike, whatever else is taken to be alike.
-/

namespace PasoFrontEnd.Grammar

universe u

/-- A likeness of tokens, and of the trees that are made of them. -/
structure Likeness where
  token : Token → Token → Prop
  expr : Expr → Expr → Prop
  stmt : Stmt → Stmt → Prop
  /-- Whether a literal that writes no value is like no literal that writes one. -/
  strict : Prop
  /-- Whether any number of newlines may follow a newline on either side. -/
  blankLines : Prop
  kind : ∀ {t u}, token t u → t.kind = u.kind
  written : ∀ {t u v}, token t u → literal? t = some (some v) →
    ∃ w, literal? u = some (some w) ∧ expr (.literal v t.location) (.literal w u.location)
  unwritten : ∀ {t u}, strict → token t u → literal? t = some none → literal? u = some none
  named : ∀ {t u}, token t u → t.kind = .identifier →
    expr (.named t.lexeme t.location) (.named u.lexeme u.location)
  negation : ∀ {t u e e'}, token t u → t.kind.isStructural = false → expr e e' →
    expr (.negation e t.location) (.negation e' u.location)
  operation : ∀ {t u op l l' r r'}, token t u → t.kind.isStructural = false → expr l l' →
    expr r r' → expr (.operation op l r t.location) (.operation op l' r' u.location)
  assignment : ∀ {t u e e'}, token t u → t.kind = .identifier → expr e e' →
    stmt (.assignment t.lexeme e t.location) (.assignment u.lexeme e' u.location)
  declaration : ∀ {t u i j type e e'}, token t u → t.kind.isStructural = false → token i j →
    i.kind = .identifier → Option.Rel expr e e' →
    stmt (.declaration type i.lexeme e t.location) (.declaration type j.lexeme e' u.location)
  print : ∀ {t u e e'}, token t u → t.kind.isStructural = false → expr e e' →
    stmt (.print e t.location) (.print e' u.location)
  branch : ∀ {t u c c' b b' o o'}, token t u → t.kind.isStructural = false → expr c c' →
    List.Forall₂ stmt b b' → Option.Rel (List.Forall₂ stmt) o o' →
    stmt (.branch c b o t.location) (.branch c' b' o' u.location)
  loop : ∀ {t u c c' b b'}, token t u → t.kind.isStructural = false → expr c c' →
    List.Forall₂ stmt b b' → stmt (.loop c b t.location) (.loop c' b' u.location)
  doLoop : ∀ {t u b b' c c'}, token t u → t.kind.isStructural = false → List.Forall₂ stmt b b' →
    expr c c' → stmt (.doLoop b c t.location) (.doLoop b' c' u.location)

namespace Likeness

variable {α β γ δ : Type} (L : Likeness)

/-- Token lists that are alike, in the middle of a line or behind a newline. -/
inductive Lists : (behind : Bool) → List Token → List Token → Prop
  | nil {behind} : Lists behind [] []
  | token {behind t u ts us} (alike : L.token t u) (inLine : t.kind ≠ .newline)
      (more : Lists false ts us) : Lists behind (t :: ts) (u :: us)
  | newline {behind t u ts us} (alike : L.token t u) (newline : t.kind = .newline)
      (more : Lists true ts us) : Lists behind (t :: ts) (u :: us)
  | left {t ts us} (blankLines : L.blankLines) (newline : t.kind = .newline)
      (more : Lists true ts us) : Lists true (t :: ts) us
  | right {u ts us} (blankLines : L.blankLines) (newline : u.kind = .newline)
      (more : Lists true ts us) : Lists true ts (u :: us)

structure States (behind : Bool) (s t : State) : Prop where
  tokens : L.Lists behind s.tokens t.tokens
  eof : L.token s.eof t.eof

/-- States with a token of a kind next. -/
structure StatesAt (kind : Token.Kind) (s t : State) : Prop where
  states : L.States false s t
  kind : s.next.kind = kind

/-- Errors of one cause at tokens that are alike. -/
inductive Errors : SyntaxError → SyntaxError → Prop
  | unexpectedToken {t u} (expected : List Token.Kind) (alike : L.token t u) :
      Errors ⟨.unexpectedToken expected t, t.location⟩ ⟨.unexpectedToken expected u, u.location⟩
  | invalidLiteral {t u} (alike : L.token t u) (unwritten : literal? t = some none) :
      Errors ⟨.invalidLiteral t.kind t.lexeme, t.location⟩
        ⟨.invalidLiteral u.kind u.lexeme, u.location⟩
  | nestingTooDeep {t u} (limit : Nat) (alike : L.token t u) :
      Errors ⟨.nestingTooDeep limit, t.location⟩ ⟨.nestingTooDeep limit, u.location⟩

/-- Runs that end alike. If literals without a value are like others, a run that meets one may be
like any run. -/
inductive Results (behind : Bool) (V : α → β → Prop) :
    EStateM.Result SyntaxError State α → EStateM.Result SyntaxError State β → Prop
  | ok {a b s t} (value : V a b) (states : L.States behind s t) :
      Results behind V (.ok a s) (.ok b t)
  | error {e e' s t} (errors : L.Errors e e') (states : L.States false s t) :
      Results behind V (.error e s) (.error e' t)
  | unwritten {kind lexeme loc s r} (lax : ¬ L.strict) :
      Results behind V (.error ⟨.invalidLiteral kind lexeme, loc⟩ s) r

/-- Rules that end alike when they are begun in states that are related. -/
def Runs (begin : State → State → Prop) (behind : Bool) (V : α → β → Prop) (x : Rule α)
    (x' : Rule β) : Prop :=
  ∀ ⦃s t : State⦄, begin s t → L.Results behind V (x s) (x' t)

/-- Rules that are run in the middle of a line and end there. -/
abbrev Rules (V : α → β → Prop) (x : Rule α) (x' : Rule β) : Prop :=
  L.Runs (L.States false) false V x x'

variable {L} {s t : State} {V : α → β → Prop} {W : γ → δ → Prop} {P : State → State → Prop}
  {behind between : Bool} {kind : Token.Kind}

theorem Lists.of_forall₂ {ts us : List Token} (h : List.Forall₂ L.token ts us) :
    L.Lists behind ts us := by
  induction h generalizing behind with
  | nil => exact .nil
  | @cons t u ts us alike _ ih =>
      by_cases newline : t.kind = .newline
      · exact .newline alike newline ih
      · exact .token alike newline ih

theorem Lists.forall₂ {ts us : List Token} (dense : ¬ L.blankLines) (h : L.Lists behind ts us) :
    List.Forall₂ L.token ts us := by
  induction h with
  | nil => exact .nil
  | token alike _ _ ih | newline alike _ _ ih => exact .cons alike ih
  | left blankLines _ _ _ | right blankLines _ _ _ => exact absurd blankLines dense

theorem Lists.loosen {ts us : List Token} (h : L.Lists false ts us) : L.Lists behind ts us := by
  cases h with
  | nil => exact .nil
  | token alike inLine more => exact .token alike inLine more
  | newline alike newline more => exact .newline alike newline more

theorem Lists.dropNewlines {ts us : List Token} (h : L.Lists behind ts us) :
    L.Lists false (ts.dropWhile (·.kind = .newline)) (us.dropWhile (·.kind = .newline)) := by
  induction h with
  | nil => exact .nil
  | @token _ t u _ _ alike inLine more _ =>
      have inLine' : u.kind ≠ .newline := L.kind alike ▸ inLine
      simpa [inLine, inLine'] using Lists.token alike inLine more
  | newline alike newline _ ih => simpa [newline, ← L.kind alike] using ih
  | left _ newline _ ih | right _ newline _ ih => simpa [newline] using ih

theorem States.loosen (h : L.States false s t) : L.States behind s t := ⟨h.tokens.loosen, h.eof⟩

theorem States.next (h : L.States false s t) : L.token s.next t.next := by
  obtain ⟨tokens, eof⟩ := h
  unfold State.next
  generalize s.tokens = ts at tokens ⊢
  generalize t.tokens = us at tokens ⊢
  cases tokens with
  | nil => exact eof
  | token alike _ _ | newline alike _ _ => exact alike

theorem States.skipNewlines (h : L.States behind s t) :
    L.States false s.skipNewlines t.skipNewlines :=
  ⟨h.tokens.dropNewlines, h.eof⟩

theorem StatesAt.advance (h : L.StatesAt kind s t) (inLine : kind ≠ .newline) :
    L.States false s.advance t.advance := by
  obtain ⟨⟨tokens, eof⟩, hkind⟩ := h
  refine ⟨?_, eof⟩
  simp only [State.next, State.advance] at hkind ⊢
  generalize s.tokens = ts at tokens hkind ⊢
  generalize t.tokens = us at tokens ⊢
  cases tokens with
  | nil => exact .nil
  | token _ _ more => exact more
  | newline _ newline _ => exact absurd (hkind.symm.trans newline) inLine

theorem StatesAt.advance_newline (h : L.StatesAt .newline s t) :
    L.States true s.advance t.advance := by
  obtain ⟨⟨tokens, eof⟩, hkind⟩ := h
  refine ⟨?_, eof⟩
  simp only [State.next, State.advance] at hkind ⊢
  generalize s.tokens = ts at tokens hkind ⊢
  generalize t.tokens = us at tokens ⊢
  cases tokens with
  | nil => exact .nil
  | token _ inLine _ => exact absurd hkind inLine
  | newline _ _ more => exact more

theorem Runs.bind {x : Rule α} {x' : Rule β} {f : α → Rule γ} {f' : β → Rule δ}
    (hx : L.Runs P between V x x')
    (hf : ∀ {a b}, V a b → L.Runs (L.States between) behind W (f a) (f' b)) :
    L.Runs P behind W (x >>= f) (x' >>= f') := by
  intro s t h
  change L.Results behind W (EStateM.bind x f s) (EStateM.bind x' f' t)
  have hrun := hx h
  unfold EStateM.bind
  generalize x s = r at hrun ⊢
  generalize x' t = r' at hrun ⊢
  cases hrun with
  | ok value states => exact hf value states
  | error errors states => exact .error errors states
  | unwritten lax => exact .unwritten lax

theorem Runs.at {x : Rule α} {x' : Rule β} (h : L.Runs (L.States false) behind V x x') :
    L.Runs (L.StatesAt kind) behind V x x' :=
  fun _ _ at' => h at'.states

theorem Runs.loosen {x : Rule α} {x' : Rule β} (h : L.Runs P false V x x') :
    L.Runs P behind V x x' := by
  intro s t begin
  have hrun := h begin
  generalize x s = r at hrun ⊢
  generalize x' t = r' at hrun ⊢
  cases hrun with
  | ok value states => exact .ok value states.loosen
  | error errors states => exact .error errors states
  | unwritten lax => exact .unwritten lax

theorem Runs.pure {a : α} {b : β} (h : V a b) :
    L.Runs (L.States behind) behind V (Pure.pure a) (Pure.pure b) :=
  fun _ _ states => .ok h states

/-- What is done about the next token is done with its kind in view. -/
theorem Runs.peek {f : Token → Rule γ} {f' : Token → Rule δ}
    (h : ∀ {t u}, L.token t u → L.Runs (L.StatesAt t.kind) behind W (f t) (f' u)) :
    L.Runs (L.States false) behind W (Grammar.peek >>= f) (Grammar.peek >>= f') :=
  fun _ _ states => h states.next ⟨states, rfl⟩

theorem Runs.advance (inLine : kind ≠ .newline) :
    L.Runs (L.StatesAt kind) false (· = ·) advance advance :=
  fun _ _ states => .ok rfl (states.advance inLine)

theorem Runs.advance_newline :
    L.Runs (L.StatesAt .newline) true (· = ·) Grammar.advance Grammar.advance :=
  fun _ _ states => .ok rfl states.advance_newline

theorem Runs.skipNewlines :
    L.Runs (L.States behind) false (· = ·) skipNewlines skipNewlines :=
  fun _ _ states => .ok rfl states.skipNewlines

/-- That a statement is begun is noted without a look at the tokens. -/
theorem Runs.noteBegun {t u : Token} {f : Unit → Rule γ} {f' : Unit → Rule δ}
    (h : L.Runs (L.StatesAt kind) behind W (f ()) (f' ())) :
    L.Runs (L.StatesAt kind) behind W (Grammar.noteBegun t >>= f) (Grammar.noteBegun u >>= f') :=
  fun _ _ at' => h ⟨⟨at'.states.tokens, at'.states.eof⟩, at'.kind⟩

theorem Runs.unexpected (expected : List Token.Kind) :
    L.Runs (L.States false) behind V (unexpected expected) (unexpected expected) :=
  fun _ _ states => .error (.unexpectedToken expected states.next) states

theorem Runs.tooDeep : L.Runs (L.States false) behind V tooDeep tooDeep :=
  fun _ _ states => .error (.nestingTooDeep maxNesting states.next) states

/-- Both rules answer with tokens of the kind that is asked for. -/
theorem Runs.expect (inLine : kind ≠ .newline) :
    L.Rules (fun t u => L.token t u ∧ t.kind = kind) (expect kind) (expect kind) := by
  refine .peek fun {t u} alike => ?_
  rw [L.kind alike]
  split
  case isTrue h =>
    exact .bind (.advance (h ▸ inLine)) fun _ => .pure ⟨alike, (L.kind alike).trans h⟩
  case isFalse => exact (Runs.unexpected [kind]).at

theorem Runs.expect_newline :
    L.Runs (L.States false) true (fun _ _ => True) (Grammar.expect .newline)
      (Grammar.expect .newline) := by
  refine .peek fun {t u} alike => ?_
  rw [L.kind alike]
  split
  case isTrue h => exact h ▸ .bind .advance_newline fun _ => .pure trivial
  case isFalse => exact (Runs.unexpected [.newline]).at

end Likeness

open Likeness

/-- Where the rule ends with a value it has read a token. -/
def Rule.Advances {α : Type} (rule : Rule α) : Prop :=
  ∀ ⦃s : State⦄ ⦃a : α⦄ ⦃s' : State⦄, rule s = .ok a s' → s'.left < s.left

theorem Rule.Sound.advances {α : Type} {rule : Rule α}
    {R : List Token → α → List Token → Nat → Sort u} {depth : Nat} (h : rule.Sound R depth)
    (shorter : ∀ {ts a rest n}, R ts a rest n → rest.length < ts.length) : rule.Advances := by
  intro s a s' hok
  obtain ⟨n, -, ⟨d⟩⟩ := h hok
  have := shorter d
  simp only [State.length_input] at this
  omega

theorem Rule.Sound.advances_expression {rule : Rule Expr} {rank depth : Nat}
    (h : rule.Sound (Expression rank) depth) : rule.Advances :=
  h.advances Expression.length_lt

/-- A statement is longer than nothing, and the newlines behind it are no part of what is to
come. -/
theorem Rule.Sound.advances_spaced {stmt : Rule Stmt} {depth : Nat}
    (h : stmt.Sound Statement depth) : (spaced stmt).Advances := by
  intro s a s' hok
  obtain ⟨s₁, hstmt, rfl⟩ := ok_of_spaced hok
  obtain ⟨n, -, ⟨first⟩⟩ := h hstmt
  have hlt := first.length_lt
  have hle := s₁.newlines_skipNewlines.length_le
  simp only [State.length_input] at hlt hle
  omega

variable {L : Likeness} {behind : Bool}

theorem literal?_eq_none_of_kind {t u : Token} (kind : t.kind = u.kind) (h : literal? t = none) :
    literal? u = none := by
  unfold literal? at *
  rw [kind] at h
  split at h <;> first | contradiction | rfl

theorem isStructural_of_literal? {t : Token} (h : literal? t ≠ none) :
    t.kind.isStructural = false := by
  unfold literal? at h
  split at h <;> simp_all [Token.Kind.isStructural]

theorem isStructural_kind (op : BinaryOp) : op.kind.isStructural = false := by
  cases op <;> rfl

theorem joinedFrom_alike {rank : Nat} {operand : Rule Expr} (ho : L.Rules L.expr operand operand)
    (advances : operand.Advances) {left left' : Expr} (hleft : L.expr left left') :
    L.Rules L.expr (joinedFrom rank operand left) (joinedFrom rank operand left') := by
  intro s t states
  induction hn : s.left using Nat.strongRecOn generalizing s t left left' with
  | _ n ih =>
      rw [joinedFrom, joinedFrom.eq_def rank operand left' t, L.kind states.next]
      cases hop : (BinaryOp.ofKind? t.next.kind).filter (·.rank = rank) with
      | none => exact .ok hleft states
      | some op =>
          have kind : s.next.kind = op.kind :=
            (L.kind states.next).trans
              (BinaryOp.kind_eq_of_ofKind? (Option.filter_eq_some_iff.1 hop).1)
          have inLine : op.kind ≠ .newline := by cases op <;> simp [BinaryOp.kind]
          have hrun := ho (StatesAt.advance ⟨states, kind⟩ inLine)
          have less {u : State} : u.advance.left ≤ u.left := Nat.sub_le _ _
          simp only
          cases hs : operand s.advance with
          | error e after =>
              rw [hs] at hrun
              generalize operand t.advance = r' at hrun ⊢
              cases hrun with
              | error errors states => exact .error errors states
              | unwritten lax => exact .unwritten lax
          | ok right after =>
              rw [hs] at hrun
              cases ht : operand t.advance with
              | error e' after' => rw [ht] at hrun; cases hrun
              | ok right' after' =>
                  rw [ht] at hrun
                  cases hrun with
                  | ok value states' =>
                      have structured : s.next.kind.isStructural = false :=
                        kind ▸ isStructural_kind op
                      have whole := @L.operation _ _ op _ _ _ _ states.next structured hleft value
                      have advanced := Nat.lt_of_lt_of_le (advances hs) less
                      have advanced' := Nat.lt_of_lt_of_le (advances ht) less
                      simp only [if_pos advanced, if_pos advanced']
                      exact ih _ (hn ▸ advanced) whole states' rfl

theorem operation_alike {operand : Rule Expr} {depth : Nat} (ho : L.Rules L.expr operand operand)
    (sound : operand.Sound (Expression 0) depth) (rank : Nat) :
    L.Rules L.expr (operation operand rank) (operation operand rank) := by
  induction rank with
  | zero => exact ho
  | succ rank ih =>
      exact .bind ih fun alike =>
        joinedFrom_alike ih (operation_sound sound rank).advances_expression alike

theorem unaryOver_alike {signed group : Rule Expr} (hs : L.Rules L.expr signed signed)
    (hg : L.Rules L.expr group group) :
    L.Rules L.expr (unaryOver signed group) (unaryOver signed group) := by
  refine .peek fun {t u} alike => ?_
  have kind := L.kind alike
  rw [kind]
  split
  case h_1 minus =>
    exact .bind (.advance (by simp [minus])) fun _ => .bind hs fun operand =>
      .pure (L.negation alike (by simp [kind, minus, Token.Kind.isStructural]) operand)
  case h_2 openParen =>
    exact .bind (.advance (by simp [openParen])) fun _ => .bind hg fun inner =>
      .bind (.expect (by simp)) fun _ => .pure inner
  case h_3 name =>
    exact .bind (.advance (by simp [name])) fun _ => .pure (L.named alike (kind.trans name))
  case h_4 =>
    cases hliteral : literal? t with
    | none =>
        rw [literal?_eq_none_of_kind kind hliteral]
        exact (Runs.unexpected _).at
    | some value? =>
        cases value? with
        | some value =>
            have structured := isStructural_of_literal? (t := t) (by simp [hliteral])
            obtain ⟨value', hliteral', same⟩ := L.written alike hliteral
            rw [hliteral']
            refine .bind (.advance ?_) fun _ => .pure same
            intro newline
            simp [kind, newline, Token.Kind.isStructural] at structured
        | none =>
            by_cases strict : L.strict
            · rw [L.unwritten strict alike hliteral]
              exact fun _ _ at' => .error (kind ▸ .invalidLiteral alike hliteral) at'.states
            · exact fun _ _ _ => .unwritten strict

theorem unary_alike (depth : Nat) : L.Rules L.expr (unary depth) (unary depth) := by
  induction depth with
  | zero => exact unaryOver_alike .tooDeep .tooDeep
  | succ depth ih => exact unaryOver_alike ih (operation_alike ih (unary_sound depth) loosest)

theorem expression_alike (depth : Nat) : L.Rules L.expr (expression depth) (expression depth) := by
  cases depth with
  | zero => exact .tooDeep
  | succ depth => exact operation_alike (unary_alike depth) (unary_sound depth) loosest

/-- A line may end behind its newline. -/
theorem lineEnd_alike : L.Runs (L.States false) true (· = ·) lineEnd lineEnd := by
  refine .peek fun alike => ?_
  rw [L.kind alike]
  split
  case h_1 newline => exact newline ▸ .advance_newline
  case h_2 => exact (Runs.pure rfl).loosen.at
  case h_3 => exact (Runs.pure rfl).loosen.at
  case h_4 => exact (Runs.unexpected _).at

section rules

variable {expr : Rule Expr} {body : Rule Block} {stmt : Rule Stmt}

theorem condition_alike (he : L.Rules L.expr expr expr) :
    L.Rules L.expr (condition expr) (condition expr) :=
  .bind (.expect (by simp)) fun _ => .bind he fun alike => .bind (.expect (by simp)) fun _ =>
    .pure alike

theorem block_alike (hb : L.Rules (List.Forall₂ L.stmt) body body) :
    L.Rules (List.Forall₂ L.stmt) (block body) (block body) :=
  .bind .expect_newline fun _ => .bind .skipNewlines fun _ => .bind (.expect (by simp)) fun _ => hb

theorem manyUntil_alike {α : Type} {V : α → α → Prop} {stop : Token.Kind → Bool} {rule : Rule α}
    (hr : L.Rules V rule rule) (advances : rule.Advances) :
    L.Rules (List.Forall₂ V) (manyUntil stop rule) (manyUntil stop rule) := by
  intro s t states
  induction hn : s.left using Nat.strongRecOn generalizing s t with
  | _ n ih =>
      rw [manyUntil, manyUntil.eq_def stop rule t, L.kind states.next]
      split
      case isTrue => exact .ok .nil states
      case isFalse =>
        have hrun := hr states
        cases hs : rule s with
        | error e after =>
            rw [hs] at hrun
            generalize rule t = r' at hrun ⊢
            cases hrun with
            | error errors states => exact .error errors states
            | unwritten lax => exact .unwritten lax
        | ok a s₁ =>
            rw [hs] at hrun
            cases ht : rule t with
            | error e' after' => rw [ht] at hrun; cases hrun
            | ok b t₁ =>
                rw [ht] at hrun
                cases hrun with
                | ok value states' =>
                    have advanced := advances hs
                    have hmore := ih _ (hn ▸ advanced) states' rfl
                    simp only [if_pos advanced, if_pos (advances ht)]
                    generalize manyUntil stop rule s₁ = r at hmore ⊢
                    generalize manyUntil stop rule t₁ = r' at hmore ⊢
                    cases hmore with
                    | ok values states => exact .ok (.cons value values) states
                    | error errors states => exact .error errors states
                    | unwritten lax => exact .unwritten lax

/-- A rule for statements that ends alike, each time behind a token that it has read. -/
structure Likeness.Statements (L : Likeness) (stmt : Rule Stmt) : Prop where
  alike : L.Runs (L.States false) true L.stmt stmt stmt
  advances : (spaced stmt).Advances

theorem statements_alike {stop : Token.Kind → Bool} (hs : L.Statements stmt) :
    L.Runs (L.States behind) false (List.Forall₂ L.stmt) (statements stop stmt)
      (statements stop stmt) :=
  .bind .skipNewlines fun _ =>
    manyUntil_alike (.bind hs.alike fun alike => .bind .skipNewlines fun _ => .pure alike)
      hs.advances

theorem blockBody_alike (hs : L.Statements stmt) :
    L.Rules (List.Forall₂ L.stmt) (blockBody stmt) (blockBody stmt) := by
  refine .bind (statements_alike hs) fun {b b'} alike => ?_
  have empty : b.isEmpty = b'.isEmpty := by cases alike <;> rfl
  rw [empty]
  split
  · exact .unexpected _
  · exact .bind (.expect (by simp)) fun _ => .pure alike

theorem otherwise?_alike (hb : L.Rules (List.Forall₂ L.stmt) body body) :
    L.Rules (Option.Rel (List.Forall₂ L.stmt)) (otherwise? body) (otherwise? body) := by
  have hother {kind : Token.Kind} (inLine : kind ≠ .newline) :
      L.Runs (L.StatesAt kind) false (Option.Rel (List.Forall₂ L.stmt)) _ _ :=
    .bind (.advance inLine) fun _ => .bind (block_alike hb) fun alike => .pure (.some alike)
  refine .peek fun alike => ?_
  rw [L.kind alike]
  split
  case h_1 siNo => exact hother (by simp [siNo])
  case h_2 deLoContrario => exact hother (by simp [deLoContrario])
  case h_3 => exact (Runs.pure .none).at

theorem initializer?_alike (he : L.Rules L.expr expr expr) :
    L.Rules (Option.Rel L.expr) (initializer? expr) (initializer? expr) := by
  refine .peek fun alike => ?_
  rw [L.kind alike]
  split
  case isTrue assign =>
    exact .bind (.advance (by simp [assign])) fun _ => .bind he fun alike => .pure (.some alike)
  case isFalse => exact (Runs.pure .none).at

theorem statementOver_alike (he : L.Rules L.expr expr expr)
    (hb : L.Rules (List.Forall₂ L.stmt) body body) :
    L.Runs (L.States false) true L.stmt (statementOver expr body) (statementOver expr body) := by
  have hc := condition_alike he
  have hblock := block_alike hb
  refine .peek fun {t u} alike => .noteBegun ?_
  have kind := L.kind alike
  have inLine {k : Token.Kind} (hk : u.kind = k) (structured : k.isStructural = false) :
      u.kind ≠ .newline ∧ t.kind.isStructural = false := by
    rw [kind, hk]
    exact ⟨fun newline => by simp [newline, Token.Kind.isStructural] at structured, structured⟩
  rw [kind]
  split
  case h_1 si =>
    obtain ⟨inLine, structured⟩ := inLine si rfl
    exact .bind (.advance inLine) fun _ => .bind hc fun c => .bind hblock fun b =>
      .bind (otherwise?_alike hb) fun o => Runs.loosen (.pure (L.branch alike structured c b o))
  case h_2 mientras =>
    obtain ⟨inLine, structured⟩ := inLine mientras rfl
    exact .bind (.advance inLine) fun _ => .bind hc fun c => .bind hblock fun b =>
      Runs.loosen (.pure (L.loop alike structured c b))
  case h_3 haz =>
    obtain ⟨inLine, structured⟩ := inLine haz rfl
    exact .bind (.advance inLine) fun _ => .bind hblock fun b => .bind (.expect (by simp)) fun _ =>
      .bind hc fun c => .bind lineEnd_alike fun _ => .pure (L.doLoop alike structured b c)
  case h_4 muestra =>
    obtain ⟨inLine, structured⟩ := inLine muestra rfl
    exact .bind (.advance inLine) fun _ => .bind he fun e => .bind lineEnd_alike fun _ =>
      .pure (L.print alike structured e)
  case h_5 name =>
    obtain ⟨inLine, -⟩ := inLine name rfl
    exact .bind (.advance inLine) fun _ => .bind (.expect (by simp)) fun _ => .bind he fun e =>
      .bind lineEnd_alike fun _ => .pure (L.assignment alike (kind.trans name) e)
  case h_6 typed =>
    obtain ⟨inLine, structured⟩ := inLine typed rfl
    exact .bind (.advance inLine) fun _ => .bind (.expect (by simp)) fun name =>
      .bind (initializer?_alike he) fun init => .bind lineEnd_alike fun _ =>
        .pure (L.declaration alike structured name.1 name.2 init)
  case h_7 => exact (Runs.unexpected _).at

end rules

theorem statement_alike (depth : Nat) : L.Statements (statement depth) := by
  induction depth with
  | zero =>
      exact ⟨statementOver_alike (expression_alike 0) .tooDeep, (statement_sound 0).advances_spaced⟩
  | succ depth ih =>
      exact ⟨statementOver_alike (expression_alike _) (blockBody_alike ih),
        (statement_sound _).advances_spaced⟩

theorem program_alike :
    L.Runs (L.States behind) false
      (fun p q : Program => List.Forall₂ L.stmt p.statements q.statements) program program := by
  unfold program
  exact .bind (statements_alike (statement_alike maxNesting)) fun alike => .pure alike

/-! Only the kinds of tokens count if every token is like one and the same token of its kind. -/

/-- A token of the kind; a number is zero. -/
def specimen (kind : Token.Kind) : Token := ⟨kind, "0", {}⟩

theorem literal?_specimen (kind : Token.Kind) : literal? (specimen kind) ≠ some none := by
  have integer : (Decimal.readInt64? "0").isSome := rfl
  have decimal : (Decimal.readFloat? "0").isSome := rfl
  unfold literal?
  split <;> simp only [specimen, ne_eq, Option.some.injEq, Option.map_eq_none_iff, reduceCtorEq,
    not_false_eq_true]
  case h_1 => exact fun h => by simp [h] at integer
  case h_2 => exact fun h => by simp [h] at decimal

def kindLikeness : Likeness where
  token t u := u = specimen t.kind
  expr _ _ := True
  stmt _ _ := True
  strict := False
  blankLines := False
  kind := by
    rintro t _ rfl
    rfl
  written := by
    rintro t _ v rfl hliteral
    cases hspecimen : literal? (specimen t.kind) with
    | none =>
        have kind : (specimen t.kind).kind = t.kind := rfl
        rw [literal?_eq_none_of_kind kind hspecimen] at hliteral
        contradiction
    | some value? =>
        cases value? with
        | none => exact absurd hspecimen (literal?_specimen t.kind)
        | some w => exact ⟨w, rfl, trivial⟩
  unwritten := False.elim
  named _ _ := trivial
  negation _ _ _ := trivial
  operation _ _ _ _ := trivial
  assignment _ _ _ := trivial
  declaration _ _ _ _ _ := trivial
  print _ _ _ := trivial
  branch _ _ _ _ _ := trivial
  loop _ _ _ _ := trivial
  doLoop _ _ _ _ := trivial

/-- The state with specimens in place of all tokens. -/
def State.specimens (s : State) : State where
  tokens := s.tokens.map (specimen ·.kind)
  eof := specimen s.eof.kind
  eof_kind := s.eof_kind
  kind_ne_eof := by
    intro u hu
    obtain ⟨t, ht, rfl⟩ := List.mem_map.1 hu
    exact s.kind_ne_eof t ht

theorem State.alike_specimens (s : State) : kindLikeness.States false s s.specimens where
  tokens := .of_forall₂ (List.forall₂_map_right_iff.2 (List.forall₂_same.2 fun _ _ => rfl))
  eof := rfl

theorem input_eq_map_of_alike {s t : State} (h : kindLikeness.States false s t) :
    t.input = s.input.map (specimen ·.kind) := by
  have tokens : t.tokens = s.tokens.map (specimen ·.kind) := by
    rw [← List.forall₂_eq_eq_eq, List.forall₂_map_right_iff]
    exact (h.tokens.forall₂ not_false).flip.imp fun _ _ h => h
  rw [State.input, State.input, List.map_append, tokens, h.eof]
  rfl

section specimens

variable {α : Type} {V : α → α → Prop} {x : Rule α} {s s' : State}

theorem ok_specimens (hx : kindLikeness.Rules V x x) {a : α} (h : x s = .ok a s') :
    ∃ b t, x s.specimens = .ok b t := by
  have hrun := hx s.alike_specimens
  rw [h] at hrun
  generalize x s.specimens = r at hrun ⊢
  cases hrun with
  | ok _ _ => exact ⟨_, _, rfl⟩

theorem refused_specimens (hx : kindLikeness.Rules V x x) {e : SyntaxError} (h : x s = .error e s')
    (refused : e.found?.isSome) :
    ∃ e' t, x s.specimens = .error e' t ∧ e'.found?.isSome ∧
      t.input = s'.input.map (specimen ·.kind) := by
  have hrun := hx s.alike_specimens
  rw [h] at hrun
  generalize x s.specimens = r at hrun ⊢
  cases hrun with
  | unwritten _ => contradiction
  | error errors states =>
      refine ⟨_, _, rfl, ?_, input_eq_map_of_alike states⟩
      cases errors with
      | unexpectedToken _ _ => rfl
      | invalidLiteral _ | nestingTooDeep _ _ => contradiction

end specimens

end PasoFrontEnd.Grammar
