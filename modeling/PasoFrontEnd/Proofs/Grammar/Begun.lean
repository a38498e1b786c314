import Mathlib.Data.List.Forall2
import PasoFrontEnd.Proofs.Grammar.Completeness
import PasoFrontEnd.Proofs.Tree.Listing
import PasoFrontEnd.Scan.Basic

/-!
What the log of a parse says about its program. A statement is noted before its first token is read,
so the tokens that statements were begun with come in the order of the text: each statement in front
of those in its blocks. Nothing but a statement is noted, and the statements that are noted in a
parse that succeeds are all in its program.
-/

namespace PasoFrontEnd.Grammar

/-- The token is one that such a statement begins with, and the statement stands where the token
does. -/
inductive Opens : Token → Stmt → Prop
  | assignment {t value} (name : t.kind = .identifier) :
      Opens t (.assignment t.lexeme value t.location)
  | declaration {t type name init} (typed : t.kind = .keyword (.typeName type)) :
      Opens t (.declaration type name init t.location)
  | print {t value} (muestra : t.kind = .keyword .muestra) : Opens t (.print value t.location)
  | branch {t c body otherwise} (si : t.kind = .keyword .si) :
      Opens t (.branch c body otherwise t.location)
  | loop {t c body} (mientras : t.kind = .keyword .mientras) : Opens t (.loop c body t.location)
  | doLoop {t body c} (haz : t.kind = .keyword .haz) : Opens t (.doLoop body c t.location)

/-- From one state to another some statements were begun, each with one of the tokens that were
read. -/
def Noted (ss : List Stmt) (s s' : State) : Prop :=
  ∃ firsts : List Token, List.Forall₂ Opens firsts ss ∧ s'.begun = firsts.reverse ++ s.begun ∧
    ∀ more : List Token, more.Sublist s'.tokens → (firsts ++ more).Sublist s.tokens

variable {s s₁ s' : State} {ss more : List Stmt}

theorem Noted.nothing (same : s'.begun = s.begun) (read : s'.tokens.Sublist s.tokens) :
    Noted [] s s' :=
  ⟨[], .nil, same, fun _ sub => sub.trans read⟩

theorem Noted.advance (s : State) : Noted [] s s.advance := .nothing rfl (List.tail_sublist _)

theorem Noted.skipNewlines (s : State) : Noted [] s s.skipNewlines :=
  .nothing rfl (List.dropWhile_sublist _)

theorem Noted.trans (h : Noted ss s s₁) (h' : Noted more s₁ s') : Noted (ss ++ more) s s' := by
  obtain ⟨firsts, opens, begun, stand⟩ := h
  obtain ⟨firsts', opens', begun', stand'⟩ := h'
  refine ⟨firsts ++ firsts', List.rel_append opens opens',
    by simp [begun', begun], fun us sub => ?_⟩
  rw [List.append_assoc]
  exact stand _ (stand' us sub)

namespace Rule

variable {α β : Type} {x : Rule α} {f : α → Rule β}

/-- The statements that the rule begins are the ones of its answer. -/
def Notes (x : Rule α) (post : α → List Stmt → Prop) : Prop :=
  ∀ ⦃s : State⦄ ⦃a : α⦄ ⦃s' : State⦄, x s = .ok a s' → ∃ ss, post a ss ∧ Noted ss s s'

/-- The rule begins no statement. -/
abbrev Quiet (x : Rule α) : Prop := Notes x fun _ ss => ss = []

variable {mid : α → List Stmt → Prop} {post : β → List Stmt → Prop}

theorem Notes.bind (hx : Notes x mid)
    (hf : ∀ a ss, mid a ss → Notes (f a) fun b more => post b (ss ++ more)) :
    Notes (x >>= f) post := by
  intro s b s' h
  obtain ⟨a, s₁, first, h⟩ := ok_of_bind h
  obtain ⟨ss, hmid, noted⟩ := hx first
  obtain ⟨more, hpost, noted'⟩ := hf a ss hmid h
  exact ⟨ss ++ more, hpost, noted.trans noted'⟩

theorem Quiet.bind (hx : Quiet x) (hf : ∀ a, Notes (f a) post) : Notes (x >>= f) post :=
  Notes.bind hx fun a _ none => none ▸ hf a

theorem Notes.pure {b : β} (h : post b []) : Notes (Pure.pure b) post := by
  intro s b' s' h'
  obtain ⟨rfl, rfl⟩ := ok_of_pure h'
  exact ⟨[], h, .nothing rfl (.refl _)⟩

theorem Notes.unexpected {expected : List Token.Kind} : Notes (Grammar.unexpected expected) post :=
  fun _ _ _ h => nomatch h

theorem Notes.tooDeep : Notes Grammar.tooDeep post :=
  fun _ _ _ h => nomatch h

theorem Quiet.peek : Quiet Grammar.peek := by
  intro s t s' h
  cases h
  exact ⟨[], rfl, .nothing rfl (.refl _)⟩

theorem Quiet.advance : Quiet Grammar.advance := by
  intro s _ s' h
  cases h
  exact ⟨[], rfl, .advance s⟩

theorem Quiet.skipNewlines : Quiet Grammar.skipNewlines := by
  intro s _ s' h
  cases h
  exact ⟨[], rfl, .skipNewlines s⟩

theorem Quiet.expect (kind : Token.Kind) : Quiet (Grammar.expect kind) := by
  refine Quiet.peek.bind fun t => ?_
  split
  · exact Quiet.advance.bind fun _ => .pure rfl
  · exact .unexpected

end Rule

open Rule

/-! Expressions. -/

section expressions

variable {expr operand : Rule Expr}

theorem joinedFrom_quiet (ho : operand.Quiet) {rank : Nat} {left e : Expr}
    (h : joinedFrom rank operand left s = .ok e s') : Noted [] s s' := by
  -- an operator and its operand
  have round {s after : State} {right : Expr} (hright : operand s.advance = .ok right after) :
      Noted [] s after := by
    obtain ⟨_, rfl, noted⟩ := ho hright
    exact (Noted.advance s).trans noted
  fun_induction joinedFrom rank operand left s with
  | case1 =>
      cases h
      exact .nothing rfl (.refl _)
  | case2 => contradiction
  | case3 left s op _ right after hright whole less ih => exact (round hright).trans (ih h)
  | case4 left s op _ right after hright =>
      obtain ⟨rfl, rfl⟩ := EStateM.Result.ok.inj h
      exact round hright

theorem operation_quiet (ho : operand.Quiet) (rank : Nat) : (operation operand rank).Quiet := by
  induction rank with
  | zero => exact ho
  | succ rank ih => exact Quiet.bind ih fun left _ _ _ h => ⟨[], rfl, joinedFrom_quiet ih h⟩

theorem unaryOver_quiet {signed group : Rule Expr} (hs : signed.Quiet) (hg : group.Quiet) :
    (unaryOver signed group).Quiet := by
  refine Quiet.peek.bind fun t => ?_
  split
  · exact Quiet.advance.bind fun _ => hs.bind fun _ => .pure rfl
  · exact Quiet.advance.bind fun _ => hg.bind fun _ => (Quiet.expect _).bind fun _ => .pure rfl
  · exact Quiet.advance.bind fun _ => .pure rfl
  · split
    · exact Quiet.advance.bind fun _ => .pure rfl
    · exact fun _ _ _ h => nomatch h
    · exact .unexpected

theorem unary_quiet (depth : Nat) : (unary depth).Quiet := by
  induction depth with
  | zero => exact unaryOver_quiet .tooDeep .tooDeep
  | succ depth ih => exact unaryOver_quiet ih (operation_quiet ih loosest)

theorem expression_quiet (depth : Nat) : (expression depth).Quiet := by
  cases depth with
  | zero => exact .tooDeep
  | succ depth => exact operation_quiet (unary_quiet depth) loosest

theorem lineEnd_quiet : lineEnd.Quiet := by
  refine Quiet.peek.bind fun t => ?_
  split
  · exact Quiet.advance
  · exact .pure rfl
  · exact .pure rfl
  · exact .unexpected

theorem condition_quiet (he : expr.Quiet) : (condition expr).Quiet :=
  (Quiet.expect _).bind fun _ => he.bind fun _ => (Quiet.expect _).bind fun _ => .pure rfl

theorem initializer?_quiet (he : expr.Quiet) : (initializer? expr).Quiet := by
  refine Quiet.peek.bind fun t => ?_
  split
  · exact Quiet.advance.bind fun _ => he.bind fun _ => .pure rfl
  · exact .pure rfl

end expressions

/-! Statements and blocks. -/

/-- The statements of a block are begun in turn, each in front of those in its own blocks. -/
abbrev NotesBlock (rule : Rule Block) : Prop := rule.Notes fun b ss => ss = Block.preorder b

abbrev NotesStatement (rule : Rule Stmt) : Prop := rule.Notes fun a ss => ss = a.preorder

section statements

variable {expr : Rule Expr} {stmt : Rule Stmt} {body : Rule Block}

theorem manyUntil_noted (hs : NotesStatement stmt) {stop : Token.Kind → Bool} {b : Block}
    (h : manyUntil stop (spaced stmt) s = .ok b s') : Noted (Block.preorder b) s s' := by
  have round {s after : State} {a : Stmt} (hfirst : spaced stmt s = .ok a after) :
      Noted a.preorder s after := by
    obtain ⟨s₁, hstmt, rfl⟩ := ok_of_spaced hfirst
    obtain ⟨_, rfl, noted⟩ := hs hstmt
    simpa using noted.trans (.skipNewlines s₁)
  fun_induction manyUntil stop (spaced stmt) s generalizing b s' with
  | case1 =>
      cases h
      exact .nothing rfl (.refl _)
  | case2 | case3 => contradiction
  | case4 s _ a after hfirst less more last hmore ih =>
      cases h
      exact (round hfirst).trans (ih hmore)
  | case5 s _ a after hfirst notLess =>
      -- a round that reads nothing is the last one, and its statement is in the answer too
      cases h
      simpa [Block.preorder] using round hfirst

theorem statements_noted (hs : NotesStatement stmt) (stop : Token.Kind → Bool) :
    NotesBlock (statements stop stmt) :=
  Quiet.skipNewlines.bind fun _ _ b _ h => ⟨Block.preorder b, rfl, manyUntil_noted hs h⟩

theorem blockBody_noted (hs : NotesStatement stmt) : NotesBlock (blockBody stmt) := by
  refine (statements_noted hs _).bind ?_
  rintro b _ rfl
  split
  · exact .unexpected
  · exact (Quiet.expect _).bind fun _ => .pure (List.append_nil _)

theorem block_noted (hb : NotesBlock body) : NotesBlock (block body) :=
  (Quiet.expect _).bind fun _ => Quiet.skipNewlines.bind fun _ => (Quiet.expect _).bind fun _ => hb

theorem otherwise?_noted (hb : NotesBlock body) :
    (otherwise? body).Notes fun other ss => ss = other.elim [] Block.preorder := by
  have other : Rule.Notes (advance >>= fun _ => block body >>= fun b => pure (some b))
      fun other ss => ss = other.elim [] Block.preorder := by
    refine Quiet.advance.bind fun _ => (block_noted hb).bind ?_
    rintro b _ rfl
    exact .pure (List.append_nil _)
  refine Quiet.peek.bind fun t => ?_
  split
  · exact other
  · exact other
  · exact .pure rfl

/-- The rest of a statement that the given token begins: all that it notes is in the blocks. -/
abbrev Completes (t : Token) (rule : Rule Stmt) : Prop :=
  rule.Notes fun a ss => Opens t a ∧ a.preorder = a :: ss

theorem noted_of_begun {rule : Rule Stmt} {a : Stmt} (hr : Completes s.next rule)
    (kind : s.next.kind ≠ .eof)
    (h : (advance >>= fun _ => rule) { s with begun := s.next :: s.begun } = .ok a s') :
    ∃ ss, ss = a.preorder ∧ Noted ss s s' := by
  replace h := Rule.ok_of_bind_of_ok (x := advance) rfl h
  obtain ⟨ss, ⟨opens, listed⟩, firsts, rest, begun, stand⟩ := hr h
  -- the token is noted while it still comes next, so it stands in front of all that the rest reads
  have head : s.tokens = s.next :: s.advance.tokens := by
    have input := State.input_of_next_ne_eof kind
    exact List.append_cancel_right input
  refine ⟨_, listed.symm, s.next :: firsts, .cons opens rest, by simp [begun, State.advance],
    fun more sub => ?_⟩
  rw [head, List.cons_append]
  exact (stand more sub).cons_cons _

theorem statementOver_noted (he : expr.Quiet) (hb : NotesBlock body) :
    NotesStatement (statementOver expr body) := by
  intro s a s' h
  have hc := condition_quiet he
  have hblock := block_noted hb
  replace h := Rule.ok_of_bind_of_ok rfl (Rule.ok_of_bind_of_ok rfl h)
  obtain ⟨chosen, hchosen, h⟩ := Rule.eq_of_ok h
  split at hchosen <;> subst hchosen
  case h_1 si =>
    refine noted_of_begun (hc.bind fun c => hblock.bind ?_) (by simp [si]) h
    rintro first _ rfl
    refine (otherwise?_noted hb).bind ?_
    rintro other _ rfl
    exact .pure ⟨.branch si, by cases other <;> simp [Stmt.preorder]⟩
  case h_2 mientras =>
    refine noted_of_begun (hc.bind fun c => hblock.bind ?_) (by simp [mientras]) h
    rintro repeated _ rfl
    exact .pure ⟨.loop mientras, by simp [Stmt.preorder]⟩
  case h_3 haz =>
    refine noted_of_begun (hblock.bind ?_) (by simp [haz]) h
    rintro repeated _ rfl
    exact (Quiet.expect _).bind fun _ => hc.bind fun c => lineEnd_quiet.bind fun _ =>
      .pure ⟨.doLoop haz, by simp [Stmt.preorder]⟩
  case h_4 muestra =>
    exact noted_of_begun (he.bind fun value => lineEnd_quiet.bind fun _ =>
      .pure ⟨.print muestra, rfl⟩) (by simp [muestra]) h
  case h_5 name =>
    exact noted_of_begun ((Quiet.expect _).bind fun _ => he.bind fun value =>
      lineEnd_quiet.bind fun _ => .pure ⟨.assignment name, rfl⟩) (by simp [name]) h
  case h_6 typed =>
    exact noted_of_begun ((Quiet.expect _).bind fun _ => (initializer?_quiet he).bind fun init =>
      lineEnd_quiet.bind fun _ => .pure ⟨.declaration typed, rfl⟩) (by simp [typed]) h
  case h_7 => contradiction

theorem statement_noted (depth : Nat) : NotesStatement (statement depth) := by
  induction depth with
  | zero => exact statementOver_noted (expression_quiet 0) .tooDeep
  | succ depth ih => exact statementOver_noted (expression_quiet _) (blockBody_noted ih)

end statements

/-- What is logged where a statement is begun. -/
def begunRecord (t : Token) : Log.Record :=
  ⟨.trace, .statements,
    "parsing statement at " ++ t.location.text ++ " starting with " ++ t.describe⟩

theorem begunRecords_eq (s : State) : log.begunRecords s = s.begun.reverse.map begunRecord := rfl

/-- The log of a parse that succeeds lists the statements of the program, each in front of those in
its blocks, by the tokens that they begin with, and then their number at the top. Without a program
nothing is logged but where statements were begun. -/
theorem parseLog_lists (tokens : List Token) :
    (∀ p, parse tokens = .ok p →
      ∃ firsts : List Token, firsts.Sublist tokens ∧
        List.Forall₂ Opens firsts (Block.preorder p.statements) ∧
        parseLog tokens = firsts.map begunRecord ++
          [⟨.debug, .parser, "parsed program with " ++ toString p.statements.length ++
            " top-level statement(s)"⟩]) ∧
      ∀ e, parse tokens = .error e →
        ∀ r ∈ parseLog tokens, r.level = .trace ∧ r.origin = .statements := by
  constructor
  · intro p parsed
    obtain ⟨s', hok⟩ := parse_eq_ok_iff.1 parsed
    obtain ⟨body, s₁, hbody, hp⟩ := Rule.ok_of_bind hok
    obtain ⟨rfl, rfl⟩ := Rule.ok_of_pure hp
    obtain ⟨_, rfl, firsts, opens, begun, stand⟩ :=
      statements_noted (statement_noted maxNesting) _ hbody
    have sub : firsts.Sublist (State.ofTokens tokens).tokens := by
      simpa using stand [] (List.nil_sublist _)
    refine ⟨firsts, sub.trans (State.tokens_ofTokens_sublist tokens), opens, ?_⟩
    have all : s₁.begun.reverse = firsts := by simp [begun, State.ofTokens]
    rw [parseLog, hok, log, begunRecords_eq, all]
  · intro e failed r hr
    cases ran : program (.ofTokens tokens) with
    | ok p s' => simp [parse, ran] at failed
    | error e s' =>
        rw [parseLog, ran, log, begunRecords_eq] at hr
        obtain ⟨t, -, rfl⟩ := List.mem_map.1 hr
        exact ⟨rfl, rfl⟩

/-- A branch with a loop in its first half. -/
def branchAroundLoop : String := "si (a)\n\thaz\n\t\tb = 1\n\tmientras (c)\nsi no\n\tmuestra d\n"

theorem parseLog_lists_branchAroundLoop :
    let tokens := (Scan.ofString branchAroundLoop {}).tokens
    parseLog tokens = [
      ⟨.trace, .statements, "parsing statement at line 1, column 1 starting with 'si'"⟩,
      ⟨.trace, .statements, "parsing statement at line 2, column 2 starting with 'haz'"⟩,
      ⟨.trace, .statements, "parsing statement at line 3, column 3 starting with identifier 'b'"⟩,
      ⟨.trace, .statements, "parsing statement at line 6, column 2 starting with 'muestra'"⟩,
      ⟨.debug, .parser, "parsed program with 1 top-level statement(s)"⟩] ∧
      (∃ p, parse tokens = .ok p ∧
        ∃ firsts : List Token, firsts.Sublist tokens ∧
          List.Forall₂ Opens firsts (Block.preorder p.statements) ∧
          parseLog tokens = firsts.map begunRecord ++
            [⟨.debug, .parser, "parsed program with " ++ toString p.statements.length ++
              " top-level statement(s)"⟩]) ∧
      let cut := tokens.take 6
      ∃ e, parse cut = .error e ∧ ∀ r ∈ parseLog cut, r.level = .trace ∧
        r.origin = .statements := by
  intro tokens
  refine ⟨by decide +kernel, ?_, ?_⟩
  · have accepted : (parse tokens).toBool = true := by decide +kernel
    cases parsed : parse tokens with
    | error e => simp [parsed, Except.toBool] at accepted
    | ok p => exact ⟨p, rfl, (parseLog_lists tokens).1 p parsed⟩
  · intro cut
    have refused : (parse cut).toBool = false := by decide +kernel
    cases parsed : parse cut with
    | ok p => simp [parsed, Except.toBool] at refused
    | error e => exact ⟨e, rfl, (parseLog_lists cut).2 e parsed⟩

end PasoFrontEnd.Grammar
