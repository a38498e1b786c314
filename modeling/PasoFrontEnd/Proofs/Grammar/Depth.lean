import PasoFrontEnd.Proofs.Grammar.Calls
import PasoFrontEnd.Proofs.Grammar.Precedence

/-!
What encloses the tokens of a program: blocks, groups and signs, and how many of them parsing
allows. The nesting in front of a token is told from the kinds of the tokens before it. Each rule
takes it from what it is in front of the tokens that the rule reads to what it is behind them, and
the first token with too much around it is the one that parsing stops at. An expression counts as
one level more, so a program has room for one group or sign less than for blocks.
-/

namespace PasoFrontEnd.Grammar

/-- What can enclose a token in an expression. -/
inductive Mark where
  | group
  | sign
deriving DecidableEq, Repr

/-- What encloses the next token. -/
structure Nesting where
  /-- How many blocks are open. -/
  blocks : Nat := 0
  /-- The open groups of the expression here, and the signs whose operand has not ended, innermost
  first; `none` outside expressions. The parentheses of a condition are no group. -/
  marks : Option (List Mark) := none
  /-- Whether an operand ends here, so that a minus is an operator and no sign. -/
  operand : Bool := false
deriving DecidableEq, Repr

namespace Nesting

/-- The beginning of a line inside some blocks. -/
def line (blocks : Nat) : Nesting := ⟨blocks, none, false⟩

/-- Signs end with their operand. -/
def unsigned (marks : List Mark) : List Mark := marks.dropWhile (· = .sign)

/-- What is open behind the end of a group. Where no group is open, it is a condition that ends. -/
def outside? (marks : List Mark) : Option (List Mark) :=
  match unsigned marks with
  | [] => none
  | _ :: outer => some (unsigned outer)

/-- The nesting behind a token of the given kind. -/
def read (n : Nesting) : Token.Kind → Nesting
  | .indent => line (n.blocks + 1)
  | .dedent => line (n.blocks - 1)
  | .newline => line n.blocks
  | .symbol .assign | .keyword .muestra => ⟨n.blocks, some [], false⟩
  | .symbol .openParen => ⟨n.blocks, some (n.marks.elim [] (.group :: ·)), false⟩
  | .symbol .closeParen => ⟨n.blocks, n.marks.bind outside?, true⟩
  | .symbol .minus => ⟨n.blocks, if n.operand then n.marks else n.marks.map (.sign :: ·), false⟩
  | kind => ⟨n.blocks, if endsOperand kind then n.marks.map unsigned else n.marks, endsOperand kind⟩

/-- The nesting behind several tokens. -/
def reads (n : Nesting) (ts : List Token) : Nesting := ts.foldl (fun n t => n.read t.kind) n

/-- The nesting behind the tokens that a text begins with. -/
def behind (ts : List Token) : Nesting := reads {} ts

def inExpression (n : Nesting) : Bool := n.marks.isSome

/-- How many blocks, groups and signs enclose the next token. -/
def levels (n : Nesting) : Nat := n.blocks + (n.marks.getD []).length

/-- How many levels of nesting parsing has open at the next token: an expression takes one of its
own. -/
def depth (n : Nesting) : Nat := n.levels + n.inExpression.toNat

/-- None of the tokens has more around it than the limit, when it is counted in the given way. -/
def Allowed (count : Nesting → Nat) : Nesting → List Token → Prop
  | _, [] => True
  | n, t :: ts => count n ≤ maxNesting ∧ Allowed count (n.read t.kind) ts

instance decidableAllowed (count : Nesting → Nat) :
    (n : Nesting) → (ts : List Token) → Decidable (Allowed count n ts)
  | _, [] => .isTrue trivial
  | n, t :: ts =>
    have := decidableAllowed count (n.read t.kind) ts
    inferInstanceAs (Decidable (count n ≤ maxNesting ∧ Allowed count (n.read t.kind) ts))

abbrev Shallow : Nesting → List Token → Prop := Allowed depth

variable {count : Nesting → Nat} {n : Nesting} {ts us : List Token}

theorem reads_cons {t : Token} : n.reads (t :: ts) = (n.read t.kind).reads ts := rfl

theorem reads_append : n.reads (ts ++ us) = (n.reads ts).reads us := List.foldl_append

theorem allowed_append :
    Allowed count n (ts ++ us) ↔ Allowed count n ts ∧ Allowed count (n.reads ts) us := by
  induction ts generalizing n with
  | nil => simp [Allowed, reads]
  | cons t ts ih => rw [List.cons_append, Allowed, Allowed, ih, and_assoc, reads_cons]

theorem Allowed.le {front back : List Token} {t : Token}
    (h : Allowed count n (front ++ t :: back)) :
    count (n.reads front) ≤ maxNesting :=
  (allowed_append.1 h).2.1

@[simp] theorem depth_line (blocks : Nat) : (line blocks).depth = blocks := rfl

@[simp] theorem depth_value (blocks : Nat) (marks : List Mark) (operand : Bool) :
    depth ⟨blocks, some marks, operand⟩ = blocks + marks.length + 1 := rfl

end Nesting

open Nesting

namespace Rule

variable {α β : Type}

/-- A refusal in front of the next token, and whether it is for what encloses that token. -/
inductive Refused (n : Nesting) (e : SyntaxError) (s : State) : Prop
  | deep (tooDeep : n.depth = maxNesting + 1)
      (refused : e = ⟨.nestingTooDeep maxNesting, s.next.location⟩)
  | other (shallow : n.depth ≤ maxNesting) (refused : ∀ limit, e.cause ≠ .nestingTooDeep limit)

/-- The end of a run on some tokens: none of those that were read has too much around it, and the
nesting behind them is as it should be. -/
def Tracked (n : Nesting) (post : Nesting → State → Prop) (ts : List Token) :
    EStateM.Result SyntaxError State α → Prop
  | .ok _ s => ∃ span, ts = span ++ s.input ∧ n.Shallow span ∧ post (n.reads span) s
  | .error e s => ∃ front, ts = front ++ s.input ∧ n.Shallow front ∧ Refused (n.reads front) e s

/-- The nesting goes along with the rule. -/
def Tracks (n : Nesting) (post : Nesting → State → Prop) (x : Rule α) (s : State) : Prop :=
  Tracked n post s.input (x s)

/-- The rule leads from one nesting to another. -/
abbrev LeadsTo (n n' : Nesting) (x : Rule α) (s : State) : Prop := Tracks n (fun m _ => m = n') x s

variable {n n' : Nesting} {mid post : Nesting → State → Prop} {s : State} {ts span : List Token}
  {x : Rule α} {f : α → Rule β}

/-- A run behind tokens that were read before it. -/
theorem Tracked.behind {r : EStateM.Result SyntaxError State α}
    (h : Tracked (n.reads span) post ts r) (shallow : n.Shallow span) :
    Tracked n post (span ++ ts) r := by
  cases r with
  | ok a s =>
      obtain ⟨more, rfl, inner, hpost⟩ := h
      exact ⟨span ++ more, (List.append_assoc ..).symm, allowed_append.2 ⟨shallow, inner⟩,
        reads_append ▸ hpost⟩
  | error e s =>
      obtain ⟨front, rfl, inner, refused⟩ := h
      exact ⟨span ++ front, (List.append_assoc ..).symm, allowed_append.2 ⟨shallow, inner⟩,
        reads_append ▸ refused⟩

theorem Tracks.tracked {r : EStateM.Result SyntaxError State α} (h : Tracks n post x s)
    (hs : x s = r) :
    Tracked n post s.input r :=
  hs ▸ h

/-- Two rules in a row: the second one takes the nesting from where the first one leaves it. -/
theorem Tracks.andThen (hx : Tracks n mid x s)
    (hf : ∀ a s₁ n₁, mid n₁ s₁ → Tracks n₁ post (f a) s₁) : Tracks n post (x >>= f) s := by
  unfold Tracks
  cases hs : x s with
  | ok a s₁ =>
      obtain ⟨span, hinput, shallow, hmid⟩ := hx.tracked hs
      rw [bind_of_ok hs, hinput]
      exact (hf a s₁ _ hmid).behind shallow
  | error e s₁ =>
      rw [bind_of_error hs]
      exact hx.tracked hs

theorem Tracks.bind (hx : LeadsTo n n' x s) (hf : ∀ a s₁, Tracks n' post (f a) s₁) :
    Tracks n post (x >>= f) s :=
  hx.andThen fun a s₁ _ same => same ▸ hf a s₁

theorem Tracks.pure {a : α} (h : post n s) : Tracks n post (Pure.pure a) s :=
  ⟨[], rfl, trivial, h⟩

theorem Tracks.map {f : α → β} (h : Tracks n post x s) :
    Tracks n post (x >>= fun a => Pure.pure (f a)) s :=
  h.andThen fun _ _ _ => .pure

theorem Tracks.mono (h : Tracks n mid x s) (imp : ∀ {n₁ s₁}, mid n₁ s₁ → post n₁ s₁) :
    Tracks n post x s := by
  unfold Tracks
  cases hs : x s with
  | ok a s₁ =>
      obtain ⟨span, hinput, shallow, hmid⟩ := h.tracked hs
      exact ⟨span, hinput, shallow, imp hmid⟩
  | error e s₁ => exact h.tracked hs

theorem Tracks.peek {f : Token → Rule α} (h : Tracks n post (f s.next) s) :
    Tracks n post (Grammar.peek >>= f) s :=
  h

theorem Tracks.noteBegun {t : Token} {f : Unit → Rule α}
    (h : Tracks n post (f ()) { s with begun := t :: s.begun }) :
    Tracks n post (Grammar.noteBegun t >>= f) s :=
  h

theorem Tracks.advance {kind : Token.Kind} (h : s.next.kind = kind) (hk : kind ≠ .eof)
    (shallow : n.depth ≤ maxNesting) : LeadsTo n (n.read kind) Grammar.advance s := by
  subst h
  exact ⟨[s.next], State.input_of_next_ne_eof hk, ⟨shallow, trivial⟩, rfl⟩

theorem Tracks.of_error {e : SyntaxError} {s₁ : State} (h : x s = .error e s₁)
    (unread : s₁.input = s.input) (refused : Refused n e s₁) : Tracks n post x s := by
  unfold Tracks
  rw [h]
  exact ⟨[], unread.symm, trivial, refused⟩

theorem Tracks.unexpected {expected : List Token.Kind} (shallow : n.depth ≤ maxNesting) :
    Tracks n post (Grammar.unexpected expected : Rule α) s :=
  .of_error rfl rfl (.other shallow (by simp))

theorem Tracks.tooDeep (deep : n.depth = maxNesting + 1) :
    Tracks n post (Grammar.tooDeep : Rule α) s :=
  .of_error rfl rfl (.deep deep rfl)

theorem Tracks.expect {kind : Token.Kind} (hk : kind ≠ .eof) (shallow : n.depth ≤ maxNesting) :
    LeadsTo n (n.read kind) (Grammar.expect kind) s := by
  refine .peek ?_
  split
  case isTrue h => exact .map (.advance h hk shallow)
  case isFalse => exact .unexpected shallow

/-- Blank lines change nothing at the beginning of a line. -/
theorem Tracks.skipNewlines {blocks : Nat} (shallow : blocks ≤ maxNesting) :
    LeadsTo (line blocks) (line blocks) Grammar.skipNewlines s := by
  have blank (ts : List Token) (newlines : ∀ t ∈ ts, t.kind = .newline) :
      (line blocks).Shallow ts ∧ (line blocks).reads ts = line blocks := by
    induction ts with
    | nil => exact ⟨trivial, rfl⟩
    | cons t ts ih =>
        have same : (line blocks).read t.kind = line blocks := by rw [newlines t (by simp)]; rfl
        obtain ⟨inner, back⟩ := ih fun u hu => newlines u (by simp [hu])
        refine ⟨⟨shallow, ?_⟩, ?_⟩
        · rwa [same]
        · rwa [reads_cons, same]
  have whole := s.tokens.takeWhile_append_dropWhile (p := (·.kind = .newline))
  have newlines : ∀ t ∈ s.tokens.takeWhile (·.kind = .newline), t.kind = .newline := by
    intro t ht
    simpa using List.all_eq_true.1 List.all_takeWhile t ht
  obtain ⟨inner, back⟩ := blank _ newlines
  refine ⟨s.tokens.takeWhile (·.kind = .newline), ?_, inner, back⟩
  change s.tokens ++ [s.eof] = _ ++ (s.tokens.dropWhile (·.kind = .newline) ++ [s.eof])
  rw [← List.append_assoc, whole]

end Rule

open Rule

section expressions

variable {blocks : Nat} {marks : List Mark}

/-- An operand ends here, and it had room. -/
def OperandEnds (blocks : Nat) (marks : List Mark) (n : Nesting) (_ : State) : Prop :=
  n = ⟨blocks, some marks, true⟩ ∧ blocks + marks.length < maxNesting

theorem read_operator (op : BinaryOp) :
    read ⟨blocks, some marks, true⟩ op.kind = ⟨blocks, some marks, false⟩ := by
  cases op <;> rfl

theorem read_of_writes {n : Nesting} {t : Token} {value : Literal} (h : Writes t value) :
    n.read t.kind = ⟨n.blocks, n.marks.map unsigned, true⟩ := by
  cases h with
  | integer kind _ | decimal kind _ | text kind | verdadero kind | falso kind | nulo kind =>
      rw [kind]
      rfl

theorem length_unsigned_le (marks : List Mark) : (unsigned marks).length ≤ marks.length :=
  (List.dropWhile_sublist _).length_le

/-- Behind an operand, further operators of one rank and their operands change nothing. -/
theorem joinedFrom_tracks {operand : Rule Expr} {rank : Nat}
    (shallow : blocks + marks.length < maxNesting)
    (ho : ∀ s, Tracks ⟨blocks, some marks, false⟩ (OperandEnds blocks marks) operand s)
    (left : Expr) (s : State) :
    Tracks ⟨blocks, some marks, true⟩ (OperandEnds blocks marks)
      (joinedFrom rank operand left) s := by
  have round {s : State} {op : BinaryOp}
      (hop : (BinaryOp.ofKind? s.next.kind).filter (·.rank = rank) = some op) :
      Tracked ⟨blocks, some marks, true⟩ (OperandEnds blocks marks) s.input
          (operand s.advance) := by
    have kind := BinaryOp.kind_eq_of_ofKind? (Option.filter_eq_some_iff.1 hop).1
    have same : reads ⟨blocks, some marks, true⟩ [s.next] = ⟨blocks, some marks, false⟩ := by
      rw [reads_cons, kind, read_operator]
      rfl
    rw [State.input_of_next_ne_eof (kind ▸ kind_ne_eof op), ← List.singleton_append]
    refine Tracked.behind ?_ ⟨shallow, trivial⟩
    rw [same]
    exact ho s.advance
  unfold Tracks
  fun_induction joinedFrom rank operand left s with
  | case1 left s => exact ⟨[], rfl, trivial, rfl, shallow⟩
  | case2 left s op hop e after hright => exact hright ▸ round hop
  | case3 left s op hop right after hright whole less ih =>
      have first := round hop
      rw [hright] at first
      obtain ⟨span, hinput, inner, back, -⟩ := first
      rw [hinput]
      refine Tracked.behind ?_ inner
      rw [back]
      exact ih
  | case4 left s op hop right after hright =>
      have first := round hop
      rw [hright] at first
      exact first

theorem operation_tracks {operand : Rule Expr} (shallow : blocks + marks.length < maxNesting)
    (ho : ∀ s, Tracks ⟨blocks, some marks, false⟩ (OperandEnds blocks marks) operand s) (rank : Nat)
    (s : State) :
    Tracks ⟨blocks, some marks, false⟩ (OperandEnds blocks marks) (operation operand rank) s := by
  induction rank generalizing s with
  | zero => exact ho s
  | succ rank ih =>
      refine .andThen (ih s) ?_
      rintro left s _ ⟨rfl, -⟩
      exact joinedFrom_tracks shallow ih left s

theorem unaryOver_tracks {signed group : Rule Expr} (shallow : blocks + marks.length < maxNesting)
    (hs : ∀ s, Tracks ⟨blocks, some (.sign :: marks), false⟩ (OperandEnds blocks (unsigned marks))
      signed s)
    (hg : ∀ s, Tracks ⟨blocks, some (.group :: marks), false⟩ (OperandEnds blocks (.group :: marks))
      group s)
    (s : State) :
    Tracks ⟨blocks, some marks, false⟩ (OperandEnds blocks (unsigned marks))
      (unaryOver signed group) s := by
  have ended {n : Nesting} {s : State} (same : n = ⟨blocks, some (unsigned marks), true⟩) :
      OperandEnds blocks (unsigned marks) n s :=
    ⟨same, Nat.lt_of_le_of_lt (Nat.add_le_add_left (length_unsigned_le marks) blocks) shallow⟩
  refine .peek ?_
  split
  case h_1 sign => exact .bind (.advance sign (by simp) shallow) fun _ s => .map (hs s)
  case h_2 opening =>
    refine .bind (.advance opening (by simp) shallow) fun _ s => .andThen (hg s) ?_
    -- the end of the group is in it, and the signs in front of the group end with it
    rintro inner s _ ⟨rfl, room⟩
    exact .map (.mono (.expect (by simp) room) ended)
  case h_3 name => exact .map (.mono (.advance name (by simp) shallow) ended)
  case h_4 =>
    split
    case h_1 value hvalue =>
      have writes := literal?_eq_some_some_iff.1 hvalue
      exact .map (.mono (.advance rfl writes.kind_ne_eof shallow) fun same =>
        ended (same.trans (read_of_writes writes)))
    case h_2 => exact .of_error rfl rfl (.other shallow (by simp))
    case h_3 => exact .unexpected shallow

theorem unary_tracks {room : Nat} (h : blocks + marks.length + 1 + room = maxNesting) (s : State) :
    Tracks ⟨blocks, some marks, false⟩ (OperandEnds blocks (unsigned marks)) (unary room) s := by
  induction room generalizing marks s with
  | zero =>
      -- one more sign or group passes the limit, and its operand is refused at once
      have deep (mark : Mark) : depth ⟨blocks, some (mark :: marks), false⟩ = maxNesting + 1 := by
        rw [depth_value, List.length_cons]
        omega
      exact unaryOver_tracks (by omega) (fun _ => .tooDeep (deep _)) (fun _ => .tooDeep (deep _)) s
  | succ room ih =>
      have inner (mark : Mark) : blocks + (mark :: marks).length + 1 + room = maxNesting := by
        rw [List.length_cons]
        omega
      exact unaryOver_tracks (by omega) (ih (inner .sign))
        (operation_tracks (by rw [List.length_cons]; omega) (ih (inner .group)) loosest) s

theorem expression_tracks {room : Nat} (h : blocks + room = maxNesting) (s : State) :
    Tracks ⟨blocks, some [], false⟩ (OperandEnds blocks []) (expression room) s := by
  cases room with
  | zero =>
      refine .tooDeep ?_
      rw [depth_value, List.length_nil]
      omega
  | succ room =>
      exact operation_tracks (by rw [List.length_nil]; omega)
        (unary_tracks (by rw [List.length_nil]; omega)) loosest s

end expressions

/-- A statement ends inside so many blocks: at the beginning of a line, or in front of the end of a
block or of the input. -/
inductive Rests (blocks : Nat) : Nesting → State → Prop
  | line {s} : Rests blocks (line blocks) s
  | closing {n s} (same : n.blocks = blocks) (shallow : n.depth ≤ maxNesting)
      (closing : s.next.kind = .dedent ∨ s.next.kind = .eof) : Rests blocks n s

theorem Rests.shallow {blocks : Nat} {n : Nesting} {s : State} (h : Rests blocks n s)
    (shallow : blocks ≤ maxNesting) : n.depth ≤ maxNesting := by
  cases h with
  | line => exact shallow
  | closing _ small _ => exact small

theorem lineEnd_tracks {n : Nesting} (shallow : n.depth ≤ maxNesting) (s : State) :
    Tracks n (Rests n.blocks) lineEnd s := by
  refine .peek ?_
  split
  case h_1 kind => exact .mono (.advance kind (by simp) shallow) fun same => same ▸ .line
  case h_2 kind => exact .pure (.closing rfl shallow (.inl kind))
  case h_3 kind => exact .pure (.closing rfl shallow (.inr kind))
  case h_4 => exact .unexpected shallow

section statements

variable {blocks : Nat} {expr : Rule Expr} {body : Rule Block}

/-- Behind the end of the condition no expression is left. -/
theorem condition_tracks (shallow : blocks ≤ maxNesting)
    (he : ∀ s, Tracks ⟨blocks, some [], false⟩ (OperandEnds blocks []) expr s) (operand : Bool)
    (s : State) :
    LeadsTo ⟨blocks, none, operand⟩ ⟨blocks, none, true⟩ (condition expr) s := by
  refine .bind (.expect (by simp) shallow) fun _ s => .andThen (he s) ?_
  rintro value s _ ⟨rfl, room⟩
  exact .map (.expect (by simp) room)

theorem block_tracks (shallow : blocks ≤ maxNesting)
    (hb : ∀ s, LeadsTo (line (blocks + 1)) (line blocks) body s) (operand : Bool) (s : State) :
    LeadsTo ⟨blocks, none, operand⟩ (line blocks) (block body) s :=
  .bind (.expect (by simp) shallow) fun _ _ => .bind (.skipNewlines shallow) fun _ _ =>
    .bind (.expect (by simp) shallow) fun _ s => hb s

theorem otherwise?_tracks (shallow : blocks ≤ maxNesting)
    (hb : ∀ s, LeadsTo (line blocks) (line blocks) (block body) s) (s : State) :
    LeadsTo (line blocks) (line blocks) (otherwise? body) s := by
  refine .peek ?_
  split
  case h_1 kind => exact .bind (.advance kind (by simp) shallow) fun _ s => .map (hb s)
  case h_2 kind => exact .bind (.advance kind (by simp) shallow) fun _ s => .map (hb s)
  case h_3 => exact .pure rfl

theorem initializer?_tracks (shallow : blocks ≤ maxNesting)
    (he : ∀ s, Tracks ⟨blocks, some [], false⟩ (OperandEnds blocks []) expr s) (s : State) :
    Tracks ⟨blocks, none, true⟩
      (fun n s => n = ⟨blocks, none, true⟩ ∨ OperandEnds blocks [] n s) (initializer? expr) s := by
  refine .peek ?_
  split
  case isTrue assign =>
    exact .bind (.advance assign (by simp) shallow) fun _ s => .map (.mono (he s) .inr)
  case isFalse => exact .pure (.inl rfl)

theorem statementOver_tracks (shallow : blocks ≤ maxNesting)
    (he : ∀ s, Tracks ⟨blocks, some [], false⟩ (OperandEnds blocks []) expr s)
    (hb : ∀ s, LeadsTo (line (blocks + 1)) (line blocks) body s) {n : Nesting} {s : State}
    (rests : Rests blocks n s) : Tracks n (Rests blocks) (statementOver expr body) s := by
  have hc := condition_tracks shallow he
  have hblock := block_tracks shallow hb
  have ends (s : State) : Tracks ⟨blocks, none, true⟩ (Rests blocks) lineEnd s :=
    lineEnd_tracks (n := ⟨blocks, none, true⟩) shallow s
  have endsValue (s : State) (room : blocks < maxNesting) :
      Tracks ⟨blocks, some [], true⟩ (Rests blocks) lineEnd s :=
    lineEnd_tracks (n := ⟨blocks, some [], true⟩) room s
  have value {f : Expr → Stmt} (s : State) :
      Tracks ⟨blocks, some [], false⟩ (Rests blocks)
        (expr >>= fun e => lineEnd >>= fun _ => pure (f e)) s := by
    refine .andThen (he s) ?_
    rintro e s _ ⟨rfl, room⟩
    exact .map (endsValue s room)
  refine .peek (.noteBegun ?_)
  cases rests with
  | closing _ small closing =>
      -- the tokens that end a statement without a newline begin no other one
      obtain kind | kind := closing <;> rw [kind] <;> exact .unexpected small
  | line =>
      split
      case h_1 si =>
        exact .bind (.advance si (by simp) shallow) fun _ s => .bind (hc false s) fun _ s =>
          .bind (hblock true s) fun _ s =>
          .map (.mono (otherwise?_tracks shallow (hblock false) s) fun same => same ▸ .line)
      case h_2 mientras =>
        exact .bind (.advance mientras (by simp) shallow) fun _ s => .bind (hc false s) fun _ s =>
          .map (.mono (hblock true s) fun same => same ▸ .line)
      case h_3 haz =>
        exact .bind (.advance haz (by simp) shallow) fun _ s => .bind (hblock false s) fun _ s =>
          .bind (.expect (by simp) shallow) fun _ s => .bind (hc false s) fun _ s => .map (ends s)
      case h_4 muestra => exact .bind (.advance muestra (by simp) shallow) fun _ s => value s
      case h_5 name =>
        exact .bind (.advance name (by simp) shallow) fun _ s =>
          .bind (.expect (by simp) shallow) fun _ s => value s
      case h_6 typed =>
        refine .bind (.advance typed (by simp) shallow) fun _ s =>
          .bind (.expect (by simp) shallow) fun _ s =>
          .andThen (initializer?_tracks shallow he s) ?_
        rintro init s _ (rfl | ⟨rfl, room⟩)
        · exact .map (ends s)
        · exact .map (endsValue s room)
      case h_7 => exact .unexpected shallow

theorem skipNewlines_tracks (shallow : blocks ≤ maxNesting) {n : Nesting} {s : State}
    (rests : Rests blocks n s) : Tracks n (Rests blocks) skipNewlines s := by
  cases rests with
  | line => exact .mono (.skipNewlines shallow) fun same => same ▸ .line
  | closing same small closing =>
      have kind : s.next.kind ≠ .newline := by obtain kind | kind := closing <;> simp [kind]
      obtain ⟨ts, hinput⟩ := s.input_eq_next_cons
      have unread : s.skipNewlines.input = s.next :: ts :=
        State.input_skipNewlines (hinput ▸ .none) kind
      refine ⟨[], hinput.trans unread.symm, trivial, .closing same small ?_⟩
      rwa [State.next_eq_of_input unread]

variable {stop : Token.Kind → Bool} {stmt : Rule Stmt}

theorem spaced_tracks (shallow : blocks ≤ maxNesting)
    (hs : ∀ {n s}, Rests blocks n s → Tracks n (Rests blocks) stmt s) {n : Nesting} {s : State}
    (rests : Rests blocks n s) : Tracks n (Rests blocks) (spaced stmt) s :=
  .andThen (hs rests) fun _ _ _ rests => .map (skipNewlines_tracks shallow rests)

theorem manyUntil_tracks (hs : ∀ {n s}, Rests blocks n s → Tracks n (Rests blocks) stmt s)
    {n : Nesting} {s : State} (rests : Rests blocks n s) :
    Tracks n (Rests blocks) (manyUntil stop stmt) s := by
  unfold Tracks
  fun_induction manyUntil stop stmt s generalizing n with
  | case1 s stopped => exact ⟨[], rfl, trivial, rests⟩
  | case2 s _ e after hstmt => exact (hs rests).tracked hstmt
  | case3 s _ a after hstmt less e last hmore ih =>
      obtain ⟨span, hinput, inner, rests⟩ := (hs rests).tracked hstmt
      have others := ih rests
      rw [hmore] at others
      rw [hinput]
      exact others.behind inner
  | case4 s _ a after hstmt less more last hmore ih =>
      obtain ⟨span, hinput, inner, rests⟩ := (hs rests).tracked hstmt
      have others := ih rests
      rw [hmore] at others
      rw [hinput]
      exact Tracked.behind (r := .ok (a :: more) last) others inner
  | case5 s _ a after hstmt notLess => exact (hs rests).tracked hstmt

theorem statements_tracks (shallow : blocks ≤ maxNesting)
    (hs : ∀ {n s}, Rests blocks n s → Tracks n (Rests blocks) stmt s) (s : State) :
    Tracks (line blocks) (Rests blocks) (statements stop stmt) s :=
  .andThen (skipNewlines_tracks shallow .line) fun _ _ _ rests =>
    manyUntil_tracks (fun rests => spaced_tracks shallow hs rests) rests

theorem blockBody_tracks (room : blocks < maxNesting)
    (hs : ∀ {n s}, Rests (blocks + 1) n s → Tracks n (Rests (blocks + 1)) stmt s) (s : State) :
    LeadsTo (line (blocks + 1)) (line blocks) (blockBody stmt) s := by
  refine .andThen (statements_tracks room hs s) fun b s n rests => ?_
  have small := rests.shallow room
  have same : n.blocks = blocks + 1 := by
    cases rests with
    | line => rfl
    | closing same _ _ => exact same
  split
  case isTrue => exact .unexpected small
  case isFalse =>
    refine .map (.mono (.expect (by simp) small) fun closed => ?_)
    rw [closed]
    change line (n.blocks - 1) = line blocks
    rw [same, Nat.add_sub_cancel]

theorem statement_tracks {room : Nat} (h : blocks + room = maxNesting) {n : Nesting} {s : State}
    (rests : Rests blocks n s) : Tracks n (Rests blocks) (statement room) s := by
  induction room generalizing blocks n s with
  | zero =>
      refine statementOver_tracks (by omega) (expression_tracks h) (fun _ => .tooDeep ?_) rests
      rw [depth_line]
      omega
  | succ room ih =>
      refine statementOver_tracks (by omega) (expression_tracks h) ?_ rests
      exact blockBody_tracks (by omega) fun rests => ih (by omega) rests

theorem program_tracks (s : State) : Tracks {} (Rests 0) program s :=
  .map (statements_tracks (Nat.zero_le _) (statement_tracks (Nat.zero_add _)) s)

end statements

/-- Around the tokens of a program there is never more than parsing allows. -/
theorem depth_le_of_parse {tokens front back : List Token} {t : Token} {p : Program}
    (h : parse tokens = .ok p) (input : (State.ofTokens tokens).input = front ++ t :: back) :
    (behind front).depth ≤ maxNesting := by
  unfold parse at h
  split at h
  case h_1 p' s' hrun =>
    obtain ⟨span, hinput, shallow, rests⟩ := (program_tracks _).tracked hrun
    have atEnd : (behind span).depth ≤ maxNesting := rests.shallow (Nat.zero_le _)
    have last := State.input_of_next_eof (next_of_program hrun)
    rw [input] at hinput
    -- the token is one of those that were read, or it is the end mark behind them
    obtain ⟨more, hspan, hmore⟩ | ⟨more, hfront, hmore⟩ := List.append_eq_append_iff.1 hinput
    · cases more with
      | nil => rwa [hspan, List.append_nil] at atEnd
      | cons u more =>
          rw [hspan] at shallow
          exact shallow.le
    · rw [last] at hmore
      have nothing : more = [] := by
        cases more with
        | nil => rfl
        | cons u more => simp at hmore
      rwa [hfront, nothing, List.append_nil]
  case h_2 => contradiction

/-- Parsing refuses a token for what encloses it only if too much does, and it is the first such
token. An expression counts as one level: outside of expressions the limit is passed when the blocks
around a token are more than it allows, in an expression already when there are as many blocks,
groups and signs. -/
theorem parse_tooDeep {tokens : List Token} {e : SyntaxError} {limit : Nat}
    (h : parse tokens = .error e) (deep : e.cause = .nestingTooDeep limit) :
    limit = maxNesting ∧ ∃ front t back, Parser.kept tokens = front ++ t :: back ∧
      e.location = t.location ∧
      (∀ l u r, front = l ++ u :: r → (behind l).depth ≤ maxNesting) ∧
      ((behind front).levels = maxNesting + 1 ∧ (behind front).inExpression = false ∨
        (behind front).levels = maxNesting ∧ (behind front).inExpression) := by
  unfold parse at h
  split at h
  case h_1 => contradiction
  case h_2 e' s' hrun =>
    cases h
    obtain ⟨front, hinput, shallow, refused⟩ := (program_tracks _).tracked hrun
    cases refused with
    | other _ refused => exact absurd deep (refused limit)
    | deep tooDeep refused =>
        subst refused
        cases deep
        obtain ⟨ts, hnext⟩ := s'.input_eq_next_cons
        obtain ⟨back, hkept⟩ := Parser.input_prefix_kept tokens
        change (State.ofTokens tokens).input ++ back = _ at hkept
        rw [hinput, hnext, List.append_assoc, List.cons_append] at hkept
        refine ⟨rfl, front, s'.next, ts ++ back, hkept.symm, rfl, ?_, ?_⟩
        · rintro l u r rfl
          exact shallow.le
        · change depth (behind front) = _ at tooDeep
          unfold depth at tooDeep
          cases inside : (behind front).inExpression with
          | false => exact .inl ⟨by simpa [inside] using tooDeep, rfl⟩
          | true => exact .inr ⟨by simpa [inside] using tooDeep, rfl⟩

/-- The number 1 in as many groups as the limit allows, printed. -/
def deepGroup : List Token :=
  ⟨.keyword .muestra, "muestra", ⟨1, 1⟩⟩ ::
    (List.range maxNesting).map (fun i => ⟨.symbol .openParen, "(", ⟨1, 9 + i⟩⟩) ++
    ⟨.integer, "1", ⟨1, 9 + maxNesting⟩⟩ ::
    (List.range maxNesting).map (fun i => ⟨.symbol .closeParen, ")", ⟨1, 10 + maxNesting + i⟩⟩) ++
    [⟨.eof, "", ⟨1, 10 + 2 * maxNesting⟩⟩]

theorem parse_deepGroup :
    parse deepGroup = .error ⟨.nestingTooDeep maxNesting, ⟨1, 9 + maxNesting⟩⟩ := by
  have refused : (parse deepGroup).map (fun _ => ()) =
      .error ⟨.nestingTooDeep maxNesting, ⟨1, 9 + maxNesting⟩⟩ := by
    decide +kernel
  cases h : parse deepGroup with
  | ok p =>
      rw [h] at refused
      contradiction
  | error e =>
      rw [h] at refused
      cases refused
      rfl

theorem parse_tooDeep_deepGroup :
    ∃ e, parse deepGroup = .error e ∧ e.cause = .nestingTooDeep maxNesting ∧
      ∃ front t back, Parser.kept deepGroup = front ++ t :: back ∧ e.location = t.location ∧
        (∀ l u r, front = l ++ u :: r → (behind l).depth ≤ maxNesting) ∧
        ((behind front).levels = maxNesting + 1 ∧ (behind front).inExpression = false ∨
          (behind front).levels = maxNesting ∧ (behind front).inExpression) :=
  ⟨_, parse_deepGroup, rfl, (parse_tooDeep parse_deepGroup rfl).2⟩

/-- No token of `deepGroup` is inside of more groups than the limit allows. -/
theorem tooDeep_within_limit :
    ¬ ∀ tokens e limit, parse tokens = .error e → e.cause = .nestingTooDeep limit →
      ∃ front t back, Parser.kept tokens = front ++ t :: back ∧
        maxNesting < (behind front).levels := by
  intro every
  obtain ⟨front, t, back, hkept, passed⟩ := every deepGroup _ _ parse_deepGroup rfl
  have within : Allowed levels {} (Parser.kept deepGroup) := by decide +kernel
  rw [hkept] at within
  exact Nat.lt_irrefl _ (Nat.lt_of_lt_of_le passed within.le)

end PasoFrontEnd.Grammar
