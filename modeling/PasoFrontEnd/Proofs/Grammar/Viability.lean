import PasoFrontEnd.Proofs.Grammar.Likeness
import PasoFrontEnd.Proofs.Grammar.Phrases

/-!
Parsing stops at the first token that cannot stand where it does. The tokens in front of a refused
token always go on to a program that the grammar derives, and with the refused token they never do;
what comes behind it plays no part. They go on with a token of a kind that the error names in its
place, too, but for the ends of a statement: the rule for them names the end of a block and of the
input wherever the statement stands.
-/

namespace PasoFrontEnd.Grammar

theorem viable_specimen (kind : Token.Kind) : Viable (single kind) [specimen kind] :=
  viable_of_mem (singleton_mem_single rfl)

/-- A token of the kind can stand behind the tokens in front of it. Where a phrase can be in want of
an end, the end of a block or of the input may come behind a whole phrase; inside a block the end of
the input may be named where the end of the block can stand. -/
inductive Offered (wants : Prop) (L : Language Token) (front : List Token) : Token.Kind → Prop
  | goesOn {kind} (plain : kind ≠ .comment) (viable : Viable L (front ++ [specimen kind])) :
      Offered wants L front kind
  | inBlock (viable : Viable L (front ++ [specimen .dedent])) : Offered wants L front .eof
  | whole {kind} (want : wants) (closing : kind = .dedent ∨ kind = .eof) (phrase : front ∈ L) :
      Offered wants L front kind

namespace Offered

variable {wants : Prop} {L M : Language Token} {front span : List Token} {kind : Token.Kind}

theorem mono (h : Offered wants L front kind) (le : L ≤ M) : Offered wants M front kind := by
  cases h with
  | goesOn plain viable => exact .goesOn plain (viable.mono le)
  | inBlock viable => exact .inBlock (viable.mono le)
  | whole want closing phrase => exact .whole want closing (le phrase)

theorem loosen (h : Offered False L front kind) : Offered wants L front kind := by
  cases h with
  | goesOn plain viable => exact .goesOn plain viable
  | inBlock viable => exact .inBlock viable
  | whole want _ _ => exact want.elim

theorem mul [Phrased M] (h : Offered False L front kind) : Offered wants (L * M) front kind := by
  cases h with
  | goesOn plain viable => exact .goesOn plain viable.mul
  | inBlock viable => exact .inBlock viable.mul
  | whole want _ _ => exact want.elim

theorem behind (h : Offered wants M front kind) (hspan : span ∈ L) :
    Offered wants (L * M) (span ++ front) kind := by
  cases h with
  | goesOn plain viable => exact .goesOn plain (List.append_assoc .. ▸ viable.behind hspan)
  | inBlock viable => exact .inBlock (List.append_assoc .. ▸ viable.behind hspan)
  | whole want closing phrase =>
      exact .whole want closing (Language.append_mem_mul hspan phrase)

theorem kind_ne_comment (h : Offered wants L front kind) : kind ≠ .comment := by
  cases h with
  | goesOn plain _ => exact plain
  | inBlock _ => simp
  | whole _ closing _ => obtain rfl | rfl := closing <;> simp

/-- Behind statements in a block the end of the block can stand. -/
theorem inBlockBody (h : Offered wants L front kind) :
    Offered False (L * single .dedent) front kind := by
  have closed (phrase : front ∈ L) : Viable (L * single .dedent) (front ++ [specimen .dedent]) :=
    viable_of_mem (Language.append_mem_mul phrase (singleton_mem_single rfl))
  cases h with
  | goesOn plain viable => exact .goesOn plain viable.mul
  | inBlock viable => exact .inBlock viable.mul
  | whole _ closing phrase =>
      obtain rfl | rfl := closing
      · exact .goesOn (by simp) (closed phrase)
      · exact .inBlock (closed phrase)

end Offered

namespace Rule

variable {α β : Type}

/-- The end of a run on some tokens within a language: those that were read are a phrase of it, or
they begin one, the next token is refused, and the kinds that are named can stand in its place. -/
def Within (wants : Prop) (L : Language Token) (ts : List Token) :
    EStateM.Result SyntaxError State α → Prop
  | .ok _ s => ∃ span ∈ L, ts = span ++ s.input
  | .error e s => ∀ t ∈ e.found?, s.next = t ∧ e.location = t.location ∧
      ∃ front, ts = front ++ s.input ∧ Viable L front ∧
        ∀ kind ∈ e.expected, Offered wants L front kind

def KeepsTo (wants : Prop) (x : Rule α) (L : Language Token) (s : State) : Prop :=
  Within wants L s.input (x s)

variable {wants : Prop} {L M : Language Token} {s s₁ : State} {ts span : List Token}

theorem Within.mono {r : EStateM.Result SyntaxError State α} (h : Within wants L ts r)
    (le : L ≤ M) :
    Within wants M ts r := by
  cases r with
  | ok a s₁ => exact h.imp fun _ hspan => hspan.imp_left (le ·)
  | error e s₁ =>
      intro t ht
      obtain ⟨next, place, front, hfront, viable, offered⟩ := h t ht
      exact ⟨next, place, front, hfront, viable.mono le,
        fun kind hkind => (offered kind hkind).mono le⟩

theorem Within.loosen {r : EStateM.Result SyntaxError State α} (h : Within False L ts r) :
    Within wants L ts r := by
  cases r with
  | ok a s₁ => exact h
  | error e s₁ =>
      intro t ht
      obtain ⟨next, place, front, hfront, viable, offered⟩ := h t ht
      exact ⟨next, place, front, hfront, viable, fun kind hkind => (offered kind hkind).loosen⟩

/-- A run behind a phrase that was read before it. -/
theorem Within.behind {r : EStateM.Result SyntaxError State α} (h : Within wants M ts r)
    (hspan : span ∈ L) : Within wants (L * M) (span ++ ts) r := by
  cases r with
  | ok a s₂ =>
      obtain ⟨span', hspan', rfl⟩ := h
      exact ⟨_, Language.append_mem_mul hspan hspan', (List.append_assoc ..).symm⟩
  | error e s₂ =>
      intro t ht
      obtain ⟨next, place, front, rfl, viable, offered⟩ := h t ht
      exact ⟨next, place, _, (List.append_assoc ..).symm, viable.behind hspan,
        fun kind hkind => (offered kind hkind).behind hspan⟩

/-- An error in statements in a block, at whose end the statements can end. -/
theorem Within.inBlockBody {e : SyntaxError}
    (h : Within wants L ts (.error e s : EStateM.Result SyntaxError State α)) :
    Within False (L * single .dedent) ts (.error e s : EStateM.Result SyntaxError State β) := by
  intro t ht
  obtain ⟨next, place, front, hfront, viable, named⟩ := h t ht
  exact ⟨next, place, front, hfront, viable.mul, fun kind hkind => (named kind hkind).inBlockBody⟩

theorem KeepsTo.mono {x : Rule α} (le : L ≤ M) (h : KeepsTo wants x L s) : KeepsTo wants x M s :=
  Within.mono h le

theorem KeepsTo.loosen {x : Rule α} (h : KeepsTo False x L s) : KeepsTo wants x L s :=
  Within.loosen h

theorem KeepsTo.andThen {N : Language Token} {before : Prop} {x : Rule α} {f : α → Rule β}
    (hx : KeepsTo before x L s) (viable : ∀ {front}, Viable L front → Viable N front)
    (offered : ∀ {front kind}, Offered before L front kind → Offered wants N front kind)
    (hf : ∀ a s₁, ∀ span ∈ L, s.input = span ++ s₁.input → Within wants N s.input (f a s₁)) :
    KeepsTo wants (x >>= f) N s := by
  unfold KeepsTo at hx ⊢
  cases hs : x s with
  | ok a s₁ =>
      rw [hs] at hx
      obtain ⟨span, hspan, hinput⟩ := hx
      rw [bind_of_ok hs]
      exact hf a s₁ span hspan hinput
  | error e s₁ =>
      rw [hs] at hx
      rw [bind_of_error hs]
      intro t ht
      obtain ⟨next, place, front, hfront, begun, named⟩ := hx t ht
      exact ⟨next, place, front, hfront, viable begun, fun kind hkind => offered (named kind hkind)⟩

/-- Two rules in a row keep to the phrases of the first one with phrases of the second one behind
them, if there are any. Only the phrases of the second one may be in want of an end. -/
theorem KeepsTo.bind [Phrased M] {x : Rule α} {f : α → Rule β} (hx : KeepsTo False x L s)
    (hf : ∀ a s₁, KeepsTo wants (f a) M s₁) : KeepsTo wants (x >>= f) (L * M) s :=
  hx.andThen (·.mul) (·.mul) fun a s₁ _ hspan hinput => hinput ▸ (hf a s₁).behind hspan

/-- A value that is made of the one that was read. -/
theorem KeepsTo.map {x : Rule α} {f : α → β} (h : KeepsTo wants x L s) :
    KeepsTo wants (x >>= fun a => pure (f a)) L s :=
  h.andThen id id fun _ _ span hspan hinput => ⟨span, hspan, hinput⟩

theorem KeepsTo.pure (a : α) : KeepsTo wants (Pure.pure a) 1 s :=
  ⟨[], rfl, rfl⟩

theorem KeepsTo.peek {f : Token → Rule α} (h : KeepsTo wants (f s.next) L s) :
    KeepsTo wants (Grammar.peek >>= f) L s :=
  h

theorem KeepsTo.noteBegun {t : Token} {f : Unit → Rule α}
    (h : KeepsTo wants (f ()) L { s with begun := t :: s.begun }) :
    KeepsTo wants (Grammar.noteBegun t >>= f) L s :=
  h

theorem KeepsTo.advance (kind : s.next.kind ≠ .eof) (h : [s.next] ∈ L) :
    KeepsTo wants Grammar.advance L s :=
  ⟨[s.next], h, State.input_of_next_ne_eof kind⟩

theorem KeepsTo.first {kind : Token.Kind} (h : s.next.kind = kind) (hk : kind ≠ .eof) :
    KeepsTo wants Grammar.advance (single kind) s :=
  .advance (h ▸ hk) (singleton_mem_single h)

theorem KeepsTo.unexpected {expected : List Token.Kind} [Phrased L]
    (offered : ∀ kind ∈ expected, Offered wants L [] kind) :
    KeepsTo wants (Grammar.unexpected expected : Rule α) L s := by
  intro t ht
  cases ht
  exact ⟨rfl, rfl, [], rfl, viable_nil, offered⟩

/-- An error that refuses no token. -/
theorem KeepsTo.of_error {x : Rule α} {e : SyntaxError} (h : x s = .error e s₁)
    (hnone : e.found? = none) : KeepsTo wants x L s := by
  unfold KeepsTo
  rw [h]
  intro t ht
  rw [hnone] at ht
  contradiction

theorem KeepsTo.tooDeep : KeepsTo wants (Grammar.tooDeep : Rule α) L s := .of_error rfl rfl

theorem KeepsTo.skipNewlines : KeepsTo wants Grammar.skipNewlines newlineSpans s :=
  s.newlines_skipNewlines.exists_span

theorem KeepsTo.expect {kind : Token.Kind} (hk : kind ≠ .eof ∧ kind ≠ .comment) :
    KeepsTo wants (Grammar.expect kind) (single kind) s := by
  refine .peek ?_
  split
  case isTrue h => exact .map (.advance (h ▸ hk.1) (singleton_mem_single h))
  case isFalse =>
    refine .unexpected fun kind' hkind' => ?_
    obtain rfl := List.mem_singleton.1 hkind'
    exact .goesOn hk.2 (viable_of_mem (singleton_mem_single rfl))

end Rule

open Rule

section expressions

variable {s : State}

/-- One round of operators: the operator and its right operand behind a left operand. -/
theorem Within.operation {rank : Nat} {operand : Rule Expr} {s : State} {op : BinaryOp}
    (ho : ∀ s, KeepsTo False operand (expressionSpans rank) s)
    (hop : (BinaryOp.ofKind? s.next.kind).filter (·.rank = rank + 1) = some op) {left : List Token}
    (hleft : left ∈ expressionSpans (rank + 1)) :
    Within False (expressionSpans (rank + 1)) (left ++ s.input) (operand s.advance) := by
  obtain ⟨hkind, ranked⟩ := Option.filter_eq_some_iff.1 hop
  have operator := operator_iff.2 ⟨hkind, of_decide_eq_true ranked⟩
  rw [State.input_of_next_ne_eof (operator.kind_eq ▸ kind_ne_eof op)]
  have right : Within False (single s.next.kind * expressionSpans rank)
      ([s.next] ++ s.advance.input) _ :=
    (ho s.advance).behind (singleton_mem_single rfl)
  exact (right.behind hleft).mono (operation_le operator)

theorem joinedFrom_within {rank : Nat} {operand : Rule Expr}
    (ho : ∀ s, KeepsTo False operand (expressionSpans rank) s) {left : Expr} {s : State}
    {span : List Token} (hspan : span ∈ expressionSpans (rank + 1)) :
    Within False (expressionSpans (rank + 1)) (span ++ s.input)
      (joinedFrom (rank + 1) operand left s) := by
  fun_induction joinedFrom (rank + 1) operand left s generalizing span with
  | case1 left s => exact ⟨span, hspan, rfl⟩
  | case2 left s op hop e after hright => exact hright ▸ Within.operation ho hop hspan
  | case3 left s op hop right after hright =>
      rename_i ih
      have round := Within.operation ho hop hspan
      rw [hright] at round
      obtain ⟨span', hspan', hinput⟩ := round
      rw [hinput]
      exact ih hspan'
  | case4 left s op hop right after hright =>
      have round := Within.operation ho hop hspan
      rw [hright] at round
      exact round

theorem operation_keepsTo {operand : Rule Expr}
    (ho : ∀ s, KeepsTo False operand (expressionSpans 0) s) (rank : Nat) (s : State) :
    KeepsTo False (operation operand rank) (expressionSpans rank) s := by
  induction rank generalizing s with
  | zero => exact ho s
  | succ rank ih =>
      exact .andThen (ih s) (·.mono (expressionSpans_le_succ rank))
        (·.mono (expressionSpans_le_succ rank)) fun left _ _ hspan hinput =>
          hinput ▸ joinedFrom_within ih (expressionSpans_le_succ rank hspan)

/-- Every kind that can begin an expression begins one. -/
theorem offered_expressionStart :
    ∀ kind ∈ expressionStart, Offered False (expressionSpans 0) [] kind := by
  have literal {kind : Token.Kind} (h : literal? (specimen kind) ≠ none) :
      Viable (expressionSpans 0) [specimen kind] := by
    obtain ⟨value?, hvalue⟩ := Option.ne_none_iff_exists'.1 h
    obtain ⟨value, rfl⟩ := Option.ne_none_iff_exists'.1 fun (none : value? = none) =>
      literal?_specimen kind (none ▸ hvalue)
    exact viable_of_mem (singleton_mem_expressionSpans (literal?_eq_some_some_iff.1 hvalue))
  have name := (viable_specimen .identifier).mono name_le
  have group := (viable_specimen (.symbol .openParen)).mul.mono group_le
  have negation := (viable_specimen (.symbol .minus)).mul.mono negation_le
  intro kind hkind
  simp only [expressionStart, List.mem_cons, List.not_mem_nil, or_false] at hkind
  obtain rfl | rfl | rfl | rfl | rfl | rfl | rfl | rfl | rfl := hkind
  all_goals refine .goesOn (by simp) ?_
  all_goals first
    | assumption
    | exact literal (by simp [literal?, specimen])

theorem unaryOver_keepsTo {signed group : Rule Expr}
    (hs : ∀ s, KeepsTo False signed (expressionSpans 0) s)
    (hg : ∀ s, KeepsTo False group (expressionSpans 6) s) (s : State) :
    KeepsTo False (unaryOver signed group) (expressionSpans 0) s := by
  refine .peek ?_
  split
  case h_1 sign =>
    exact .mono negation_le (.bind (.first sign (by simp)) fun _ s => .map (hs s))
  case h_2 opening =>
    exact .mono group_le (.bind (.first opening (by simp)) fun _ s => .bind (hg s) fun _ _ =>
      .map (.expect (by simp)))
  case h_3 name => exact .mono name_le (.map (.first name (by simp)))
  case h_4 =>
    split
    case h_1 value hvalue =>
      have writes := literal?_eq_some_some_iff.1 hvalue
      exact .map (.advance writes.kind_ne_eof (singleton_mem_expressionSpans writes))
    case h_2 => exact .of_error rfl rfl
    case h_3 => exact .unexpected offered_expressionStart

theorem unary_keepsTo (depth : Nat) (s : State) :
    KeepsTo False (unary depth) (expressionSpans 0) s := by
  induction depth generalizing s with
  | zero => exact unaryOver_keepsTo (fun _ => .tooDeep) (fun _ => .tooDeep) s
  | succ depth ih => exact unaryOver_keepsTo ih (operation_keepsTo ih loosest) s

theorem expression_keepsTo (depth : Nat) (s : State) :
    KeepsTo False (expression depth) (expressionSpans 6) s := by
  cases depth with
  | zero => exact .tooDeep
  | succ depth => exact operation_keepsTo (unary_keepsTo depth) loosest s

end expressions

/-- The ends that are named stand behind a phrase, whether or not a block is open. -/
theorem lineEnd_keepsTo (s : State) : KeepsTo True lineEnd lineEndSpans s := by
  have nothing : [] ∈ lineEndSpans := by
    rintro rest ⟨t, ht, closing⟩
    obtain ⟨ts, rfl⟩ := List.head?_eq_some_iff.1 ht
    exact .ahead closing
  refine .peek ?_
  split
  case h_1 kind => exact .advance (by simp [kind]) fun _ _ => .newline kind
  case h_2 => exact ⟨[], nothing, rfl⟩
  case h_3 => exact ⟨[], nothing, rfl⟩
  case h_4 =>
    refine .unexpected fun kind hkind => ?_
    simp only [List.mem_cons, List.not_mem_nil, or_false] at hkind
    obtain rfl | closing := hkind
    · exact .goesOn (by simp) (viable_of_mem fun _ _ => .newline rfl)
    · exact .whole trivial closing nothing

section statementOver

variable {expr : Rule Expr} {body : Rule Block}

theorem condition_keepsTo (he : ∀ s, KeepsTo False expr (expressionSpans 6) s) (s : State) :
    KeepsTo False (condition expr) conditionSpans s :=
  .mono condition_le (.bind (.expect (by simp)) fun _ s => .bind (he s) fun _ _ =>
    .map (.expect (by simp)))

theorem block_keepsTo (hb : ∀ s, KeepsTo False body (sequenceSpans * single .dedent) s)
    (s : State) :
    KeepsTo False (block body) blockSpans s :=
  .mono block_le (.bind (.expect (by simp)) fun _ _ => .bind .skipNewlines fun _ _ =>
    .bind (.expect (by simp)) fun _ s => hb s)

theorem initializer?_keepsTo (he : ∀ s, KeepsTo False expr (expressionSpans 6) s) (s : State) :
    KeepsTo False (initializer? expr) initializerSpans s := by
  refine .peek ?_
  split
  case isTrue assign =>
    exact .mono le_add_self (.bind (.first assign (by simp)) fun _ s => .map (he s))
  case isFalse => exact .mono le_self_add (.pure none)

theorem otherwise?_keepsTo (hb : ∀ s, KeepsTo False (block body) blockSpans s) (s : State) :
    KeepsTo False (otherwise? body) otherwiseSpans s := by
  refine .peek ?_
  split
  case h_1 kind =>
    exact .mono le_add_self (.bind (.mono le_self_add (.first kind (by simp))) fun _ s =>
      .map (hb s))
  case h_2 kind =>
    exact .mono le_add_self (.bind (.mono le_add_self (.first kind (by simp))) fun _ s =>
      .map (hb s))
  case h_3 => exact .mono le_self_add (.pure none)

/-- Every kind that can begin a statement begins one. -/
theorem offered_statementStart {wants : Prop} :
    ∀ kind ∈ statementStart, Offered wants statementSpans [] kind := by
  have declaration (type : ValueType) :=
    (viable_specimen (.keyword (.typeName type))).mul.mono declaration_le
  intro kind hkind
  simp only [statementStart, List.mem_cons, List.not_mem_nil, or_false] at hkind
  obtain rfl | rfl | rfl | rfl | rfl | rfl | rfl | rfl | rfl := hkind
  all_goals refine .goesOn (by simp) ?_
  case _ => exact (viable_specimen _).mul.mono branch_le
  case _ => exact (viable_specimen _).mul.mono loop_le
  case _ => exact (viable_specimen _).mul.mono doLoop_le
  case _ => exact (viable_specimen _).mul.mono print_le
  case _ => exact (viable_specimen _).mul.mono assignment_le
  all_goals exact declaration _

theorem statementOver_keepsTo (he : ∀ s, KeepsTo False expr (expressionSpans 6) s)
    (hb : ∀ s, KeepsTo False body (sequenceSpans * single .dedent) s) (s : State) :
    KeepsTo True (statementOver expr body) statementSpans s := by
  have hc := condition_keepsTo he
  have hblock := block_keepsTo hb
  refine .peek (.noteBegun ?_)
  split
  case h_1 si =>
    exact .mono branch_le (.bind (.first si (by simp)) fun _ s => .bind (hc s) fun _ s =>
      .bind (hblock s) fun _ s => .map (otherwise?_keepsTo hblock s).loosen)
  case h_2 mientras =>
    exact .mono loop_le (.bind (.first mientras (by simp)) fun _ s => .bind (hc s) fun _ s =>
      .map (hblock s).loosen)
  case h_3 haz =>
    exact .mono doLoop_le (.bind (.first haz (by simp)) fun _ s => .bind (hblock s) fun _ _ =>
      .bind (.expect (by simp)) fun _ s => .bind (hc s) fun _ s => .map (lineEnd_keepsTo s))
  case h_4 muestra =>
    exact .mono print_le (.bind (.first muestra (by simp)) fun _ s => .bind (he s) fun _ s =>
      .map (lineEnd_keepsTo s))
  case h_5 name =>
    exact .mono assignment_le (.bind (.first name (by simp)) fun _ _ =>
      .bind (.expect (by simp)) fun _ s => .bind (he s) fun _ s => .map (lineEnd_keepsTo s))
  case h_6 typed =>
    exact .mono declaration_le (.bind (.first typed (by simp)) fun _ _ =>
      .bind (.expect (by simp)) fun _ s => .bind (initializer?_keepsTo he s) fun _ s =>
        .map (lineEnd_keepsTo s))
  case h_7 => exact .unexpected offered_statementStart

end statementOver

section statements

variable {ts us rest front : List Token} {b : Block} {n : Nat}

/-- What a statement reads is a phrase, and more statements can follow it unless it has no end of
its own and takes what stands behind it for one. -/
theorem Statement.exists_span {a : Stmt} {vs : List Token} (blank : Newlines ts us)
    (first : Statement us a vs n) :
    ∃ span ∈ sequenceSpans, ts = span ++ vs ∧ ∀ {front more : List Token}, front ≠ [] →
      FitsBehind span vs front → front ++ more ∈ sequenceSpans →
        span ++ (front ++ more) ∈ sequenceSpans := by
  obtain ⟨v, hv, rfl⟩ := blank.exists_span
  obtain ⟨w, rfl, -, readsFirst⟩ := first.detaches_behind
  have hw : w ∈ statementSpans := ⟨a, n, fun rest closing => readsFirst rest (.inl (.inr closing))⟩
  refine ⟨v ++ w, blank_le (Language.append_mem_mul hv (statement_le hw)),
    by rw [List.append_assoc], fun {front more} begun fits sequence => ?_⟩
  rw [List.append_assoc]
  suffices behind : w ++ (front ++ more) ∈ sequenceSpans from
    blank_le (Language.append_mem_mul hv behind)
  obtain ⟨t, front, rfl⟩ := List.exists_cons_of_ne_nil begun
  obtain ⟨b, m, nonempty, readsMore⟩ := sequence
  refine ⟨a :: b, max n m, List.cons_ne_nil _ _, fun rest closing => ?_⟩
  -- the next token is the one that can follow, so the first statement ends as it did
  obtain ⟨first'⟩ := readsFirst (t :: front ++ more ++ rest)
    (fits.imp id fun free inNeed => free ⟨inNeed.1.append v, inNeed.2⟩)
  obtain ⟨more'⟩ := readsMore rest closing
  rw [List.append_assoc]
  exact ⟨.cons .none first' more'⟩

theorem Statements.exists_span (h : Statements ts b rest n) (nonempty : b ≠ []) :
    ∃ span ∈ sequenceSpans, ts = span ++ rest := by
  obtain ⟨span, hts, -, reads⟩ := h.detaches
  exact ⟨span, ⟨b, n, nonempty, fun rest closing => reads rest (.inr closing)⟩, hts⟩

variable {stop : Token.Kind → Bool} {stmt : Rule Stmt} {depth : Nat} {s s' : State}
    {e : SyntaxError}

/-- The tokens are whole statements and end in the middle of a line. The next token could be the end
of the last one, and those who run the statements do not stop at it. -/
structure Stray (stop : Token.Kind → Bool) (front : List Token) (found : Token) : Prop where
  statements : front ∈ sequenceSpans
  inLine : EndsInLine front
  closing : found.kind = .dedent ∨ found.kind = .eof
  runsOn : stop found.kind = false

/-- An error in statements: the tokens in front of the refused one begin statements, and the kinds
that are named can stand in its place, unless it is refused as the start of one more statement. -/
def Interrupts (stop : Token.Kind → Bool) (ts : List Token) (e : SyntaxError) (s : State) : Prop :=
  ∀ t ∈ e.found?, s.next = t ∧ e.location = t.location ∧
    ∃ front, ts = front ++ s.input ∧ Viable sequenceSpans front ∧
      (front = [] → stop t.kind = false) ∧
      ∀ kind ∈ e.expected, Offered True sequenceSpans front kind ∨ Stray stop front t

theorem Interrupts.of_within
    (h : Within True statementSpans s.input (.error e s' : EStateM.Result SyntaxError State Stmt))
    (runsOn : stop s.next.kind = false) : Interrupts stop s.input e s' := by
  intro t ht
  obtain ⟨next, place, front, hinput, viable, named⟩ := h t ht
  refine ⟨next, place, front, hinput, viable.mono statement_le, ?_,
    fun kind hkind => .inl ((named kind hkind).mono statement_le)⟩
  rintro rfl
  rwa [← next, Rule.next_of_head?_eq (congrArg List.head? hinput).symm]

theorem Interrupts.within (h : Interrupts stop ts e s')
    (stops : ∀ kind, kind = .dedent ∨ kind = .eof → stop kind = true) :
    Within True sequenceSpans ts (.error e s' : EStateM.Result SyntaxError State Block) := by
  intro t ht
  obtain ⟨next, place, front, hinput, viable, -, named⟩ := h t ht
  refine ⟨next, place, front, hinput, viable, fun kind hkind => (named kind hkind).resolve_right ?_⟩
  exact fun stray => nomatch (stops _ stray.closing).symm.trans stray.runsOn

theorem Interrupts.blank {vs : List Token} (blank : Newlines ts vs) (h : Interrupts stop vs e s') :
    Interrupts stop ts e s' := by
  intro t ht
  obtain ⟨next, place, front, rfl, viable, runsOn, named⟩ := h t ht
  obtain ⟨span, hspan, rfl⟩ := blank.exists_span
  refine ⟨next, place, span ++ front, (List.append_assoc ..).symm,
    (viable.behind hspan).mono blank_le,
    fun unread => runsOn (List.append_eq_nil_iff.1 unread).2, fun kind hkind => ?_⟩
  refine (named kind hkind).imp (fun offered => (offered.behind hspan).mono blank_le) fun stray =>
    ?_
  exact ⟨blank_le (Language.append_mem_mul hspan stray.statements), stray.inLine.append span,
    stray.closing, stray.runsOn⟩

/-- An error behind a first statement. Only where nothing was read behind it can what stands there
have been taken for its end. -/
theorem Interrupts.cons {a : Stmt} {vs : List Token} (blank : Newlines ts us)
    (first : Statement us a vs n) (more : Interrupts stop vs e s') : Interrupts stop ts e s' := by
  intro t ht
  obtain ⟨next, place, front, rfl, viable, runsOn, named⟩ := more t ht
  obtain ⟨span, hspan, rfl, goesOn⟩ := first.exists_span blank
  have viable_behind {back : List Token} (begun : back ≠ [])
      (fits : FitsBehind span (front ++ s'.input) back) (h : Viable sequenceSpans back) :
      Viable sequenceSpans (span ++ back) := by
    obtain ⟨more, hmore⟩ := h
    exact ⟨more, List.append_assoc .. ▸ goesOn begun fits hmore⟩
  have whole (h : front ∈ sequenceSpans) : span ++ front ∈ sequenceSpans := by
    cases front with
    | nil => rwa [List.append_nil]
    | cons u front =>
        rw [← List.append_nil (u :: front)] at h ⊢
        exact goesOn (List.cons_ne_nil _ _) (.inl (.inl rfl)) h
  refine ⟨next, place, span ++ front, (List.append_assoc ..).symm, ?viable,
    fun unread => runsOn (List.append_eq_nil_iff.1 unread).2, fun kind hkind => ?named⟩
  case viable =>
    cases front with
    | nil => exact (List.append_nil span).symm ▸ viable_of_mem hspan
    | cons u front => exact viable_behind (List.cons_ne_nil _ _) (.inl (.inl rfl)) viable
  case named =>
    by_cases taken : front = [] ∧ EndsInLine span ∧ Closing s'.input
    · obtain ⟨rfl, inLine, u, hu, closing⟩ := taken
      obtain ⟨us, hs'⟩ := s'.input_eq_next_cons
      obtain rfl : t = u := by
        rw [hs', next] at hu
        exact Option.some.inj hu
      rw [List.append_nil]
      exact .inr ⟨hspan, inLine, closing, runsOn rfl⟩
    · have fits (v : Token) : FitsBehind span (front ++ s'.input) (front ++ [v]) := by
        cases front with
        | nil => exact .inr fun h => taken ⟨rfl, h⟩
        | cons u front => exact .inl (.inl rfl)
      have begun (v : Token) : front ++ [v] ≠ [] := by simp
      refine (named kind hkind).imp (fun offered => ?_) fun stray =>
        ⟨whole stray.statements, stray.inLine.append span, stray.closing, stray.runsOn⟩
      cases offered with
      | goesOn plain viable =>
          exact .goesOn plain (List.append_assoc .. ▸ viable_behind (begun _) (fits _) viable)
      | inBlock viable =>
          exact .inBlock (List.append_assoc .. ▸ viable_behind (begun _) (fits _) viable)
      | whole want closing phrase => exact .whole want closing (whole phrase)

theorem error_of_spaced (h : spaced stmt s = .error e s') : stmt s = .error e s' := by
  cases hs : stmt s with
  | ok a s₁ => exact nomatch (Rule.bind_of_ok hs).symm.trans h
  | error e₁ s₁ =>
      obtain ⟨he, rfl⟩ :=
        @result_inj _ (.error e₁) (.error e) _ _ ((Rule.bind_of_error hs).symm.trans h)
      cases he
      rfl

theorem manyUntil_interrupts (hs : stmt.Sound Statement (depth + 1))
    (hk : ∀ s, KeepsTo True stmt statementSpans s)
    (h : manyUntil stop (spaced stmt) s = .error e s') (blank : Newlines ts s.input) :
    Interrupts stop ts e s' := by
  fun_induction manyUntil stop (spaced stmt) s generalizing ts s' e with
  | case1 | case4 | case5 => contradiction
  | case2 s _ e after hstmt =>
      cases h
      have within := hk s
      rw [KeepsTo, error_of_spaced hstmt] at within
      exact .blank blank (.of_within within (by simpa using ‹¬ stop s.next.kind›))
  | case3 s _ a after hfirst less e last hmore ih =>
      cases h
      obtain ⟨s₁, hstmt, rfl⟩ := ok_of_spaced hfirst
      obtain ⟨n, -, ⟨first⟩⟩ := hs hstmt
      exact .cons blank first (ih hmore s₁.newlines_skipNewlines)

theorem statements_interrupts (hs : stmt.Sound Statement (depth + 1))
    (hk : ∀ s, KeepsTo True stmt statementSpans s) (h : statements stop stmt s = .error e s') :
    Interrupts stop s.input e s' :=
  manyUntil_interrupts hs hk h s.newlines_skipNewlines

theorem blockBody_keepsTo (hs : stmt.Sound Statement (depth + 1))
    (hk : ∀ s, KeepsTo True stmt statementSpans s) (s : State) :
    KeepsTo False (blockBody stmt) (sequenceSpans * single .dedent) s := by
  unfold KeepsTo
  cases hrun : statements (fun kind => kind = .dedent || kind = .eof) stmt s with
  | error e s₁ =>
      change Within _ _ _ ((statements _ stmt >>= _) s)
      rw [Rule.bind_of_error hrun]
      exact ((statements_interrupts hs hk hrun).within (by simp)).inBlockBody
  | ok b s₁ =>
      change Within _ _ _ ((statements _ stmt >>= _) s)
      rw [Rule.bind_of_ok hrun]
      obtain ⟨-, n, -, ⟨body⟩⟩ := statements_sound hs hrun
      split
      case isTrue empty =>
        obtain rfl := List.isEmpty_iff.1 empty
        cases body with
        | nil blank =>
            obtain ⟨span, hspan, hinput⟩ := blank.exists_span
            have begins : KeepsTo True (unexpected statementStart : Rule Block) sequenceSpans s₁ :=
              .mono statement_le (.unexpected offered_statementStart)
            rw [hinput]
            exact ((begins.behind hspan).mono blank_le).inBlockBody
      case isFalse nonempty =>
        obtain ⟨span, hspan, hinput⟩ := body.exists_span (by simpa using nonempty)
        rw [hinput]
        exact Within.behind (KeepsTo.map (.expect (by simp))) hspan

theorem statement_keepsTo (depth : Nat) (s : State) :
    KeepsTo True (statement depth) statementSpans s := by
  induction depth generalizing s with
  | zero => exact statementOver_keepsTo (expression_keepsTo 0) (fun _ => .tooDeep) s
  | succ depth ih =>
      exact statementOver_keepsTo (expression_keepsTo _)
        (blockBody_keepsTo (statement_sound depth) ih) s

end statements

/-- Parsing looks at the tokens up to the first end of the input. -/
theorem exists_input_append {tokens : List Token} (plain : ∀ t ∈ tokens, t.kind ≠ .comment)
    (ends : ∃ t ∈ tokens.getLast?, t.kind = .eof) :
    ∃ back, tokens = (State.ofTokens tokens).input ++ back := by
  obtain ⟨t, ht, kind⟩ := ends
  have hkept : Parser.kept tokens = tokens := by
    rw [Parser.kept, List.filter_eq_self.2 (by simpa using plain),
      if_pos ((Option.any_eq_true _ _).2 ⟨t, ht, decide_eq_true kind⟩)]
  exact ⟨_, hkept.symm.trans (State.kept_eq_input_append tokens)⟩

/-- Only the last token of the input is the end of it. -/
theorem State.kind_ne_eof_of_input {s : State} {front us : List Token} {t : Token}
    (h : s.input = front ++ t :: us) : ∀ u ∈ front, u.kind ≠ .eof := by
  have htokens : s.tokens = front ++ (t :: us).dropLast := by
    rw [← List.dropLast_append_of_ne_nil (List.cons_ne_nil t us), ← h, input, List.dropLast_concat]
  exact fun u hu => s.kind_ne_eof u (by simp [htokens, hu])

/-- The input of a list behind tokens that are neither comments nor ends of the input. -/
theorem exists_input_eq_append {front back : List Token} {t : Token}
    (plain : ∀ u ∈ front, u.kind ≠ .eof ∧ u.kind ≠ .comment) (ht : t.kind ≠ .comment) :
    ∃ rest, (State.ofTokens (front ++ t :: back)).input = front ++ rest ∧ rest.head? = some t := by
  obtain ⟨more, hkept⟩ := filter_prefix_kept (front ++ t :: back)
  rw [List.filter_append, List.filter_eq_self.2 (by simpa using fun u hu => (plain u hu).2),
    List.filter_cons_of_pos (by simpa using ht), List.append_assoc, List.cons_append] at hkept
  have hfront : ∀ u ∈ front, decide (u.kind ≠ .eof) = true := by
    simpa using fun u hu => (plain u hu).1
  simp only [State.input, State.ofTokens, ← hkept, List.takeWhile_append_of_pos hfront,
    List.append_assoc]
  refine ⟨_, rfl, ?_⟩
  by_cases kind : t.kind = .eof
  · rw [List.find?_append, List.find?_eq_none.2 (by simpa using hfront)]
    simp [kind]
  · simp [kind]

theorem parse_eq_error_iff {tokens : List Token} {e : SyntaxError} :
    parse tokens = .error e ↔
      ∃ s', statements (fun kind => kind = .eof) (statement maxNesting) (.ofTokens tokens) =
        .error e s' := by
  unfold parse
  cases hs : statements (fun kind => kind = .eof) (statement maxNesting) (.ofTokens tokens) with
  | ok b s' =>
      have hp : program (.ofTokens tokens) = .ok ⟨b⟩ s' := Rule.bind_of_ok hs
      simp [hp]
  | error e' s' =>
      have hp : program (.ofTokens tokens) = .error e' s' := Rule.bind_of_error hs
      simp [hp]

/-- The tokens of a program are the input of some state. -/
theorem Derivation.exists_state {ts : List Token} {p : Program} {n : Nat} :
    Derivation ts p n → ∃ s : State, s.input = ts
  | .intro (t := t) body ends => by
      obtain ⟨span, rfl, noEof, -⟩ := body.detaches
      exact ⟨{ tokens := span, eof := t, eof_kind := ends, kind_ne_eof := noEof }, rfl⟩

theorem exists_derivation_of_mem {span : List Token} (h : span ∈ sequenceSpans) :
    ∃ p n, Nonempty (Derivation (span ++ [specimen .eof]) p n) := by
  obtain ⟨b, n, -, reads⟩ := h
  obtain ⟨statements⟩ := reads [specimen .eof] ⟨_, rfl, .inr rfl⟩
  exact ⟨⟨b⟩, n, ⟨.intro statements rfl⟩⟩

theorem Viable.exists_derivation {front : List Token} (h : Viable sequenceSpans front) :
    ∃ more p n, Nonempty (Derivation (front ++ more) p n) := by
  obtain ⟨more, hmore⟩ := h
  obtain ⟨p, n, derivation⟩ := exists_derivation_of_mem hmore
  rw [List.append_assoc] at derivation
  exact ⟨_, p, n, derivation⟩

/-- With a token that is refused the tokens in front of it begin no program. -/
theorem isEmpty_derivation_of_refused {s s' : State} {e : SyntaxError} {found : Token}
    {front us ts : List Token} {p : Program} {n : Nat}
    (hrun : statements (fun kind => kind = .eof) (statement maxNesting) s = .error e s')
    (settled : e.found?.isSome) (hinput : s.input = front ++ s'.input)
    (hs' : s'.input = found :: us)
    (begins : (front ++ [found]).map Token.kind <+: ts.map Token.kind) :
    IsEmpty (Derivation ts p n) := by
  refine ⟨fun derivation => ?_⟩
  obtain ⟨kinds, hkinds⟩ := begins
  obtain ⟨t, ht⟩ := derivation.exists_state
  obtain ⟨statements, kind⟩ := derivation
  obtain ⟨t₁, hok, -⟩ := statements.reads (Nat.le_max_left n maxNesting) (stopsAt_eof kind) ht
  -- both runs stay what they are on specimens, and those begin in the same way
  obtain ⟨b, t₂, hok'⟩ := ok_specimens (statements_alike (statement_alike _)) hok
  obtain ⟨e', s₂, hrun', settled', hinput'⟩ :=
    refused_specimens (statements_alike (statement_alike _)) hrun settled
  obtain ⟨front', hfront', repeated⟩ := @statements_repeats _ _ _
    (statement_repeats (Nat.le_max_right n maxNesting)) _ _ (.error e') hrun' settled'
  rw [input_eq_map_of_alike (State.alike_specimens _), hinput, List.map_append, hinput'] at hfront'
  obtain rfl := List.append_cancel_right hfront'
  have hspecimens : t.specimens.input =
      front.map (specimen ·.kind) ++ (found.kind :: kinds).map specimen := by
    rw [input_eq_map_of_alike t.alike_specimens, ht]
    simpa [Function.comp_def] using (congrArg (List.map specimen) hkinds).symm
  obtain ⟨s₁, hrefused, -⟩ := repeated hspecimens (by rw [hinput', hs']; rfl)
  exact nomatch hrefused.symm.trans hok'

/-- A token that is refused could not have been refused earlier: the tokens in front of it go on to
a program. It could not have been read either: every list that begins in the same way is refused in
the same way, and no program begins with tokens of the same kinds. -/
theorem parse_refuses_earliest {tokens : List Token} {e : SyntaxError} {expected : List Token.Kind}
    {found : Token} (plain : ∀ t ∈ tokens, t.kind ≠ .comment)
    (ends : ∃ t ∈ tokens.getLast?, t.kind = .eof) (h : parse tokens = .error e)
    (refused : e.cause = .unexpectedToken expected found) :
    ∃ front back, tokens = front ++ found :: back ∧ e.location = found.location ∧
      (∀ back', parse (front ++ found :: back') = .error e) ∧
      (∃ more p n, Nonempty (Derivation (front ++ more) p n)) ∧
      ∀ ts p n, (front ++ [found]).map Token.kind <+: ts.map Token.kind →
        IsEmpty (Derivation ts p n) := by
  have hfound : found ∈ e.found? := by simp [SyntaxError.found?, refused]
  have settled : e.found?.isSome := Option.isSome_iff_exists.2 ⟨found, hfound⟩
  obtain ⟨s', hrun⟩ := parse_eq_error_iff.1 h
  obtain ⟨hnext, place, front, hinput, viable, -⟩ :=
    statements_interrupts (statement_sound maxNesting)
      (statement_keepsTo maxNesting) hrun found hfound
  obtain ⟨us, hs'⟩ := s'.input_eq_next_cons
  rw [hnext] at hs'
  obtain ⟨back, htokens⟩ := exists_input_append plain ends
  rw [hinput, hs', List.append_assoc, List.cons_append] at htokens
  refine ⟨front, us ++ back, htokens, place, fun back' => ?same, ?viable, ?stuck⟩
  case same =>
    obtain ⟨front', hinput', repeated⟩ := @statements_repeats _ _ _
      (statement_repeats (Nat.le_refl maxNesting)) _ _ (.error e) hrun settled
    obtain rfl := List.append_cancel_right (hinput.symm.trans hinput')
    have hfront : ∀ t ∈ front, t.kind ≠ .eof ∧ t.kind ≠ .comment := fun t ht =>
      ⟨State.kind_ne_eof_of_input (hs' ▸ hinput) t ht, plain t (by simp [htokens, ht])⟩
    have hplain : found.kind ≠ .comment := plain found (by simp [htokens])
    obtain ⟨rest, hs, hrest⟩ := @exists_input_eq_append front back' found hfront hplain
    obtain ⟨s₁, hrefused, -⟩ := repeated hs (by rw [hrest, hs', List.head?_cons])
    exact parse_eq_error_iff.2 ⟨s₁, hrefused⟩
  case viable => exact viable.exists_derivation
  case stuck =>
      exact fun ts p n begins => isEmpty_derivation_of_refused hrun settled hinput hs' begins

/-- The loop of `countdown` with `muestra x` in place of its condition. -/
def unfinishedLoop : List Token :=
  countdown.take 12 ++
    [⟨.keyword .muestra, "muestra", ⟨4, 1⟩⟩, ⟨.identifier, "x", ⟨4, 9⟩⟩, ⟨.eof, "", ⟨4, 10⟩⟩]

theorem parse_unfinishedLoop_refuses_earliest :
    ∃ e found, parse unfinishedLoop = .error e ∧
      e.cause = .unexpectedToken [.keyword .mientras] found ∧
      ∃ front back, unfinishedLoop = front ++ found :: back ∧ e.location = found.location ∧
        (∀ back', parse (front ++ found :: back') = .error e) ∧
        (∃ more p n, Nonempty (Derivation (front ++ more) p n)) ∧
        ∀ ts p n, (front ++ [found]).map Token.kind <+: ts.map Token.kind →
          IsEmpty (Derivation ts p n) := by
  have h : parse unfinishedLoop =
      .error ⟨.unexpectedToken [.keyword .mientras] ⟨.keyword .muestra, "muestra", ⟨4, 1⟩⟩,
          ⟨4, 1⟩⟩ := by
    cbv
  exact ⟨_, _, h, rfl, parse_refuses_earliest (by decide) ⟨_, rfl, rfl⟩ h rfl⟩

end PasoFrontEnd.Grammar
