import PasoFrontEnd.Proofs.Grammar.Soundness

/-!
The tokens of a phrase. What a derivation reads from the head of a list it reads in front of any
other rest too; only a statement without a newline of its own asks for the end of a block or of the
input behind it. So the tokens of a phrase can be spoken of apart from the list that they stand in,
and the end of the input is never one of them.
-/

namespace PasoFrontEnd.Grammar

/-- The tokens are those of an expression, whatever stands behind them. -/
def Spells (rank : Nat) (span : List Token) (e : Expr) (n : Nat) : Prop :=
  ∀ rest, Expression rank (span ++ rest) e rest n

variable {rank n : Nat} {ts rest : List Token}

theorem Expression.mono {rank' : Nat} {e : Expr} (h : Expression rank ts e rest n)
    (le : rank ≤ rank') : Expression rank' ts e rest n := by
  induction le with
  | refl => exact h
  | step _ ih => exact ih.operand

/-- Expressions by their own tokens: a derivation reads some tokens from the head of its list, and
these are made of the tokens of its parts. -/
theorem Expression.span_induction {motive : Nat → List Token → Expr → Nat → Prop}
    (literal : ∀ {t value}, Writes t value → motive 0 [t] (.literal value t.location) 0)
    (named : ∀ {t : Token}, t.kind = .identifier → motive 0 [t] (.named t.lexeme t.location) 0)
    (group : ∀ {o c : Token} {span e n}, o.kind = .symbol .openParen → Spells 6 span e n →
      motive 6 span e n → c.kind = .symbol .closeParen → motive 0 (o :: span ++ [c]) e (n + 1))
    (negation : ∀ {m : Token} {span e n}, m.kind = .symbol .minus → Spells 0 span e n →
      motive 0 span e n → motive 0 (m :: span) (.negation e m.location) (n + 1))
    (operand : ∀ {rank span e n}, motive rank span e n → motive (rank + 1) span e n)
    (operation : ∀ {t : Token} {op : BinaryOp} {rank left l right r n m},
      Spells (rank + 1) left l n → motive (rank + 1) left l n →
      Operator (rank + 1) t.kind op → Spells rank right r m → motive rank right r m →
      motive (rank + 1) (left ++ t :: right) (.operation op l r t.location) (max n m))
    {e : Expr} (h : Expression rank ts e rest n) :
    ∃ span, ts = span ++ rest ∧ Spells rank span e n ∧ motive rank span e n := by
  induction h with
  | @literal t _ _ writes => exact ⟨[t], rfl, fun _ => .literal writes, literal writes⟩
  | @named t _ name => exact ⟨[t], rfl, fun _ => .named name, named name⟩
  | @group o _ _ c _ _ opening _ closing ih =>
      obtain ⟨span, rfl, spells, inner⟩ := ih
      refine ⟨o :: span ++ [c], by simp, fun rest => ?_, group opening spells inner closing⟩
      have whole := Expression.group opening (spells (c :: rest)) closing
      rwa [List.append_cons] at whole
  | @negation m _ _ _ _ sign _ ih =>
      obtain ⟨span, rfl, spells, inner⟩ := ih
      exact ⟨m :: span, rfl, fun rest => .negation sign (spells rest), negation sign spells inner⟩
  | operand _ ih =>
      obtain ⟨span, rfl, spells, inner⟩ := ih
      exact ⟨span, rfl, fun rest => .operand (spells rest), operand inner⟩
  | @operation _ _ _ t _ _ _ _ _ _ _ operator _ ihl ihr =>
      obtain ⟨left, rfl, spellsLeft, innerLeft⟩ := ihl
      obtain ⟨right, rfl, spellsRight, innerRight⟩ := ihr
      refine ⟨left ++ t :: right, by simp, fun rest => ?_,
        operation spellsLeft innerLeft operator spellsRight innerRight⟩
      rw [List.append_assoc]
      exact .operation (spellsLeft _) operator (spellsRight rest)

/-- The tokens in front of the rest are no ends of the input, and in front of every other rest that
fits they are read as well. -/
def Detaches (fits : List Token → Prop) (R : List Token → List Token → Prop)
    (ts rest : List Token) :
    Prop :=
  ∃ span, ts = span ++ rest ∧ (∀ t ∈ span, t.kind ≠ .eof) ∧
    ∀ rest', fits rest' → R (span ++ rest') rest'

theorem Expression.detaches {e : Expr} (h : Expression rank ts e rest n) :
    Detaches (fun _ => True) (Expression rank · e · n) ts rest := by
  suffices parts : ∃ span, ts = span ++ rest ∧ Spells rank span e n ∧ ∀ t ∈ span, t.kind ≠ .eof by
    obtain ⟨span, hts, spells, inner⟩ := parts
    exact ⟨span, hts, inner, fun rest' _ => spells rest'⟩
  refine h.span_induction (motive := fun _ span _ _ => ∀ t ∈ span, t.kind ≠ .eof)
    ?literal ?named ?group ?negation ?operand ?operation
  case literal =>
    intro t value writes
    simpa using writes.kind_ne_eof
  case named =>
    intro t name
    simp [name]
  case group =>
    intro o c span e n opening _ inner closing
    simpa [opening, closing, or_imp, forall_and] using inner
  case negation =>
    intro m span e n sign _ inner
    simpa [sign] using inner
  case operand =>
    intro rank span e n inner
    exact inner
  case operation =>
    intro t op rank left l right r n m _ innerLeft operator _ innerRight
    have kind : t.kind ≠ .eof := operator.kind_eq ▸ kind_ne_eof op
    simpa [kind, or_imp, forall_and] using ⟨innerLeft, innerRight⟩

theorem Condition.detaches {c : Expr} :
    Condition ts c rest n → Detaches (fun _ => True) (Condition · c · n) ts rest
  | .intro (o := o) (c := c) opening inner closing => by
      obtain ⟨span, rfl, noEof, reads⟩ := inner.detaches
      refine ⟨o :: span ++ [c], by simp, ?_, fun rest' _ => ?_⟩
      · simpa [opening, closing, or_imp, forall_and] using noEof
      · rw [List.append_assoc]
        exact .intro opening (reads (c :: rest') trivial) closing

theorem Newlines.detaches (h : Newlines ts rest) : Detaches (fun _ => True) Newlines ts rest := by
  induction h with
  | none => exact ⟨[], rfl, by simp, fun _ _ => .none⟩
  | @cons t _ _ newline _ ih =>
      obtain ⟨span, rfl, noEof, reads⟩ := ih
      exact ⟨t :: span, rfl, by simpa [newline] using noEof,
        fun rest' _ => .cons newline (reads rest' trivial)⟩

/-- The end of a block or of the input comes next. -/
def Closing (rest : List Token) : Prop := ∃ t ∈ rest.head?, t.kind = .dedent ∨ t.kind = .eof

/-- What can stand in front of the first list can stand in front of the second one. -/
def Fits (rest rest' : List Token) : Prop := rest'.head? = rest.head? ∨ Closing rest'

theorem Fits.append {rest' : List Token} (h : Fits rest rest') (span : List Token) :
    Fits (span ++ rest) (span ++ rest') := by
  cases span with
  | nil => exact h
  | cons t span => exact .inl rfl

/-- The last token is none that marks structure. -/
def EndsInLine (span : List Token) : Prop :=
  ∃ front t, span = front ++ [t] ∧ t.kind.isStructural = false

theorem EndsInLine.append {span : List Token} (h : EndsInLine span) (front : List Token) :
    EndsInLine (front ++ span) := by
  obtain ⟨front', t, rfl, inLine⟩ := h
  exact ⟨front ++ front', t, (List.append_assoc ..).symm, inLine⟩

theorem Spells.endsInLine {span : List Token} {e : Expr} (h : Spells rank span e n) :
    EndsInLine span := by
  suffices parts : ∃ span', span ++ [] = span' ++ [] ∧ Spells rank span' e n ∧ EndsInLine span' by
    obtain ⟨span', whole, -, inLine⟩ := parts
    rwa [List.append_cancel_right whole]
  refine (h []).span_induction (motive := fun _ span _ _ => EndsInLine span)
    ?literal ?named ?group ?negation ?operand ?operation
  case literal =>
    intro t value writes
    exact ⟨[], t, rfl, by cases writes <;> simp [*, Token.Kind.isStructural]⟩
  case named => exact fun {t} name => ⟨[], t, rfl, by simp [name, Token.Kind.isStructural]⟩
  case group =>
    intro o c span _ _ _ _ _ closing
    exact ⟨o :: span, c, rfl, by simp [closing, Token.Kind.isStructural]⟩
  case negation => exact fun {m _ _ _} _ _ inner => inner.append [m]
  case operand => exact fun inner => inner
  case operation =>
    intro t _ _ left _ _ _ _ _ _ _ _ _ innerRight
    exact List.append_cons left t _ ▸ innerRight.append (left ++ [t])

theorem Condition.endsInLine {span : List Token} {c : Expr} :
    Condition (span ++ []) c [] n → EndsInLine span := by
  rw [List.append_nil]
  intro h
  cases h with
  | @intro o _ _ c _ _ _ inner closing =>
      obtain ⟨v, rfl, -, -⟩ := inner.detaches
      exact ⟨o :: v, c, rfl, by simp [closing, Token.Kind.isStructural]⟩

/-- What can stand behind a phrase in place of what stands there: anything, unless the phrase is in
need of an end and takes what stands there for one. -/
def FitsBehind (span rest rest' : List Token) : Prop :=
  Fits rest rest' ∨ ¬ (EndsInLine span ∧ Closing rest)

theorem LineEnd.detaches {front : List Token} (inLine : EndsInLine front) : LineEnd ts rest →
    ∃ span, ts = span ++ rest ∧ (∀ t ∈ span, t.kind ≠ .eof) ∧
      ∀ rest', FitsBehind (front ++ span) rest rest' → LineEnd (span ++ rest') rest'
  | .newline (t := t) kind => ⟨[t], rfl, by simp [kind], fun _ _ => .newline kind⟩
  | .ahead closing => by
      refine ⟨[], rfl, by simp, fun rest' fits => ?_⟩
      rw [List.append_nil] at fits
      obtain ⟨u, hu, kind⟩ : Closing rest' := by
        obtain same | closing' := fits.resolve_right (not_not_intro ⟨inLine, _, rfl, closing⟩)
        · exact ⟨_, same, closing⟩
        · exact closing'
      obtain ⟨us, rfl⟩ := List.head?_eq_some_iff.1 hu
      exact .ahead kind

mutual

/-- A statement that ends with a newline or with a block is read in front of anything. -/
theorem Statement.detaches_behind {ts rest n} {s : Stmt} :
    Statement ts s rest n → ∃ span, ts = span ++ rest ∧ (∀ t ∈ span, t.kind ≠ .eof) ∧
      ∀ rest', FitsBehind span rest rest' → Nonempty (Statement (span ++ rest') s rest' n)
  | .assignment (t := t) (a := a) name assign value ends => by
      obtain ⟨v, rfl, hv, readsValue⟩ := value.detaches
      have inLine := Spells.endsInLine fun rest => readsValue rest trivial
      obtain ⟨w, rfl, hw, readsEnd⟩ := ends.detaches (inLine.append [t, a])
      refine ⟨t :: a :: v ++ w, by simp, ?_, fun rest' fits => ?_⟩
      · simpa [name, assign, or_imp, forall_and] using ⟨hv, hw⟩
      · rw [List.append_assoc]
        exact ⟨.assignment name assign (readsValue _ trivial) (readsEnd rest' fits)⟩
  | .declaration (t := t) (i := i) typed name ends => by
      have inLine : EndsInLine [t, i] := ⟨[t], i, rfl, by simp [name, Token.Kind.isStructural]⟩
      obtain ⟨w, rfl, hw, readsEnd⟩ := ends.detaches inLine
      refine ⟨t :: i :: w, rfl, ?_, fun rest' fits => ?_⟩
      · simpa [name, typed] using hw
      · exact ⟨.declaration typed name (readsEnd rest' fits)⟩
  | .initialized (t := t) (i := i) (a := a) typed name assign value ends => by
      obtain ⟨v, rfl, hv, readsValue⟩ := value.detaches
      have inLine := Spells.endsInLine fun rest => readsValue rest trivial
      obtain ⟨w, rfl, hw, readsEnd⟩ := ends.detaches (inLine.append [t, i, a])
      refine ⟨t :: i :: a :: v ++ w, by simp, ?_, fun rest' fits => ?_⟩
      · simpa [typed, name, assign, or_imp, forall_and] using ⟨hv, hw⟩
      · rw [List.append_assoc]
        exact ⟨.initialized typed name assign (readsValue _ trivial) (readsEnd rest' fits)⟩
  | .print (t := t) muestra value ends => by
      obtain ⟨v, rfl, hv, readsValue⟩ := value.detaches
      have inLine := Spells.endsInLine fun rest => readsValue rest trivial
      obtain ⟨w, rfl, hw, readsEnd⟩ := ends.detaches (inLine.append [t])
      refine ⟨t :: v ++ w, by simp, ?_, fun rest' fits => ?_⟩
      · simpa [muestra, or_imp, forall_and] using ⟨hv, hw⟩
      · rw [List.append_assoc]
        exact ⟨.print muestra (readsValue _ trivial) (readsEnd rest' fits)⟩
  | .branch (t := t) si condition body => by
      obtain ⟨b, hbody, hb, readsBody⟩ := body.detaches
      obtain ⟨c, hcondition, hc, readsCondition⟩ := condition.detaches
      refine ⟨t :: c ++ b, by simp [hcondition, hbody], ?_, fun rest' _ => ?_⟩
      · simpa [si, or_imp, forall_and] using ⟨hc, hb⟩
      · obtain ⟨body'⟩ := readsBody rest' trivial
        rw [List.append_assoc]
        exact ⟨.branch si (readsCondition _ trivial) body'⟩
  | .branchElse (t := t) (o := o) si condition body other otherwise => by
      obtain ⟨b, hbody, hb, readsBody⟩ := body.detaches
      obtain ⟨d, hother, hd, readsOther⟩ := otherwise.detaches
      obtain ⟨c, hcondition, hc, readsCondition⟩ := condition.detaches
      have kind : o.kind ≠ .eof := by obtain kind | kind := other <;> simp [kind]
      refine ⟨t :: c ++ (b ++ o :: d), by simp [hcondition, hbody, hother], ?_, fun rest' _ => ?_⟩
      · simpa [si, kind, or_imp, forall_and] using ⟨hc, hb, hd⟩
      · obtain ⟨otherwise'⟩ := readsOther rest' trivial
        obtain ⟨body'⟩ := readsBody (o :: d ++ rest') trivial
        rw [List.append_assoc, List.append_assoc]
        exact ⟨.branchElse si (readsCondition _ trivial) body' other otherwise'⟩
  | .loop (t := t) mientras condition body => by
      obtain ⟨b, hbody, hb, readsBody⟩ := body.detaches
      obtain ⟨c, hcondition, hc, readsCondition⟩ := condition.detaches
      refine ⟨t :: c ++ b, by simp [hcondition, hbody], ?_, fun rest' _ => ?_⟩
      · simpa [mientras, or_imp, forall_and] using ⟨hc, hb⟩
      · obtain ⟨body'⟩ := readsBody rest' trivial
        rw [List.append_assoc]
        exact ⟨.loop mientras (readsCondition _ trivial) body'⟩
  | .doLoop (t := t) (w := w) haz body mientras condition ends => by
      obtain ⟨b, hbody, hb, readsBody⟩ := body.detaches
      obtain ⟨c, hcondition, hc, readsCondition⟩ := condition.detaches
      have inLine := (readsCondition [] trivial).endsInLine
      obtain ⟨l, hends, hl, readsEnd⟩ := ends.detaches (inLine.append (t :: b ++ [w]))
      refine ⟨t :: b ++ (w :: c ++ l), by simp [hbody, hcondition, hends], ?_, fun rest' fits => ?_⟩
      · simpa [haz, mientras, or_imp, forall_and] using ⟨hb, hc, hl⟩
      · obtain ⟨body'⟩ := readsBody (w :: (c ++ (l ++ rest'))) trivial
        have ends' := readsEnd rest' (by simpa using fits)
        rw [List.append_assoc, List.append_assoc]
        exact ⟨.doLoop haz body' mientras (readsCondition _ trivial) ends'⟩

theorem IndentedBlock.detaches {ts rest n} {b : Block} :
    IndentedBlock ts b rest n →
      Detaches (fun _ => True) (fun ts rest => Nonempty (IndentedBlock ts b rest n)) ts rest
  | .intro (t := t) (i := i) (d := d) newline more opened body nonempty closed => by
      obtain ⟨v, hbody, hv, readsBody⟩ := body.detaches
      obtain ⟨w, hmore, hw, readsMore⟩ := more.detaches
      refine ⟨t :: w ++ (i :: v ++ [d]), by simp [hmore, hbody], ?_, fun rest' _ => ?_⟩
      · simpa [newline, opened, closed, or_imp, forall_and] using ⟨hw, hv⟩
      · obtain ⟨body'⟩ := readsBody (d :: rest') (.inl rfl)
        rw [List.append_assoc, List.append_assoc]
        exact ⟨.intro newline (readsMore _ trivial) opened body' nonempty closed⟩

theorem Statements.detaches {ts rest n} {b : Block} :
    Statements ts b rest n →
      Detaches (Fits rest) (fun ts rest => Nonempty (Statements ts b rest n)) ts rest
  | .nil blank => by
      obtain ⟨v, rfl, hv, readsBlank⟩ := blank.detaches
      exact ⟨v, rfl, hv, fun rest' _ => ⟨.nil (readsBlank rest' trivial)⟩⟩
  | .cons blank first more => by
      obtain ⟨w, hmore, hw, readsMore⟩ := more.detaches
      obtain ⟨s, hfirst, hs, readsFirst⟩ := first.detaches_behind
      obtain ⟨v, hblank, hv, readsBlank⟩ := blank.detaches
      refine ⟨v ++ (s ++ w), by simp [hblank, hfirst, hmore], ?_, fun rest' fits => ?_⟩
      · simpa [or_imp, forall_and] using ⟨hv, hs, hw⟩
      · rw [hmore] at readsFirst
        obtain ⟨more'⟩ := readsMore rest' fits
        obtain ⟨first'⟩ := readsFirst (w ++ rest') (.inl (fits.append w))
        rw [List.append_assoc, List.append_assoc]
        exact ⟨.cons (readsBlank _ trivial) first' more'⟩

end

end PasoFrontEnd.Grammar
