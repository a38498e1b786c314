import Mathlib
import PasoFrontEnd.Proofs.Grammar.Completeness
import PasoFrontEnd.Proofs.Grammar.Locality

/-!
The phrases of the grammar as languages over tokens, and how phrases are made of smaller ones. A
statement counts as a phrase if it can stand in front of the end of a block or of the input; behind
it, more statements may ask for a newline that it does not have.
-/

namespace PasoFrontEnd.Grammar

def single (kind : Token.Kind) : Language Token := {span | ∃ t : Token, span = [t] ∧ t.kind = kind}

def expressionSpans (rank : Nat) : Language Token := {span | ∃ e n, Spells rank span e n}

def conditionSpans : Language Token := {span | ∃ c n, ∀ rest, Condition (span ++ rest) c rest n}

def newlineSpans : Language Token := {span | ∀ rest, Newlines (span ++ rest) rest}

def lineEndSpans : Language Token := {span | ∀ rest, Closing rest → LineEnd (span ++ rest) rest}

def blockSpans : Language Token :=
  {span | ∃ b n, ∀ rest, Nonempty (IndentedBlock (span ++ rest) b rest n)}

def statementSpans : Language Token :=
  {span | ∃ a n, ∀ rest, Closing rest → Nonempty (Statement (span ++ rest) a rest n)}

/-- At least one statement. -/
def sequenceSpans : Language Token :=
  {span | ∃ b n, b ≠ [] ∧ ∀ rest, Closing rest → Nonempty (Statements (span ++ rest) b rest n)}

def initializerSpans : Language Token := 1 + single (.symbol .assign) * expressionSpans 6

def otherwiseSpans : Language Token :=
  1 + (single (.keyword .siNo) + single (.keyword .deLoContrario)) * blockSpans

theorem Newlines.exists_span {ts rest : List Token} (h : Newlines ts rest) :
    ∃ span ∈ newlineSpans, ts = span ++ rest := by
  obtain ⟨span, hts, -, newlines⟩ := h.detaches
  exact ⟨span, fun rest => newlines rest trivial, hts⟩

theorem singleton_mem_single {t : Token} {kind : Token.Kind} (h : t.kind = kind) :
    [t] ∈ single kind :=
  ⟨t, rfl, h⟩

theorem expressionSpans_le_succ (rank : Nat) :
    expressionSpans rank ≤ expressionSpans (rank + 1) := by
  rintro span ⟨e, n, spells⟩
  exact ⟨e, n, fun rest => .operand (spells rest)⟩

theorem singleton_mem_expressionSpans {t : Token} {value : Literal} (writes : Writes t value) :
    [t] ∈ expressionSpans 0 :=
  ⟨_, _, fun _ => .literal writes⟩

theorem name_le : single .identifier ≤ expressionSpans 0 := by
  rintro _ ⟨t, rfl, name⟩
  exact ⟨_, _, fun _ => .named name⟩

theorem negation_le :
    single (.symbol .minus) * expressionSpans 0 ≤ expressionSpans 0 := by
  rintro _ ⟨_, ⟨t, rfl, sign⟩, span, ⟨e, n, spells⟩, rfl⟩
  exact ⟨_, _, fun rest => .negation sign (spells rest)⟩

theorem group_le :
    single (.symbol .openParen) * (expressionSpans 6 * single (.symbol .closeParen)) ≤
      expressionSpans 0 := by
  rintro _ ⟨_, ⟨o, rfl, opening⟩, _, ⟨span, ⟨e, n, spells⟩, _, ⟨c, rfl, closing⟩, rfl⟩, rfl⟩
  refine ⟨e, n + 1, fun rest => ?_⟩
  simp only [List.append_assoc]
  exact .group opening (spells _) closing

theorem operation_le {kind : Token.Kind} {op : BinaryOp} {rank : Nat}
    (operator : Operator (rank + 1) kind op) :
    expressionSpans (rank + 1) * (single kind * expressionSpans rank) ≤
      expressionSpans (rank + 1) := by
  rintro _ ⟨v, ⟨l, n, left⟩, _, ⟨_, ⟨t, rfl, rfl⟩, w, ⟨r, m, right⟩, rfl⟩, rfl⟩
  refine ⟨.operation op l r t.location, max n m, fun rest => ?_⟩
  simp only [List.append_assoc]
  exact .operation (left _) operator (right rest)

theorem condition_le :
    single (.symbol .openParen) * (expressionSpans 6 * single (.symbol .closeParen)) ≤
      conditionSpans := by
  rintro _ ⟨_, ⟨o, rfl, opening⟩, _, ⟨span, ⟨e, n, spells⟩, _, ⟨c, rfl, closing⟩, rfl⟩, rfl⟩
  refine ⟨e, n + 1, fun rest => ?_⟩
  simp only [List.append_assoc]
  exact .intro opening (spells _) closing

theorem block_le :
    single .newline * (newlineSpans * (single .indent * (sequenceSpans * single .dedent))) ≤
      blockSpans := by
  rintro _ ⟨_, ⟨t, rfl, newline⟩, _, ⟨blank, more, _, ⟨_, ⟨i, rfl, opened⟩, _,
    ⟨span, ⟨b, n, nonempty, body⟩, _, ⟨d, rfl, closed⟩, rfl⟩, rfl⟩, rfl⟩, rfl⟩
  refine ⟨b, n + 1, fun rest => ?_⟩
  obtain ⟨statements⟩ := body ([d] ++ rest) ⟨d, rfl, .inl closed⟩
  simp only [List.append_assoc]
  exact ⟨.intro newline (more _) opened statements nonempty closed⟩

theorem print_le :
    single (.keyword .muestra) * (expressionSpans 6 * lineEndSpans) ≤ statementSpans := by
  rintro _ ⟨_, ⟨t, rfl, muestra⟩, _, ⟨span, ⟨e, n, spells⟩, last, ends, rfl⟩, rfl⟩
  refine ⟨.print e t.location, n + 1, fun rest closing => ?_⟩
  simp only [List.append_assoc]
  exact ⟨.print muestra (spells _) (ends rest closing)⟩

theorem assignment_le :
    single .identifier * (single (.symbol .assign) * (expressionSpans 6 * lineEndSpans)) ≤
      statementSpans := by
  rintro _ ⟨_, ⟨t, rfl, name⟩, _, ⟨_, ⟨a, rfl, assign⟩, _, ⟨span, ⟨e, n, spells⟩, last, ends, rfl⟩,
    rfl⟩, rfl⟩
  refine ⟨.assignment t.lexeme e t.location, n + 1, fun rest closing => ?_⟩
  simp only [List.append_assoc]
  exact ⟨.assignment name assign (spells _) (ends rest closing)⟩

theorem declaration_le {type : ValueType} :
    single (.keyword (.typeName type)) * (single .identifier * (initializerSpans * lineEndSpans)) ≤
      statementSpans := by
  rintro _ ⟨_, ⟨t, rfl, typed⟩, _, ⟨_, ⟨i, rfl, name⟩, _, ⟨init, hinit, last, ends, rfl⟩, rfl⟩, rfl⟩
  obtain rfl | ⟨_, ⟨a, rfl, assign⟩, span, ⟨e, n, spells⟩, rfl⟩ := hinit
  · exact ⟨.declaration type i.lexeme none t.location, 0, fun rest closing =>
      ⟨.declaration typed name (ends rest closing)⟩⟩
  · refine ⟨.declaration type i.lexeme (some e) t.location, n + 1, fun rest closing => ?_⟩
    simp only [List.append_assoc]
    exact ⟨.initialized typed name assign (spells _) (ends rest closing)⟩

theorem loop_le :
    single (.keyword .mientras) * (conditionSpans * blockSpans) ≤ statementSpans := by
  rintro _ ⟨_, ⟨t, rfl, mientras⟩, _, ⟨u, ⟨c, n, condition⟩, v, ⟨b, m, body⟩, rfl⟩, rfl⟩
  refine ⟨.loop c b t.location, max n m, fun rest _ => ?_⟩
  obtain ⟨block⟩ := body rest
  simp only [List.append_assoc]
  exact ⟨.loop mientras (condition _) block⟩

theorem doLoop_le :
    single (.keyword .haz) *
        (blockSpans * (single (.keyword .mientras) * (conditionSpans * lineEndSpans))) ≤
      statementSpans := by
  rintro _ ⟨_, ⟨t, rfl, haz⟩, _, ⟨v, ⟨b, n, body⟩, _, ⟨_, ⟨w, rfl, mientras⟩, _,
    ⟨u, ⟨c, m, condition⟩, last, ends, rfl⟩, rfl⟩, rfl⟩, rfl⟩
  refine ⟨.doLoop b c t.location, max n m, fun rest closing => ?_⟩
  obtain ⟨block⟩ := body ([w] ++ (u ++ (last ++ rest)))
  simp only [List.append_assoc]
  exact ⟨.doLoop haz block mientras (condition _) (ends rest closing)⟩

theorem branch_le :
    single (.keyword .si) * (conditionSpans * (blockSpans * otherwiseSpans)) ≤ statementSpans := by
  rintro _ ⟨_, ⟨t, rfl, si⟩, _, ⟨u, ⟨c, n, condition⟩, _, ⟨v, ⟨b, m, body⟩, other, hother, rfl⟩,
    rfl⟩, rfl⟩
  obtain rfl | ⟨word, hword, w, ⟨b', k, otherwise⟩, rfl⟩ := hother
  · refine ⟨.branch c b none t.location, max n m, fun rest _ => ?_⟩
    obtain ⟨block⟩ := body rest
    simp only [List.append_assoc]
    exact ⟨.branch si (condition _) block⟩
  · obtain ⟨o, rfl, kind⟩ :
        ∃ o : Token, word = [o] ∧ (o.kind = .keyword .siNo ∨ o.kind = .keyword .deLoContrario) := by
      obtain ⟨o, rfl, kind⟩ | ⟨o, rfl, kind⟩ := hword
      · exact ⟨o, rfl, .inl kind⟩
      · exact ⟨o, rfl, .inr kind⟩
    refine ⟨.branch c b (some b') t.location, max n (max m k), fun rest _ => ?_⟩
    obtain ⟨second⟩ := otherwise rest
    obtain ⟨first⟩ := body ([o] ++ (w ++ rest))
    simp only [List.append_assoc]
    exact ⟨.branchElse si (condition _) first kind second⟩

theorem statement_le : statementSpans ≤ sequenceSpans := by
  rintro span ⟨a, n, reads⟩
  refine ⟨[a], max n 0, List.cons_ne_nil _ _, fun rest closing => ?_⟩
  obtain ⟨statement⟩ := reads rest closing
  exact ⟨.cons .none statement (.nil .none)⟩

theorem blank_le : newlineSpans * sequenceSpans ≤ sequenceSpans := by
  rintro _ ⟨blank, before, span, ⟨b, n, nonempty, reads⟩, rfl⟩
  refine ⟨b, n, nonempty, fun rest closing => ?_⟩
  rw [List.append_assoc]
  obtain ⟨statements⟩ := reads rest closing
  cases statements with
  | nil => exact absurd rfl nonempty
  | cons blank first more => exact ⟨.cons ((before _).trans blank) first more⟩

/-- The language has a phrase at all. -/
class Phrased (L : Language Token) : Prop where
  exists_mem : ∃ span, span ∈ L

section Phrased

variable {L M : Language Token}

theorem Phrased.of_le (le : L ≤ M) [Phrased L] : Phrased M :=
  ⟨(Phrased.exists_mem (L := L)).imp fun _ h => le h⟩

instance [Phrased L] [Phrased M] : Phrased (L * M) := by
  obtain ⟨span, h⟩ := Phrased.exists_mem (L := L)
  obtain ⟨span', h'⟩ := Phrased.exists_mem (L := M)
  exact ⟨_, Language.append_mem_mul h h'⟩

instance (kind : Token.Kind) : Phrased (single kind) := ⟨[⟨kind, "", {}⟩], singleton_mem_single rfl⟩

instance (rank : Nat) : Phrased (expressionSpans rank) :=
  ⟨[⟨.keyword .nulo, "", {}⟩], _, _, fun _ => (Expression.literal (.nulo rfl)).loosened⟩

instance : Phrased conditionSpans := .of_le condition_le

instance : Phrased newlineSpans := ⟨[], fun _ => .none⟩

instance : Phrased lineEndSpans := ⟨[⟨.newline, "", {}⟩], fun _ _ => .newline rfl⟩

instance : Phrased statementSpans := .of_le print_le

instance : Phrased sequenceSpans := .of_le statement_le

instance : Phrased blockSpans := .of_le block_le

instance : Phrased initializerSpans := ⟨[], .inl rfl⟩

instance : Phrased otherwiseSpans := ⟨[], .inl rfl⟩

end Phrased

/-- The tokens begin a phrase of the language. -/
def Viable (L : Language Token) (front : List Token) : Prop := ∃ more, front ++ more ∈ L

section Viable

variable {L M : Language Token} {front span : List Token}

theorem Viable.mono (h : Viable L front) (le : L ≤ M) : Viable M front :=
  h.imp fun _ hmore => le hmore

theorem viable_of_mem (h : span ∈ L) : Viable L span :=
  ⟨[], by rwa [List.append_nil]⟩

theorem viable_nil [Phrased L] : Viable L [] :=
  Phrased.exists_mem

theorem Viable.mul (h : Viable L front) [Phrased M] : Viable (L * M) front := by
  obtain ⟨more, hmore⟩ := h
  obtain ⟨span, hspan⟩ := Phrased.exists_mem (L := M)
  exact ⟨more ++ span, by
    rw [← List.append_assoc]
    exact Language.append_mem_mul hmore hspan⟩

theorem Viable.behind (h : Viable M front) (hspan : span ∈ L) : Viable (L * M) (span ++ front) := by
  obtain ⟨more, hmore⟩ := h
  exact ⟨more, by
    rw [List.append_assoc]
    exact Language.append_mem_mul hspan hmore⟩

end Viable

end PasoFrontEnd.Grammar
