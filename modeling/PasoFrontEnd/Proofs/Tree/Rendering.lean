import PasoFrontEnd.Proofs.Scan.Spelling
import PasoFrontEnd.Tree.Outline

/-!
Expressions as text. The text of an expression is cut into the pieces that it was put together from,
whatever stands behind it as long as no word or number goes on there. So the text determines the
expression but for its places.
-/

namespace PasoFrontEnd

namespace Decimal

theorem ofDigits_toDigits (m : Nat) : ofDigits (Nat.toDigits 10 m) = m := by
  have same := Nat.ofDigitChars_ten_toDigits (n := m)
  rwa [Nat.ofDigitChars_eq_foldl] at same

theorem isDigit_toDigits {m : Nat} {d : Char} (h : d ∈ Nat.toDigits 10 m) : d.isDigit :=
  Nat.isDigit_of_mem_toDigits (by decide) (by decide) h

theorem readInteger?_digits {ds : List Char} (nonempty : ds ≠ []) (digits : ∀ d ∈ ds, d.isDigit) :
    readInteger? ds = some (ofDigits ds : Int) := by
  have unsigned : readSign ds = (false, ds) := by
    unfold readSign
    split
    · exact absurd (digits '-' List.mem_cons_self) (by decide)
    · exact absurd (digits '+' List.mem_cons_self) (by decide)
    · rfl
  rw [readInteger?, unsigned]
  simp only [ne_eq, nonempty, not_false_eq_true, List.all_eq_true, true_and, Bool.false_eq_true,
    ↓reduceIte]
  rw [if_pos digits]

theorem readInt64?_toString {n : Int64} (nonneg : 0 ≤ n.toInt) :
    readInt64? (toString n.toInt) = some n := by
  obtain ⟨m, hm⟩ := Int.eq_ofNat_of_zero_le nonneg
  have text : (toString n.toInt).toList = Nat.toDigits 10 m := by
    rw [hm]
    exact Nat.toList_repr
  have low := n.le_toInt
  have high := n.toInt_lt
  have lowest : Int64.minValue.toInt = -2 ^ 63 := by decide
  have highest : Int64.maxValue.toInt = 2 ^ 63 - 1 := by decide
  rw [readInt64?, text, readInteger?_digits Nat.toDigits_ne_nil fun d => isDigit_toDigits,
    ofDigits_toDigits]
  have same : (m : Int) = n.toInt := hm.symm
  simp only [same, lowest, highest]
  rw [if_pos ⟨by omega, by omega⟩, Int64.ofInt_toInt]
end Decimal

/-- A letter with letters and numerals behind it that are no keyword together. -/
structure IsName (name : String) : Prop where
  word : ∃ c cs, name.toList = c :: cs ∧ Text.isLetter c ∧ ∀ d ∈ cs, Text.isLetterOrNumeral d
  notKeyword : Keyword.ofSpelling? name = none

namespace Literal

/-- Literals that are written as they are read: no number is negative or decimal, and no text holds
a quote. -/
def Readable : Literal → Prop
  | integer n => 0 ≤ n.toInt
  | decimal _ => False
  | text s => '"' ∉ s.toList
  | boolean _ | null => True

/-- Kind and lexeme of the token that the literal is written as. -/
def sign : Literal → Token.Kind × List Char
  | integer n => (.integer, (toString n.toInt).toList)
  | decimal x => (.decimal, (Decimal.floatText x).toList)
  | text s => (.text, s.toList)
  | boolean true => (.keyword .verdadero, Keyword.verdadero.spelling.toList)
  | boolean false => (.keyword .falso, Keyword.falso.spelling.toList)
  | null => (.keyword .nulo, Keyword.nulo.spelling.toList)

theorem spelling_sign (v : Literal) : spelling v.sign = v.render.toList := by
  cases v with
  | integer _ | decimal _ | null => rfl
  | text s => simp [sign, spelling, render]
  | boolean b => cases b <;> rfl

theorem plain_sign {v : Literal} (h : v.Readable) : Plain v.sign := by
  cases v with
  | integer n =>
      obtain ⟨m, hm⟩ := Int.eq_ofNat_of_zero_le h
      have digits : (toString n.toInt).toList = Nat.toDigits 10 m := by
        rw [hm]
        exact Nat.toList_repr
      rw [sign, digits]
      exact .integer Nat.toDigits_ne_nil fun d => Decimal.isDigit_toDigits
  | decimal _ => exact h.elim
  | text s => exact .text h
  | boolean b => cases b <;> exact .keyword _
  | null => exact .keyword _

end Literal

def Symbol.sign (s : Symbol) : Token.Kind × List Char := (.symbol s, s.spelling.toList)

namespace BinaryOp

def sign (op : BinaryOp) : Token.Kind × List Char := (op.kind, op.spelling.toList)

theorem plain_sign (op : BinaryOp) : Plain op.sign := by
  cases op <;> first | exact .keyword _ | exact .symbol _

theorem sign_inj {op op' : BinaryOp} (h : op.sign = op'.sign) : op = op' := by
  have kind : op.kind = op'.kind := congrArg Prod.fst h
  cases op <;> cases op' <;> first | rfl | contradiction

end BinaryOp

/-- Whether a token of this kind is an operand by itself. -/
def Token.Kind.isOperand : Token.Kind → Bool
  | identifier | integer | decimal | text | keyword .verdadero | keyword .falso | keyword .nulo =>
      true
  | _ => false

namespace Piece

/-- What stands behind an operand: it ends there as a word, as a number, and as the beginning of a
keyword of several words. -/
structure Ends (rest : List Char) : Prop where
  apart : Apart rest
  alone : readWords? ["lo".toList, "contrario".toList] rest = none

theorem Ends.nil : Ends [] := ⟨by simp [Apart], rfl⟩

theorem Ends.closeParen (rest : List Char) : Ends (Symbol.closeParen.spelling.toList ++ rest) := by
  change Ends (')' :: rest)
  refine ⟨fun c hc => ?_, rfl⟩
  cases hc
  decide

theorem Ends.operator (op : BinaryOp) (rest : List Char) :
    Ends (' ' :: (op.spelling.toList ++ rest)) where
  apart := by
    intro c hc
    cases hc
    decide
  alone := by cases op <;> rfl

/-- A symbol that is no beginning of another one is read in front of any text. -/
theorem split_mark {s : Symbol} (mark : s = .openParen ∨ s = .closeParen ∨ s = .minus)
    (cs : List Char) :
    split (s.spelling.toList ++ cs) = ofToken s.sign :: split cs := by
  have hread : ∃ c, s.spelling.toList = [c] ∧ read c cs = (ofToken (.symbol s, [c]), cs) := by
    obtain rfl | rfl | rfl := mark
    · refine ⟨'(', rfl, ?_⟩
      change readSymbol '(' cs = _
      unfold readSymbol
      split <;> rfl
    · refine ⟨')', rfl, ?_⟩
      change readSymbol ')' cs = _
      unfold readSymbol
      split <;> rfl
    · refine ⟨'-', rfl, ?_⟩
      change readSymbol '-' cs = _
      unfold readSymbol
      split <;> rfl
  obtain ⟨c, spelled, hread⟩ := hread
  rw [Symbol.sign, spelled, List.singleton_append, split_cons, hread]

theorem split_space (cs : List Char) : split (' ' :: cs) = .blank ' ' :: split cs := by
  rw [split_cons, read_gap rfl]

/-- A tree that is written out shows an operator as the scanner reads it. -/
theorem spelling_operator (op : BinaryOp) : spelling op.sign = op.spelling.toList := by
  cases op <;> rfl

theorem split_operator (op : BinaryOp) (cs : List Char) :
    split (op.spelling.toList ++ ' ' :: cs) = ofToken op.sign :: split (' ' :: cs) := by
  have separated : Separated (' ' :: cs) := ⟨' ', cs, rfl, .inl rfl⟩
  obtain ⟨c, text, spelled, hread⟩ := read_spelling op.plain_sign separated
    (fun comment => by cases op <;> cases comment) (fun si => by cases op <;> cases si)
    (fun de => by cases op <;> cases de)
  rw [← spelling_operator, spelled, List.cons_append, split_cons, hread]

theorem split_operand {t : Token.Kind × List Char} (plain : Plain t) (operand : t.1.isOperand)
    {rest : List Char} (ends : Ends rest) :
    split (spelling t ++ rest) = ofToken t :: split rest := by
  have word {k : Keyword} {c : Char} {cs : List Char} (spelled : k.spelling.toList = c :: cs)
      (letter : Text.isLetter c) (inner : ∀ d ∈ cs, Text.isLetterOrNumeral d)
      (alone : Keyword.continued? (c :: cs) = none)
      (found : Keyword.ofSpelling? (String.ofList (c :: cs)) = some k) :
      split (k.spelling.toList ++ rest) = .lexeme (.keyword k) k.spelling.toList :: split rest := by
    rw [spelled, List.cons_append, split_cons, read_eq_readWord letter,
      readWord_alone inner ends.apart.noLetter (by simp [alone]), found]
  cases plain with
  | identifier letter inner notKeyword =>
      change split (_ :: (_ ++ rest)) = _
      rw [split_cons,
        read_identifier letter inner notKeyword ends.apart.noLetter fun _ => ends.alone]
      rfl
  | keyword k =>
      cases k with
      | verdadero => exact word rfl rfl (List.all_eq_true.1 rfl) rfl rfl
      | falso => exact word rfl rfl (List.all_eq_true.1 rfl) rfl rfl
      | nulo => exact word rfl rfl (List.all_eq_true.1 rfl) rfl rfl
      | _ => contradiction
  | @integer ds nonempty digits =>
      obtain ⟨d, ds, rfl⟩ := List.exists_cons_of_ne_nil nonempty
      change split (d :: (ds ++ rest)) = _
      rw [split_cons, read_integer digits ends.apart.noDigit ends.apart.noPoint]
      rfl
  | @decimal ds es nonempty digits nonempty' digits' =>
      obtain ⟨d, ds, rfl⟩ := List.exists_cons_of_ne_nil nonempty
      obtain ⟨e, es, rfl⟩ := List.exists_cons_of_ne_nil nonempty'
      change split (d :: (ds ++ '.' :: e :: es ++ rest)) = _
      rw [split_cons, read_decimal digits digits' ends.apart.noDigit]
      rfl
  | @text body noQuote =>
      have whole : spelling (.text, body) ++ rest = '"' :: (body ++ '"' :: rest) := by
        simp [spelling]
      rw [whole, split_cons, read_text noQuote]
      rfl
  | symbol _ | comment _ => contradiction

end Piece

namespace Literal

theorem isOperand_sign (v : Literal) : v.sign.1.isOperand := by
  cases v with
  | boolean b => cases b <;> rfl
  | _ => rfl

end Literal

theorem IsName.plain {name : String} (h : IsName name) : Plain (.identifier, name.toList) := by
  obtain ⟨c, cs, spelled, letter, word⟩ := h.word
  have notKeyword := h.notKeyword
  rw [← String.ofList_toList (s := name), spelled] at notKeyword
  rw [spelled]
  exact .identifier letter word notKeyword

namespace Expr

/-- Every name and every literal of the expression is of the given kinds. -/
def Each (name : String → Prop) (literal : Literal → Prop) : Expr → Prop
  | .literal value _ => literal value
  | .named n _ => name n
  | .negation operand _ => operand.Each name literal
  | .operation _ left right _ => left.Each name literal ∧ right.Each name literal

/-- Expressions whose text can be read back. -/
abbrev Readable : Expr → Prop := Each IsName Literal.Readable

/-- Kinds and lexemes of the tokens that the expression is written as. -/
def signs : Expr → List (Token.Kind × List Char)
  | literal value _ => [value.sign]
  | named name _ => [(.identifier, name.toList)]
  | negation operand _ =>
    Symbol.openParen.sign :: Symbol.minus.sign :: (operand.signs ++ [Symbol.closeParen.sign])
  | operation op left right _ =>
    Symbol.openParen.sign :: (left.signs ++ op.sign :: (right.signs ++ [Symbol.closeParen.sign]))

/-- The groups and signs that stand inside each other in the text of the expression. -/
def cost : Expr → Nat
  | literal _ _ | named _ _ => 0
  | negation operand _ => 2 + operand.cost
  | operation _ left right _ => 1 + max left.cost right.cost

/-- The pieces that the text of the expression is put together from. -/
def pieces : Expr → List Piece
  | literal value _ => [.ofToken value.sign]
  | named name _ => [.ofToken (.identifier, name.toList)]
  | negation operand _ =>
    .ofToken Symbol.openParen.sign :: .ofToken Symbol.minus.sign ::
      (operand.pieces ++ [.ofToken Symbol.closeParen.sign])
  | operation op left right _ =>
    .ofToken Symbol.openParen.sign :: (left.pieces ++ .blank ' ' :: .ofToken op.sign ::
      .blank ' ' :: (right.pieces ++ [.ofToken Symbol.closeParen.sign]))

open Piece in
theorem split_render {e : Expr} (h : e.Readable) {rest : List Char} (ends : Ends rest) :
    split (e.render.toList ++ rest) = e.pieces ++ split rest := by
  induction e generalizing rest with
  | literal value _ =>
      rw [render, ← value.spelling_sign]
      exact split_operand (value.plain_sign h) value.isOperand_sign ends
  | named name _ => exact split_operand (IsName.plain h) rfl ends
  | negation operand loc ih =>
      have text : (negation operand loc).render.toList ++ rest = Symbol.openParen.spelling.toList ++
          (Symbol.minus.spelling.toList ++ (operand.render.toList ++
            (Symbol.closeParen.spelling.toList ++ rest))) := by
        simp [render, Symbol.spelling]
      rw [text, split_mark (.inl rfl), split_mark (.inr (.inr rfl)), ih h (.closeParen rest),
        split_mark (.inr (.inl rfl))]
      simp [pieces]
  | operation op left right loc ihl ihr =>
      have text : (operation op left right loc).render.toList ++ rest =
          Symbol.openParen.spelling.toList ++
            (left.render.toList ++ ' ' :: (op.spelling.toList ++ ' ' ::
            (right.render.toList ++ (Symbol.closeParen.spelling.toList ++ rest)))) := by
        simp [render, Symbol.spelling]
      rw [text, split_mark (.inl rfl), ihl h.1 (.operator op _), split_space, split_operator,
        split_space, ihr h.2 (.closeParen rest), split_mark (.inr (.inl rfl))]
      simp [pieces]

end Expr

namespace Piece

/-- A space, or a token of code. -/
def OfCode (p : Piece) : Prop :=
  p = .blank ' ' ∨ ∃ t, p = .ofToken t ∧ t.1.isStructural = false ∧ t.1 ≠ .comment

theorem ofCode_symbol (s : Symbol) : OfCode (.ofToken s.sign) :=
  .inr ⟨_, rfl, rfl, by simp [Symbol.sign]⟩

theorem ofCode_operator (op : BinaryOp) : OfCode (.ofToken op.sign) :=
  .inr ⟨_, rfl, by cases op <;> rfl, by cases op <;> simp [BinaryOp.sign, BinaryOp.kind]⟩

theorem ofCode_operand {t : Token.Kind × List Char} (operand : t.1.isOperand) :
    OfCode (.ofToken t) := by
  refine .inr ⟨t, rfl, ?_, ?_⟩
  · obtain ⟨kind, _⟩ := t
    cases kind <;> first | rfl | contradiction
  · intro comment
    simp [comment, Token.Kind.isOperand] at operand

end Piece

open Piece in
theorem Expr.ofCode_of_mem_pieces {e : Expr} {p : Piece} (h : p ∈ e.pieces) : p.OfCode := by
  induction e with
  | literal value _ => exact List.mem_singleton.1 h ▸ ofCode_operand value.isOperand_sign
  | named name _ => exact List.mem_singleton.1 h ▸ ofCode_operand rfl
  | negation operand _ ih =>
      simp only [pieces, List.mem_cons, List.mem_append, List.not_mem_nil, or_false] at h
      obtain rfl | rfl | h | rfl := h
      · exact ofCode_symbol _
      · exact ofCode_symbol _
      · exact ih h
      · exact ofCode_symbol _
  | operation op left right _ ihl ihr =>
      simp only [pieces, List.mem_cons, List.mem_append, List.not_mem_nil, or_false] at h
      obtain rfl | h | rfl | rfl | rfl | h | rfl := h
      · exact ofCode_symbol _
      · exact ihl h
      · exact .inl rfl
      · exact ofCode_operator op
      · exact .inl rfl
      · exact ihr h
      · exact ofCode_symbol _

end PasoFrontEnd
