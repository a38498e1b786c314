import PasoFrontEnd.Proofs.Grammar.Derivation

/-!
The rules of the grammar as readers of one list, the tokens to come with the end mark behind them.
A rule is sound for a relation if it reads only what the relation derives, and complete if it reads
all that the relation derives; both count the nesting that the rule has room for.
-/

namespace PasoFrontEnd.Grammar

universe u

namespace State

/-- The tokens to come, the end mark included. -/
def input (s : State) : List Token := s.tokens ++ [s.eof]

theorem length_input (s : State) : s.input.length = s.left + 1 := by
  simp [input, s.left_eq]

theorem input_eq_next_cons (s : State) : ∃ ts, s.input = s.next :: ts := by
  cases h : s.tokens <;> simp [input, next, h]

theorem next_eq_of_input {s : State} {t : Token} {ts : List Token} (h : s.input = t :: ts) :
    s.next = t := by
  obtain ⟨us, hus⟩ := s.input_eq_next_cons
  rw [h] at hus
  exact (List.cons.inj hus).1.symm

theorem input_of_next_ne_eof {s : State} (h : s.next.kind ≠ .eof) :
    s.input = s.next :: s.advance.input := by
  cases ht : s.tokens with
  | nil => exact absurd s.eof_kind (by simpa [next, ht] using h)
  | cons t ts => simp [input, next, advance, ht]

theorem input_of_next_eof {s : State} (h : s.next.kind = .eof) : s.input = [s.next] := by
  cases ht : s.tokens with
  | nil => simp [input, next, ht]
  | cons t ts => exact absurd (by simpa [next, ht] using h) (s.kind_ne_eof t (by simp [ht]))

theorem input_advance {s : State} {t : Token} {ts : List Token} (h : s.input = t :: ts)
    (kind : t.kind ≠ .eof) : s.advance.input = ts := by
  have hnext := next_eq_of_input h
  rw [input_of_next_ne_eof (by rwa [hnext])] at h
  exact (List.cons.inj h).2

theorem next_skipNewlines_ne_newline (s : State) : s.skipNewlines.next.kind ≠ .newline := by
  simp only [next, skipNewlines]
  cases h : s.tokens.dropWhile (·.kind = .newline) with
  | nil => simp [s.eof_kind]
  | cons t ts =>
      have hhead := List.head?_dropWhile_not (fun t : Token => decide (t.kind = .newline)) s.tokens
      rw [h] at hhead
      simpa using hhead

private theorem newlines_dropWhile (ts us : List Token) :
    Newlines (ts ++ us) (ts.dropWhile (·.kind = .newline) ++ us) := by
  induction ts with
  | nil => exact .none
  | cons t ts ih =>
      by_cases h : t.kind = .newline
      · simpa [h] using Newlines.cons h ih
      · simpa [h] using Newlines.none

theorem newlines_skipNewlines (s : State) : Newlines s.input s.skipNewlines.input :=
  newlines_dropWhile s.tokens [s.eof]

end State

/-- What newlines leave is the whole list behind them if it begins with no newline. -/
theorem Newlines.eq_of_kind_ne {ts us vs : List Token} (hu : Newlines ts us) (hv : Newlines ts vs)
    (unext : ∀ t ∈ us.head?, t.kind ≠ .newline) (vnext : ∀ t ∈ vs.head?, t.kind ≠ .newline) :
    us = vs := by
  induction hu with
  | none =>
      cases hv with
      | none => rfl
      | cons newline _ => exact absurd newline (unext _ rfl)
  | cons newline _ ih =>
      cases hv with
      | none => exact absurd newline (vnext _ rfl)
      | cons _ more => exact ih more unext

theorem State.input_skipNewlines {s : State} {t : Token} {rest : List Token}
    (h : Newlines s.input (t :: rest)) (kind : t.kind ≠ .newline) :
    s.skipNewlines.input = t :: rest := by
  obtain ⟨ts, hts⟩ := s.skipNewlines.input_eq_next_cons
  refine s.newlines_skipNewlines.eq_of_kind_ne h ?_ (by simpa using kind)
  simpa [hts] using s.next_skipNewlines_ne_newline

section kept

variable {tokens tokens' front behind behind' : List Token} {e : Token}

/-- At the most an end mark is added to the tokens that are no comments. -/
theorem filter_prefix_kept (tokens : List Token) :
    tokens.filter (·.kind ≠ .comment) <+: Parser.kept tokens := by
  rw [Parser.kept]
  split
  · exact List.prefix_rfl
  · exact List.prefix_append ..

/-- An end mark is kept, whatever the tokens are. -/
theorem exists_kept_eq_append (tokens : List Token) :
    ∃ front e behind, Parser.kept tokens = front ++ e :: behind ∧
      (∀ t ∈ front, t.kind ≠ .eof) ∧ e.kind = .eof := by
  obtain ⟨t, ht, ends⟩ : ∃ t ∈ Parser.kept tokens, t.kind = .eof := by
    rw [Parser.kept]
    split
    case isTrue last =>
      obtain ⟨t, ht, ends⟩ := (Option.any_eq_true _ _).1 last
      exact ⟨t, List.mem_of_getLast? ht, of_decide_eq_true ends⟩
    case isFalse => exact ⟨_, List.mem_append_right _ (List.mem_singleton.2 rfl), rfl⟩
  obtain ⟨e, found⟩ : ∃ e, (Parser.kept tokens).find? (·.kind = .eof) = some e := by
    rw [← Option.isSome_iff_exists, List.find?_isSome]
    exact ⟨t, ht, decide_eq_true ends⟩
  obtain ⟨ends, front, behind, whole, hfront⟩ := List.find?_eq_some_iff_append.1 found
  exact ⟨front, e, behind, whole, by simpa using hfront, of_decide_eq_true ends⟩

/-- The state in front of tokens parts those that are kept at the first end mark. -/
theorem State.ofTokens_of_kept (kept : Parser.kept tokens = front ++ e :: behind)
    (hfront : ∀ t ∈ front, t.kind ≠ .eof) (ends : e.kind = .eof) :
    (State.ofTokens tokens).input = front ++ [e] ∧ (State.ofTokens tokens).behind = behind := by
  have hfront' : ∀ t ∈ front, decide (t.kind ≠ .eof) := by simpa using hfront
  constructor
  · have found : (front ++ e :: behind).find? (·.kind = .eof) = some e := by
      rw [List.find?_append, List.find?_eq_none.2 (by simpa using hfront)]
      simp [ends]
    simp only [State.input, State.ofTokens, kept, found, List.takeWhile_append_of_pos hfront']
    simp [ends]
  · simp only [State.ofTokens, kept, List.dropWhile_append_of_pos hfront']
    simp [ends]

theorem State.kept_eq_input_append (tokens : List Token) :
    Parser.kept tokens = (State.ofTokens tokens).input ++ (State.ofTokens tokens).behind := by
  obtain ⟨front, e, behind, kept, hfront, ends⟩ := exists_kept_eq_append tokens
  obtain ⟨input, behind⟩ := State.ofTokens_of_kept kept hfront ends
  rw [kept, input, behind, List.append_assoc, List.singleton_append]

/-- Whatever is kept behind an end mark, the input in front of it is the same. -/
theorem State.input_ofTokens_congr (kept : Parser.kept tokens = front ++ e :: behind)
    (kept' : Parser.kept tokens' = front ++ e :: behind') (ends : e.kind = .eof) :
    (State.ofTokens tokens).input = (State.ofTokens tokens').input := by
  have cut (more : List Token) :
      (front ++ e :: more).takeWhile (·.kind ≠ .eof) = (front ++ [e]).takeWhile (·.kind ≠ .eof) ∧
        (front ++ e :: more).find? (·.kind = .eof) = (front ++ [e]).find? (·.kind = .eof) := by
    simp [List.takeWhile_append, List.find?_append, ends]
  simp only [State.input, State.ofTokens, kept, kept', cut]

theorem State.tokens_ofTokens_sublist (tokens : List Token) :
    (State.ofTokens tokens).tokens.Sublist tokens := by
  have plain : ((State.ofTokens tokens).tokens.filter (·.kind ≠ .eof)).Sublist
      ((Parser.kept tokens).filter (·.kind ≠ .eof)) := (List.takeWhile_sublist _).filter _
  rw [List.filter_eq_self.2 (by simpa using (State.ofTokens tokens).kind_ne_eof), Parser.kept]
    at plain
  refine plain.trans (.trans ?_ (List.filter_sublist (p := (·.kind ≠ .comment))))
  split
  · exact List.filter_sublist
  · rw [List.filter_append, List.filter_cons_of_neg (by simp), List.filter_nil, List.append_nil]
    exact List.filter_sublist

end kept

namespace Rule

variable {α β : Type}

/-- The rule reads only what the relation derives, with a nesting less than the given depth. -/
def Sound (rule : Rule α) (R : List Token → α → List Token → Nat → Sort u) (depth : Nat) :
    Prop :=
  ∀ ⦃s : State⦄ ⦃a : α⦄ ⦃s' : State⦄, rule s = .ok a s' →
    ∃ n, n < depth ∧ Nonempty (R s.input a s'.input n)

/-- What a sequence of rules answers, its parts have answered in turn. -/
theorem ok_of_bind {x : Rule α} {f : α → Rule β} {s s' : State} {b : β}
    (h : (x >>= f) s = .ok b s') : ∃ a s₁, x s = .ok a s₁ ∧ f a s₁ = .ok b s' := by
  change EStateM.bind x f s = .ok b s' at h
  unfold EStateM.bind at h
  split at h
  · exact ⟨_, _, by assumption, h⟩
  · contradiction

theorem bind_of_ok {x : Rule α} {f : α → Rule β} {s s₁ : State} {a : α} (h : x s = .ok a s₁) :
    (x >>= f) s = f a s₁ := by
  change EStateM.bind x f s = _
  simp only [EStateM.bind, h]

/-- What a sequence answers behind a rule whose own answer is known. -/
theorem ok_of_bind_of_ok {x : Rule α} {f : α → Rule β} {s s₁ s' : State} {a : α} {b : β}
    (hx : x s = .ok a s₁) (h : (x >>= f) s = .ok b s') : f a s₁ = .ok b s' :=
  (bind_of_ok hx).symm.trans h

theorem ok_of_pure {a b : α} {s s' : State} (h : (pure a : Rule α) s = .ok b s') :
    a = b ∧ s = s' := by
  cases h
  exact ⟨rfl, rfl⟩

/-- A rule that is chosen by a match, apart from the state it is run on: the match can be split
then. -/
theorem eq_of_ok {rule : Rule α} {s s' : State} {a : α} (h : rule s = .ok a s') :
    ∃ chosen, rule = chosen ∧ chosen s = .ok a s' :=
  ⟨rule, rfl, h⟩

end Rule

theorem sound_tooDeep {α : Type} {R : List Token → α → List Token → Nat → Sort u}
    {depth : Nat} : Rule.Sound tooDeep R depth :=
  fun _ _ _ h => nomatch h

theorem expect_eq_ok {kind : Token.Kind} {s s' : State} {t : Token} (h : expect kind s = .ok t s') :
    t.kind = kind ∧ s.next = t ∧ s.advance = s' := by
  change (if s.next.kind = kind then _ else _ : Rule Token) s = _ at h
  split at h
  · cases h
    exact ⟨‹_›, rfl, rfl⟩
  · exact nomatch h

/-- A token that is asked for stands at the head of the input. -/
theorem input_of_expect {kind : Token.Kind} {s s' : State} {t : Token}
    (h : expect kind s = .ok t s') (hk : kind ≠ .eof) :
    t.kind = kind ∧ s.input = t :: s'.input := by
  obtain ⟨hkind, rfl, rfl⟩ := expect_eq_ok h
  exact ⟨hkind, State.input_of_next_ne_eof (by rwa [hkind])⟩

theorem expect_of_input {kind : Token.Kind} {s : State} {t : Token} {ts : List Token}
    (h : s.input = t :: ts) (hk : t.kind = kind) : expect kind s = .ok t s.advance := by
  change (if s.next.kind = kind then _ else _ : Rule Token) s = _
  rw [if_pos (by rw [State.next_eq_of_input h, hk])]
  exact congrArg (EStateM.Result.ok · s.advance) (State.next_eq_of_input h)

end PasoFrontEnd.Grammar
