import PasoFrontEnd.Proofs.Grammar.Completeness
import PasoFrontEnd.Proofs.Grammar.Likeness
import PasoFrontEnd.Proofs.Tree.Edit

/-!
Parsing goes along with edits: edited tokens have the edited outcome. For the program alone the
places of structure count for nothing, and newlines can be put in behind newlines.
-/

namespace PasoFrontEnd.Grammar

/-- The second token is of the kind of the first, and what the edit makes of it unless it only marks
structure. -/
structure Edits (f : Edit) (t u : Token) : Prop where
  kind : u.kind = t.kind
  edited : t.kind.isStructural = false → u = f.token t

theorem edits_token (f : Edit) (t : Token) : Edits f t (f.token t) := ⟨rfl, fun _ => rfl⟩

variable {f : Edit} {alike : Token → Token → Prop} {t u : Token}

theorem Edits.location (h : Edits f t u) (structured : t.kind.isStructural = false) :
    u.location = f.place t.location := by
  rw [h.edited structured]
  rfl

theorem Edits.lexeme (h : Edits f t u) (structured : t.kind.isStructural = false)
    (kind : t.kind ≠ .text) : u.lexeme = t.lexeme := by
  rw [h.edited structured, Edit.token, if_neg kind]

theorem Edits.literal? (h : Edits f t u) (written : literal? t ≠ none) :
    literal? u = (literal? t).map (·.map f.literal) := by
  have structured := isStructural_of_literal? written
  by_cases kind : t.kind = .text
  · rw [h.edited structured]
    simp [Grammar.literal?, Edit.token, kind, Edit.literal]
  · have lexeme := h.lexeme structured kind
    have hkind := h.kind
    unfold Grammar.literal? at written ⊢
    rw [hkind, lexeme]
    split
    case h_1 => cases Decimal.readInt64? t.lexeme <;> rfl
    case h_2 => cases Decimal.readFloat? t.lexeme <;> rfl
    case h_3 text => exact absurd text kind
    case h_4 | h_5 | h_6 | h_7 => rfl

theorem option_rel_edited {α : Type} {g : α → α} {x y : Option α}
    (h : Option.Rel (fun a b => b = g a) x y) : y = x.map g := by
  cases h with
  | some same => exact congrArg some same
  | none => rfl

theorem block_of_forall₂ {b b' : List Stmt} (h : List.Forall₂ (fun s s' => s' = f.stmt s) b b') :
    b' = f.block b := by
  rw [Edit.block_eq_map]
  induction h with
  | nil => rfl
  | cons same _ ih => rw [same, ih, List.map_cons]

/-- Tokens that an edit makes of each other, and the trees that it makes of each other. -/
def editLikeness (f : Edit) (alike : Token → Token → Prop)
    (edits : ∀ {t u}, alike t u → Edits f t u) (blankLines : Prop) : Likeness where
  token := alike
  expr e e' := e' = f.expr e
  stmt s s' := s' = f.stmt s
  strict := True
  blankLines := blankLines
  kind h := (edits h).kind.symm
  written := by
    intro t u v h hliteral
    have structured := isStructural_of_literal? (t := t) (by simp [hliteral])
    refine ⟨f.literal v, ?_, ?_⟩
    · rw [(edits h).literal? (by simp [hliteral]), hliteral]
      rfl
    · rw [(edits h).location structured]
      rfl
  unwritten := by
    intro t u _ h hliteral
    rw [(edits h).literal? (by simp [hliteral]), hliteral]
    rfl
  named := by
    intro t u h name
    have structured : t.kind.isStructural = false := by rw [name]; rfl
    rw [(edits h).location structured, (edits h).lexeme structured (by simp [name])]
    rfl
  negation := by
    rintro t u e _ h structured rfl
    rw [(edits h).location structured]
    rfl
  operation := by
    rintro t u op l _ r _ h structured rfl rfl
    rw [(edits h).location structured]
    rfl
  assignment := by
    rintro t u e _ h name rfl
    have structured : t.kind.isStructural = false := by rw [name]; rfl
    rw [(edits h).location structured, (edits h).lexeme structured (by simp [name]), Edit.stmt]
  declaration := by
    intro t u i j type e e' h structured h' name init
    have structured' : i.kind.isStructural = false := by rw [name]; rfl
    rw [(edits h).location structured, (edits h').lexeme structured' (by simp [name]),
      option_rel_edited init, Edit.stmt]
  print := by
    rintro t u e _ h structured rfl
    rw [(edits h).location structured, Edit.stmt]
  branch := by
    rintro t u c _ b b' o o' h structured rfl body other
    rw [(edits h).location structured, block_of_forall₂ body]
    cases other with
    | none => rw [Edit.stmt]
    | some other => rw [block_of_forall₂ other, Edit.stmt]
  loop := by
    rintro t u c _ b b' h structured rfl body
    rw [(edits h).location structured, block_of_forall₂ body, Edit.stmt]
  doLoop := by
    rintro t u b b' c _ h structured body rfl
    rw [(edits h).location structured, block_of_forall₂ body, Edit.stmt]

namespace Likeness

variable {L : Likeness}

/-- Parses that end alike. -/
inductive Outcomes (L : Likeness) : Except SyntaxError Program → Except SyntaxError Program → Prop
  | ok {b b'} (body : List.Forall₂ L.stmt b b') : Outcomes L (.ok ⟨b⟩) (.ok ⟨b'⟩)
  | error {e e'} (errors : L.Errors e e') : Outcomes L (.error e) (.error e')

theorem outcomes_parse (strict : L.strict) {ts us : List Token} {behind : Bool}
    (h : L.States behind (.ofTokens ts) (.ofTokens us)) : L.Outcomes (parse ts) (parse us) := by
  have hrun := program_alike h
  unfold parse
  generalize program (.ofTokens ts) = r at hrun ⊢
  generalize program (.ofTokens us) = r' at hrun ⊢
  cases hrun with
  | ok body _ => exact .ok body
  | error errors _ => exact .error errors
  | unwritten lax => exact absurd strict lax

end Likeness

/-- The end mark of a token list is the end of its input, and the tokens in front of it are to come.
-/
theorem tokens_ofTokens {front : List Token} {e : Token} (h : Ended (front ++ [e])) :
    (State.ofTokens (front ++ [e])).tokens = front ∧ (State.ofTokens (front ++ [e])).eof = e := by
  have input := input_ofTokens h
  rw [State.input] at input
  obtain ⟨tokens, eof⟩ := List.append_inj' input rfl
  exact ⟨tokens, List.singleton_inj.1 eof⟩

theorem exists_of_forall₂_concat {α β : Type} {R : α → β → Prop} {as : List α} {a : α} {bs : List β}
    (h : List.Forall₂ R (as ++ [a]) bs) :
    ∃ bs' b, bs = bs' ++ [b] ∧ List.Forall₂ R as bs' ∧ R a b := by
  induction as generalizing bs with
  | nil =>
      obtain ⟨b, _, hab, hnil, rfl⟩ := List.forall₂_cons_left_iff.1 h
      obtain rfl := List.forall₂_nil_left_iff.1 hnil
      exact ⟨[], b, rfl, .nil, hab⟩
  | cons a' as ih =>
      obtain ⟨b', _, hab, hrest, rfl⟩ := List.forall₂_cons_left_iff.1 h
      obtain ⟨bs', b, rfl, hbs, hb⟩ := ih hrest
      exact ⟨b' :: bs', b, rfl, .cons hab hbs, hb⟩

theorem Ended.of_kinds {ts us : List Token} (h : Ended ts)
    (kinds : List.Forall₂ (fun t u : Token => u.kind = t.kind) ts us) : Ended us := by
  obtain ⟨front, e, rfl, he, hfront⟩ := h
  obtain ⟨front', e', rfl, hkinds, kind⟩ := exists_of_forall₂_concat kinds
  refine ⟨front', e', rfl, kind.trans he, ?_⟩
  clear kinds
  induction hkinds with
  | nil => simp
  | @cons t u _ _ head _ ih =>
      simp only [List.forall_mem_cons] at hfront ⊢
      exact ⟨head ▸ hfront.1, ih hfront.2⟩

theorem states_of_forall₂ {L : Likeness} {ts us : List Token} (ended : Ended ts)
    (h : List.Forall₂ L.token ts us) : L.States false (.ofTokens ts) (.ofTokens us) := by
  have ended' := ended.of_kinds (h.imp fun _ _ alike => (L.kind alike).symm)
  obtain ⟨front, e, rfl, -⟩ := id ended
  obtain ⟨front', e', rfl, hfront, he⟩ := exists_of_forall₂_concat h
  obtain ⟨tokens, eof⟩ := tokens_ofTokens ended
  obtain ⟨tokens', eof'⟩ := tokens_ofTokens ended'
  exact ⟨by rw [tokens, tokens']; exact .of_forall₂ hfront, by rwa [eof, eof']⟩

theorem toOption_parse_of_forall₂ {ts us : List Token} (ended : Ended ts)
    (h : List.Forall₂ (Edits f) ts us) :
    (parse us).toOption = (parse ts).toOption.map f.program := by
  have states : (editLikeness f (Edits f) id False).States false (.ofTokens ts) (.ofTokens us) :=
    states_of_forall₂ ended h
  have outcomes := Likeness.outcomes_parse trivial states
  generalize parse ts = r at outcomes ⊢
  generalize parse us = r' at outcomes ⊢
  cases outcomes with
  | ok body => exact congrArg some (congrArg Program.mk (block_of_forall₂ body))
  | error _ => rfl

/-- The likeness of tokens that the edit makes of each other in full. -/
def fullLikeness (f : Edit) (blankLines : Prop) : Likeness :=
  editLikeness f (fun t u => u = f.token t) (fun h => h ▸ edits_token f _) blankLines

theorem kind_ne_text_of_literal? (h : literal? t = some none) : t.kind ≠ .text := by
  intro kind
  simp [literal?, kind] at h

theorem syntaxError_of_errors {blankLines : Prop} {e e' : SyntaxError}
    (h : (fullLikeness f blankLines).Errors e e') : e' = f.syntaxError e := by
  cases h with
  | unexpectedToken _ same => cases same; rfl
  | nestingTooDeep _ same => cases same; rfl
  | invalidLiteral same unwritten =>
      cases same
      simp [Edit.token, Edit.syntaxError, kind_ne_text_of_literal? unwritten]

theorem parse_of_states {ts us : List Token} {blankLines : Prop} {behind : Bool}
    (h : (fullLikeness f blankLines).States behind (.ofTokens ts) (.ofTokens us)) :
    parse us = f.outcome (parse ts) := by
  have outcomes := Likeness.outcomes_parse trivial h
  generalize parse ts = r at outcomes ⊢
  generalize parse us = r' at outcomes ⊢
  cases outcomes with
  | ok body => exact congrArg Except.ok (congrArg Program.mk (block_of_forall₂ body))
  | error errors => exact congrArg Except.error (syntaxError_of_errors errors)

/-- Edited tokens have the edited outcome. -/
theorem parse_map_token {ts : List Token} (ended : Ended ts) :
    parse (ts.map f.token) = f.outcome (parse ts) := by
  have states : (fullLikeness f False).States false (.ofTokens ts) (.ofTokens (ts.map f.token)) :=
    states_of_forall₂ ended (List.forall₂_map_right_iff.2 (List.forall₂_same.2 fun _ _ => rfl))
  exact parse_of_states states

theorem lists_blankLine {front back : List Token} {n : Token} {behind : Bool}
    (newline : n.kind = .newline) (last : ∀ t ∈ front.getLast?, t.kind = .newline)
    (first : front = [] → behind = true) :
    (fullLikeness f True).Lists behind (front ++ back)
      (front.map f.token ++ n :: back.map f.token) := by
  induction front generalizing behind with
  | nil =>
      obtain rfl := first rfl
      exact .right trivial newline
        (.of_forall₂ (List.forall₂_map_right_iff.2 (List.forall₂_same.2 fun _ _ => rfl)))
  | cons t front ih =>
      have last' : ∀ u ∈ front.getLast?, u.kind = .newline := by
        intro u hu
        refine last u ?_
        rw [List.getLast?_cons, Option.mem_def.1 hu]
        rfl
      by_cases kind : t.kind = .newline
      · exact .newline rfl kind (ih last' fun _ => rfl)
      · refine .token rfl kind (ih last' ?_)
        rintro rfl
        exact absurd (last t rfl) kind

/-- Behind a newline, or in front of all tokens, one more newline changes no outcome. -/
theorem parse_blankLine {front back : List Token} {n : Token} (ended : Ended (front ++ back))
    (last : ∀ t ∈ front.getLast?, t.kind = .newline) (newline : n.kind = .newline) :
    parse (front.map f.token ++ n :: back.map f.token) = f.outcome (parse (front ++ back)) := by
  obtain ⟨ts, e, htokens, eof, plain⟩ := id ended
  obtain rfl | ⟨back, e', rfl⟩ := back.eq_nil_or_concat'
  · rw [List.append_nil] at htokens
    have kind := last e (by rw [htokens, List.getLast?_concat]; rfl)
    exact nomatch kind.symm.trans eof
  · obtain ⟨rfl, he⟩ := List.append_inj' ((List.append_assoc ..).trans htokens) rfl
    cases he
    have ended' : Ended (front.map f.token ++ n :: back.map f.token ++ [f.token e]) := by
      refine ⟨_, _, rfl, eof, fun t ht => ?_⟩
      simp only [List.mem_append, List.mem_cons, List.mem_map] at ht
      obtain ⟨t, ht, rfl⟩ | rfl | ⟨t, ht, rfl⟩ := ht
      · exact plain t (List.mem_append_left _ ht)
      · simp [newline]
      · exact plain t (List.mem_append_right _ ht)
    rw [← List.append_assoc] at ended ⊢
    rw [List.map_append, List.map_singleton, ← List.cons_append, ← List.append_assoc]
    obtain ⟨tokens, hend⟩ := tokens_ofTokens ended
    obtain ⟨tokens', hend'⟩ := tokens_ofTokens ended'
    have states : (fullLikeness f True).States true (.ofTokens (front ++ back ++ [e]))
        (.ofTokens (front.map f.token ++ n :: back.map f.token ++ [f.token e])) := by
      refine ⟨?_, ?_⟩
      · rw [tokens, tokens']
        exact lists_blankLine newline last fun _ => rfl
      · rw [hend, hend']
        rfl
    exact parse_of_states states

end PasoFrontEnd.Grammar
