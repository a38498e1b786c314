import PasoFrontEnd.SyntaxError

/-!
Rules of a grammar. A rule reads tokens from the front of those that are still to come; it answers
with a value or with an error, and leaves the tokens that it has not read in both cases. A rule
never reads the end of the input, and repetitions end at a round that reads nothing.

A state counts the tokens that have been read and the levels of nesting that are open. Rules count
levels only where they are run one level deeper in `nested`.
-/

namespace PasoFrontEnd

/-- The tokens that a parser keeps: no comments, and an end mark at the end. -/
def Parser.kept (tokens : List Token) : List Token :=
  let code := tokens.filter (·.kind ≠ .comment)
  if code.getLast?.any (·.kind = .eof) then code
  else code ++ [⟨.eof, "", (code.getLast?.map Token.location).getD {}⟩]

namespace Grammar

/-- The tokens that are still to come, up to the end of the input, and those behind it. -/
structure State where
  tokens : List Token
  eof : Token
  /-- What is kept behind the first end mark. -/
  behind : List Token := []
  /-- The tokens that statements were begun with, last first. -/
  begun : List Token := []
  left : Nat := tokens.length
  /-- How many tokens have been read. -/
  position : Nat := 0
  /-- How many levels of nesting are open. -/
  depth : Nat := 0
  left_eq : left = tokens.length := by rfl
  eof_kind : eof.kind = .eof
  kind_ne_eof : ∀ t ∈ tokens, t.kind ≠ .eof

namespace State

def next (s : State) : Token := s.tokens.headD s.eof

def advance (s : State) : State :=
  { s with
    tokens := s.tokens.tail
    left := s.left - 1
    position := if s.left = 0 then s.position else s.position + 1
    left_eq := by rw [s.left_eq, List.length_tail]
    kind_ne_eof := fun t ht => s.kind_ne_eof t (List.mem_of_mem_tail ht) }

def skipNewlines (s : State) : State :=
  { s with
    tokens := s.tokens.dropWhile (·.kind = .newline)
    left := s.left - (s.tokens.takeWhile (·.kind = .newline)).length
    position := s.position + (s.tokens.takeWhile (·.kind = .newline)).length
    left_eq := by
      have whole := congrArg List.length
        (s.tokens.takeWhile_append_dropWhile (p := (·.kind = .newline)))
      rw [List.length_append] at whole
      rw [s.left_eq, ← whole, Nat.add_sub_cancel_left]
    kind_ne_eof := fun t ht => s.kind_ne_eof t ((List.dropWhile_sublist _).subset ht) }

/-- The state in front of the tokens that are kept of a list. The input ends at the first end mark
among them. -/
def ofTokens (tokens : List Token) : State :=
  let kept := Parser.kept tokens
  { tokens := kept.takeWhile (·.kind ≠ .eof)
    eof := (kept.find? (·.kind = .eof)).getD ⟨.eof, "", {}⟩
    behind := (kept.dropWhile (·.kind ≠ .eof)).tail
    eof_kind := by
      cases found : kept.find? (·.kind = .eof) with
      | none => rfl
      | some t => simpa using List.find?_some found
    kind_ne_eof := fun t ht => by
      simpa using List.all_eq_true.1 List.all_takeWhile t ht }

end State

abbrev Rule (α : Type) := EStateM SyntaxError State α

/-- How deep blocks, groups and signs can stand inside each other. -/
def maxNesting : Nat := 128

/-- The next token, which stays. -/
def peek : Rule Token := fun s => .ok s.next s

def advance : Rule Unit := fun s => .ok () s.advance

/-- Refuses the next token for the kinds that could stand in its place. -/
def unexpected {α : Type} (expected : List Token.Kind) : Rule α := fun s =>
  .error ⟨.unexpectedToken expected s.next, s.next.location⟩ s

def tooDeep {α : Type} : Rule α := fun s =>
  .error ⟨.nestingTooDeep maxNesting, s.next.location⟩ s

/-- A rule one level of nesting deeper. The level is given back however the rule ends. -/
def nested {α : Type} (rule : Rule α) : Rule α := fun s =>
  if maxNesting ≤ s.depth then tooDeep s
  else
    match rule { s with depth := s.depth + 1 } with
    | .ok a after => .ok a { after with depth := after.depth - 1 }
    | .error e after => .error e { after with depth := after.depth - 1 }

def expect (kind : Token.Kind) : Rule Token := do
  let t ← peek
  if t.kind = kind then
    advance
    return t
  else unexpected [kind]

def skipNewlines : Rule Unit := fun s => .ok () s.skipNewlines

/-- Repeats a rule until the next token is of a kind to stop at. -/
def manyUntil {α : Type} (stop : Token.Kind → Bool) (rule : Rule α) (s : State) :
    EStateM.Result SyntaxError State (List α) :=
  if stop s.next.kind then .ok [] s
  else
    match rule s with
    | .error e after => .error e after
    | .ok a after =>
      if after.left < s.left then
        match manyUntil stop rule after with
        | .error e last => .error e last
        | .ok more last => .ok (a :: more) last
      else .ok [a] after
termination_by s.left

end Grammar

end PasoFrontEnd
