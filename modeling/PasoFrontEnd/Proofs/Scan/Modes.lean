import PasoFrontEnd.Proofs.Scan.Reach

/-!
What the characters of a text are part of: code, a comment or a string literal. The pieces of a text
follow these modes, so that comments can be taken out of a text, and its lines told apart, one
character after the other.
-/

namespace PasoFrontEnd

namespace Text

inductive Mode where
  | code
  | comment
  | literal
deriving DecidableEq, Repr

/-- The mode behind a character. -/
def Mode.next : Mode → Char → Mode
  | code, c => if c = '~' then comment else if c = '"' then literal else code
  | comment, c => if c = '\n' then code else comment
  | literal, c => if c = '"' then code else literal

/-- The characters that belong to no comment. -/
def stripFrom : Mode → List Char → List Char
  | _, [] => []
  | mode, c :: cs =>
    if mode.next c = .comment then stripFrom .comment cs else c :: stripFrom (mode.next c) cs

/-- The text without its comments: each one goes from its mark up to the newline or the end. -/
def withoutComments (cs : List Char) : List Char := stripFrom .code cs

/-- The text cut behind each newline that is in no string literal. -/
def cutFrom : Mode → List Char → List (List Char)
  | _, [] => [[]]
  | mode, c :: cs =>
    if c = '\n' ∧ mode ≠ .literal then [c] :: cutFrom (mode.next c) cs
    else (cutFrom (mode.next c) cs).modifyHead (c :: ·)

/-- The lines of a text that begin outside string literals. All but the last have a newline at their
end. -/
def logicalLines (cs : List Char) : List (List Char) := cutFrom .code cs

variable {mode : Mode} {a b : List Char}

theorem stripFrom_append (stays : ∀ c ∈ a, mode.next c = mode) :
    stripFrom mode (a ++ b) = (if mode = .comment then [] else a) ++ stripFrom mode b := by
  induction a with
  | nil => simp
  | cons c a ih =>
      rw [List.cons_append, stripFrom, stays c (by simp), ih fun d hd => stays d (by simp [hd])]
      split <;> simp_all

theorem cutFrom_append (stays : ∀ c ∈ a, mode.next c = mode)
    (sameLine : mode ≠ .literal → '\n' ∉ a) :
    cutFrom mode (a ++ b) = (cutFrom mode b).modifyHead (a ++ ·) := by
  induction a with
  | nil => cases h : cutFrom mode b <;> simp [h]
  | cons c a ih =>
      have inner : ¬ (c = '\n' ∧ mode ≠ .literal) := by
        rintro ⟨rfl, outside⟩
        simpa using sameLine outside
      rw [List.cons_append, cutFrom, if_neg inner, stays c (by simp),
        ih (fun d hd => stays d (by simp [hd])) fun outside hmem =>
          sameLine outside (by simp [hmem]),
        List.modifyHead_modifyHead]
      rfl

/-- At the end of a line a comment ends. -/
theorem stripFrom_comment (ends : b = [] ∨ ∃ more, b = '\n' :: more) :
    stripFrom .comment b = stripFrom .code b := by
  obtain rfl | ⟨more, rfl⟩ := ends <;> rfl

theorem cutFrom_comment (ends : b = [] ∨ ∃ more, b = '\n' :: more) :
    cutFrom .comment b = cutFrom .code b := by
  obtain rfl | ⟨more, rfl⟩ := ends <;> rfl

theorem cutFrom_ne_nil (mode : Mode) (cs : List Char) : cutFrom mode cs ≠ [] := by
  induction cs generalizing mode with
  | nil => exact List.cons_ne_nil _ _
  | cons c cs ih =>
      rw [cutFrom]
      split
      · exact List.cons_ne_nil _ _
      · simpa using ih (mode.next c)

theorem flatten_cutFrom (mode : Mode) (cs : List Char) : (cutFrom mode cs).flatten = cs := by
  induction cs generalizing mode with
  | nil => rfl
  | cons c cs ih =>
      have more := ih (mode.next c)
      rw [cutFrom]
      split
      · rw [List.flatten_cons, more]
        rfl
      · obtain ⟨line, lines, hcut⟩ := List.exists_cons_of_ne_nil (cutFrom_ne_nil (mode.next c) cs)
        rw [hcut] at more ⊢
        exact congrArg (c :: ·) more

/-- The lines of a text put together again are the text. -/
theorem flatten_logicalLines (cs : List Char) : (logicalLines cs).flatten = cs :=
  flatten_cutFrom .code cs

theorem stays_code (h : ∀ c ∈ a, c ≠ '~' ∧ c ≠ '"') : ∀ c ∈ a, Mode.code.next c = .code := by
  intro c hc
  simp [Mode.next, h c hc]

theorem stays_literal (h : '"' ∉ a) : ∀ c ∈ a, Mode.literal.next c = .literal := by
  intro c hc
  have apart : c ≠ '"' := fun same => h (same ▸ hc)
  simp [Mode.next, apart]

theorem stays_comment (h : '\n' ∉ a) : ∀ c ∈ a, Mode.comment.next c = .comment := by
  intro c hc
  have apart : c ≠ '\n' := fun same => h (same ▸ hc)
  simp [Mode.next, apart]

end Text

namespace Piece

def isComment : Piece → Bool
  | comment _ => true
  | _ => false

/-- Whether the piece is code and neither a newline nor a string literal. -/
def isPlain : Piece → Bool
  | newline | comment _ | quoted _ _ => false
  | _ => true

theorem isComment_of_isPlain {p : Piece} (plain : p.isPlain) : p.isComment = false := by
  cases p <;> first | rfl | contradiction

/-- A piece in front of a text, by its part in the modes. -/
inductive Shape : Piece → List Char → Prop
  | newline {rest} : Shape .newline rest
  | plain {p rest} (plain : p.isPlain) (inner : ∀ c ∈ p.chars, c ≠ '\n' ∧ c ≠ '~' ∧ c ≠ '"') :
      Shape p rest
  | comment {text rest} (sameLine : '\n' ∉ text) (ends : rest = [] ∨ ∃ more, rest = '\n' :: more) :
      Shape (.comment text) rest
  | closed {body rest} (noQuote : '"' ∉ body) : Shape (.quoted body true) rest
  | unclosed {body} (noQuote : '"' ∉ body) : Shape (.quoted body false) []

theorem Stands.shape {p : Piece} {rest : List Char} (h : p.Stands rest)
    (hsplit : split (p.chars ++ rest) = p :: split rest) : p.Shape rest := by
  have inner (apart : ∀ c ∈ p.chars, Text.isBound c = false) :
      ∀ c ∈ p.chars, c ≠ '\n' ∧ c ≠ '~' ∧ c ≠ '"' := by
    intro c hc
    have apart := apart c hc
    simp only [Text.isBound, Bool.or_eq_false_iff, decide_eq_false_iff_not] at apart
    exact ⟨apart.1.1.1, apart.1.2, apart.2⟩
  cases h with
  | newline => exact .newline
  | comment sameLine ends => exact .comment sameLine ends
  | closed noQuote => exact .closed noQuote
  | unclosed noQuote => exact .unclosed noQuote
  | @blank c _ isBlank sameLine =>
      refine .plain rfl fun d hd => ?_
      obtain rfl := List.mem_singleton.1 hd
      refine ⟨sameLine, ?_, ?_⟩ <;> rintro rfl <;> contradiction
  | @lexeme kind text _ written nonempty =>
      exact .plain rfl (inner (isBound_of_mem_chars hsplit (.inl ⟨kind, text, nonempty, rfl⟩)))
  | @rejected c _ sameLine =>
      exact .plain rfl (inner (isBound_of_mem_chars hsplit (.inr ⟨c, rfl⟩)))

variable {p : Piece} {rest rest' : List Char}

theorem Stands.of_code (h : p.Stands rest) (code : p.isComment = false)
    (ends : rest = [] → rest' = []) : p.Stands rest' := by
  cases h with
  | newline => exact .newline
  | blank isBlank sameLine => exact .blank isBlank sameLine
  | comment _ _ => contradiction
  | closed noQuote => exact .closed noQuote
  | unclosed noQuote =>
      rw [ends rfl]
      exact .unclosed noQuote
  | lexeme written nonempty => exact .lexeme written nonempty
  | rejected sameLine => exact .rejected sameLine

theorem Shape.withoutComments (h : p.Shape rest) :
    Text.withoutComments (p.chars ++ rest) =
      (if p.isComment then [] else p.chars) ++ Text.withoutComments rest := by
  unfold Text.withoutComments
  cases h with
  | newline => rfl
  | plain plain inner =>
      rw [Text.stripFrom_append (Text.stays_code fun c hc => (inner c hc).2),
        isComment_of_isPlain plain]
      rfl
  | comment sameLine ends =>
      rw [chars, List.cons_append, Text.stripFrom, ← Text.stripFrom_comment ends]
      exact Text.stripFrom_append (Text.stays_comment sameLine)
  | @closed body _ noQuote =>
      have stripped := @Text.stripFrom_append _ body ('"' :: rest) (Text.stays_literal noQuote)
      have whole : chars (.quoted body true) ++ rest = '"' :: (body ++ '"' :: rest) := by
        simp [chars]
      calc Text.stripFrom .code (chars (.quoted body true) ++ rest)
          = '"' :: Text.stripFrom .literal (body ++ '"' :: rest) := by rw [whole]; rfl
        _ = '"' :: (body ++ '"' :: Text.stripFrom .code rest) := by rw [stripped]; rfl
        _ = chars (.quoted body true) ++ Text.stripFrom .code rest := by simp [chars]
  | @unclosed body noQuote =>
      have stripped := @Text.stripFrom_append _ body [] (Text.stays_literal noQuote)
      have whole : chars (.quoted body false) = '"' :: body := by simp [chars]
      calc Text.stripFrom .code (chars (.quoted body false) ++ [])
          = '"' :: Text.stripFrom .literal (body ++ []) := by rw [whole]; rfl
        _ = '"' :: (body ++ []) := by rw [stripped]; rfl
        _ = chars (.quoted body false) ++ [] := by rw [whole]; rfl

theorem Shape.logicalLines (h : p.Shape rest) (notNewline : p ≠ .newline) :
    Text.logicalLines (p.chars ++ rest) = (Text.logicalLines rest).modifyHead (p.chars ++ ·) := by
  unfold Text.logicalLines
  cases h with
  | newline => contradiction
  | plain _ inner =>
      exact Text.cutFrom_append (Text.stays_code fun c hc => (inner c hc).2)
        fun _ hmem => (inner _ hmem).1 rfl
  | @comment text _ sameLine ends =>
      have cut := @Text.cutFrom_append _ text rest (Text.stays_comment sameLine) fun _ => sameLine
      calc Text.cutFrom .code ('~' :: text ++ rest)
          = (Text.cutFrom .comment (text ++ rest)).modifyHead ('~' :: ·) := rfl
        _ = (Text.cutFrom .code rest).modifyHead ('~' :: text ++ ·) := by
          rw [cut, List.modifyHead_modifyHead, Text.cutFrom_comment ends]
          rfl
  | @closed body _ noQuote =>
      have cut := @Text.cutFrom_append _ body ('"' :: rest) (Text.stays_literal noQuote)
        fun outside => absurd rfl outside
      have whole : chars (.quoted body true) ++ rest = '"' :: (body ++ '"' :: rest) := by
        simp [chars]
      calc Text.cutFrom .code (chars (.quoted body true) ++ rest)
          = (Text.cutFrom .literal (body ++ '"' :: rest)).modifyHead ('"' :: ·) := by
            rw [whole]; rfl
        _ = (Text.cutFrom .code rest).modifyHead (chars (.quoted body true) ++ ·) := by
          rw [cut]
          change (((Text.cutFrom .code rest).modifyHead ('"' :: ·)).modifyHead _).modifyHead _ = _
          rw [List.modifyHead_modifyHead, List.modifyHead_modifyHead]
          refine congrArg (List.modifyHead · _) (funext fun line => ?_)
          simp [chars]
  | @unclosed body noQuote =>
      have cut := @Text.cutFrom_append _ body [] (Text.stays_literal noQuote)
        fun outside => absurd rfl outside
      have whole : chars (.quoted body false) = '"' :: body := by simp [chars]
      calc Text.cutFrom .code (chars (.quoted body false) ++ [])
          = (Text.cutFrom .literal (body ++ [])).modifyHead ('"' :: ·) := by rw [whole]; rfl
        _ = [chars (.quoted body false) ++ []] := by rw [cut, whole]; rfl

/-- Up to its first newline a text is one line. -/
theorem logicalLines_append {ps qs : List Piece} {cs : List Char} (h : split cs = ps ++ qs)
    (sameLine : .newline ∉ ps) :
    Text.logicalLines cs =
      (Text.logicalLines (qs.flatMap chars)).modifyHead (ps.flatMap chars ++ ·) := by
  induction ps generalizing cs with
  | nil =>
      rw [List.nil_append] at h
      rw [← h, flatMap_chars_split]
      cases Text.logicalLines cs <;> rfl
  | cons p ps ih =>
      rw [List.mem_cons, not_or] at sameLine
      obtain ⟨r, rfl, stands, hsplit, hrest⟩ := exists_of_split_cons h
      rw [(stands.shape hsplit).logicalLines (Ne.symm sameLine.1), ih hrest sameLine.2,
        List.modifyHead_modifyHead]
      refine congrArg (List.modifyHead · _) (funext fun line => ?_)
      rw [List.flatMap_cons, List.append_assoc]
      rfl

theorem logicalLines_last {cs : List Char} (last : .newline ∉ split cs) :
    Text.logicalLines cs = [cs] := by
  rw [logicalLines_append (List.append_nil _).symm last, flatMap_chars_split]
  exact congrArg (· :: []) (List.append_nil cs)

end Piece

end PasoFrontEnd
