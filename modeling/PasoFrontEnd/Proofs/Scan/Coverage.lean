import PasoFrontEnd.Proofs.Scan.Cutting

/-!
A scan covers its text: every character belongs to the spelling of one token, to a comment that is
left out, to the white space between them, or to one error. Tokens and errors stand at the place
behind the text before them, and block markers where the cursor is when they are put out.
-/

namespace PasoFrontEnd

namespace Location

/-- The place behind a text, counted from its beginning. -/
def behind (text : List Char) : Location :=
  ⟨1 + text.count '\n', 1 + (text.reverse.takeWhile (· ≠ '\n')).length⟩

theorem behind_append_singleton (text : List Char) (c : Char) :
    behind (text ++ [c]) = (behind text).next c := by
  by_cases h : c = '\n'
  · simp [behind, next, h, Nat.add_assoc]
  · simp [behind, next, h, Nat.add_comm]

theorem behind_append (text cs : List Char) : behind (text ++ cs) = (behind text).advance cs := by
  induction cs generalizing text with
  | nil => simp [advance]
  | cons c cs ih =>
      rw [← List.singleton_append, ← List.append_assoc, ih, behind_append_singleton]
      rfl

end Location

namespace Scan

/-- The cursor is at the beginning of a line, behind its spaces and tabs. -/
def AtLineHead (before rest : List Char) : Prop :=
  ∃ front gap, before = front ++ gap ∧ (front = [] ∨ ∃ text, front = text ++ ['\n']) ∧
    (∀ c ∈ gap, Text.isGap c) ∧ ∀ c ∈ rest.head?, Text.isGap c = false

/-- Behind the text `before`, the text `rest` gives these tokens and errors. Each rule but the last
four takes a segment from the head of `rest`: the spelling of one token, a comment that is left out,
a character of white space, or a character that begins no token. The other four take nothing: a
block marker, the two errors in the layout of blocks, and the end of the input. -/
inductive Covers (keepComments : Bool) :
    List Char → List Char → List Token → List LexError → Prop
  | newline {before rest ts es} (more : Covers keepComments (before ++ ['\n']) rest ts es) :
      Covers keepComments before ('\n' :: rest) (⟨.newline, "\n", .behind before⟩ :: ts) es
  | written {before kind text rest ts es} (written : kind.isWritten) (nonempty : text ≠ [])
      (more : Covers keepComments (before ++ text) rest ts es) :
      Covers keepComments before (text ++ rest)
        (⟨kind, String.ofList text, .behind before⟩ :: ts) es
  | text {before body rest ts es} (noQuote : '"' ∉ body)
      (more : Covers keepComments (before ++ '"' :: body ++ ['"']) rest ts es) :
      Covers keepComments before ('"' :: body ++ '"' :: rest)
        (⟨.text, String.ofList body, .behind before⟩ :: ts) es
  | openText {before body ts es} (noQuote : '"' ∉ body)
      (more : Covers keepComments (before ++ '"' :: body) [] ts es) :
      Covers keepComments before ('"' :: body) (⟨.text, String.ofList body, .behind before⟩ :: ts)
        (⟨.unterminatedString, .behind before⟩ :: es)
  | comment {before text rest ts es} (kept : keepComments = true) (sameLine : '\n' ∉ text)
      (ends : rest = [] ∨ ∃ next, rest = '\n' :: next)
      (more : Covers keepComments (before ++ '~' :: text) rest ts es) :
      Covers keepComments before ('~' :: text ++ rest)
        (⟨.comment, String.ofList text, .behind before⟩ :: ts) es
  | leftOut {before text rest ts es} (leftOut : keepComments = false) (sameLine : '\n' ∉ text)
      (ends : rest = [] ∨ ∃ next, rest = '\n' :: next)
      (more : Covers keepComments (before ++ '~' :: text) rest ts es) :
      Covers keepComments before ('~' :: text ++ rest) ts es
  | blank {before c rest ts es} (blank : Text.isBlank c) (sameLine : c ≠ '\n')
      (more : Covers keepComments (before ++ [c]) rest ts es) :
      Covers keepComments before (c :: rest) ts es
  | rejected {before c rest ts es} (more : Covers keepComments (before ++ [c]) rest ts es) :
      Covers keepComments before (c :: rest) ts
        (⟨if c = '!' then .malformedNegation else .invalidCharacter c, .behind before⟩ :: es)
  | marker {before rest kind ts es} (marker : kind = .indent ∨ kind = .dedent)
      (head : AtLineHead before rest ∨ rest = [])
      (more : Covers keepComments before rest ts es) :
      Covers keepComments before rest (⟨kind, "", .behind before⟩ :: ts) es
  | misaligned {before rest width ts es} (head : AtLineHead before rest)
      (more : Covers keepComments before rest ts es) :
      Covers keepComments before rest ts (⟨.inconsistentDedent width, .behind before⟩ :: es)
  | openBlocks {before depth ts es} (more : Covers keepComments before [] ts es) :
      Covers keepComments before [] ts (⟨.unterminatedBlock depth, .behind before⟩ :: es)
  | ended {before} : Covers keepComments before [] [⟨.eof, "", .behind before⟩] []

/-- Behind the text `before`, the text `rest` gives the tokens and errors of these events. -/
def CoversEvents (o : ScanOptions) (before rest : List Char) (events : List Event) : Prop :=
  Covers o.keepComments before rest (events.flatMap (Event.tokens o.keepComments))
    (events.flatMap Event.errors)

variable {o : ScanOptions} {before rest : List Char} {events : List Event}

theorem covers_piece {p : Piece} (h : p.Stands rest)
    (more : CoversEvents o (before ++ p.chars) rest events) :
    CoversEvents o before (p.chars ++ rest) (.piece p (.behind before) :: events) := by
  unfold CoversEvents at more ⊢
  simp only [List.flatMap_cons]
  cases h with
  | newline => exact .newline more
  | blank isBlank sameLine => exact .blank isBlank sameLine more
  | comment sameLine ends =>
      cases hk : o.keepComments with
      | true =>
          rw [hk] at more
          exact .comment rfl sameLine ends more
      | false =>
          rw [hk] at more
          exact .leftOut rfl sameLine ends more
  | closed noQuote =>
      rename_i body
      have whole : before ++ Piece.chars (.quoted body true) = before ++ '"' :: body ++ ['"'] := by
        simp [Piece.chars]
      have text := Covers.text noQuote (whole ▸ more)
      simpa [Piece.chars, Event.tokens, Event.errors, Piece.token?, Piece.fault?] using text
  | unclosed noQuote =>
      rename_i body
      have whole : Piece.chars (.quoted body false) = '"' :: body := by simp [Piece.chars]
      rw [whole] at more ⊢
      rw [List.append_nil]
      exact .openText noQuote more
  | lexeme written nonempty => exact .written written nonempty more
  | rejected _ => exact .rejected more

theorem covers_layout (changes : List Layout.Change) (head : AtLineHead before rest)
    (more : CoversEvents o before rest events) :
    CoversEvents o before rest (changes.map (Event.layout · (.behind before)) ++ events) := by
  induction changes with
  | nil => exact more
  | cons change changes ih =>
      unfold CoversEvents at ih ⊢
      simp only [List.map_cons, List.cons_append, List.flatMap_cons]
      cases change with
      | opened _ => exact .marker (.inl rfl) (.inl head) ih
      | closed _ => exact .marker (.inr rfl) (.inl head) ih
      | misaligned _ => exact .misaligned head ih

theorem covers_gap {gap : List Char} (hgap : ∀ c ∈ gap, Text.isGap c)
    (more : CoversEvents o (before ++ gap) rest events) :
    CoversEvents o before (gap ++ rest) events := by
  induction gap generalizing before with
  | nil => simpa using more
  | cons c gap ih =>
      have isGap : c = ' ' ∨ c = '\t' := by simpa [Text.isGap] using hgap c (by simp)
      have more : CoversEvents o (before ++ [c]) (gap ++ rest) events :=
        ih (fun d hd => hgap d (by simp [hd])) (by simpa using more)
      obtain rfl | rfl := isGap <;> exact .blank (by decide) (by decide) more

theorem covers_ended (depth : Nat) : CoversEvents o before [] [.ended depth (.behind before)] := by
  have markers (n : Nat) : Covers o.keepComments before []
      (List.replicate n ⟨.dedent, "", .behind before⟩ ++ [⟨.eof, "", .behind before⟩]) [] := by
    induction n with
    | zero => exact .ended
    | succ n ih => exact .marker (.inr rfl) (.inr rfl) ih
  unfold CoversEvents
  simp only [List.flatMap_cons, List.flatMap_nil, List.append_nil, Event.tokens, Event.errors]
  split
  · exact markers depth
  · exact .openBlocks (markers depth)

/-- The events of a scan from the beginning of a line on. -/
def eventsFrom (o : ScanOptions) (l : Layout) (loc : Location) (ps : List Piece) : List Event :=
  lineEvents o l loc ps ++ pieceEvents o (l.enterLine o.tabWidth ps).2 loc ps

theorem pieceEvents_newline (o : ScanOptions) (l : Layout) (loc : Location) (ps : List Piece) :
    pieceEvents o l loc (.newline :: ps) =
      .piece .newline loc :: eventsFrom o l (loc.next '\n') ps := rfl

theorem pieceEvents_cons {p : Piece} (sameLine : p ≠ .newline) (o : ScanOptions) (l : Layout)
    (loc : Location) (ps : List Piece) :
    pieceEvents o l loc (p :: ps) = .piece p loc :: pieceEvents o l (loc.advance p.chars) ps := by
  cases p <;> first | rfl | exact absurd rfl sameLine

/-- Pieces of one line put out what each of them stands for, wherever they are. -/
theorem flatMap_pieceEvents {α : Type} {f : Event → List α} {g : Piece → List α} {ps : List Piece}
    (sameLine : .newline ∉ ps) (hf : ∀ p ∈ ps, ∀ loc, f (.piece p loc) = g p) (l : Layout)
    (loc : Location) (rest : List Piece) :
    (pieceEvents o l loc (ps ++ rest)).flatMap f =
      ps.flatMap g ++ (pieceEvents o l (loc.advance (ps.flatMap Piece.chars)) rest).flatMap f := by
  induction ps generalizing loc with
  | nil => rfl
  | cons p ps ih =>
      rw [List.mem_cons, not_or] at sameLine
      rw [List.cons_append, pieceEvents_cons (Ne.symm sameLine.1), List.flatMap_cons,
        List.flatMap_cons, hf p (by simp), ih sameLine.2 fun p hp => hf p (by simp [hp]),
        List.flatMap_cons, Location.advance_append, List.append_assoc]

/-- Indentation has no part in what is put out, so it can be read before or after the changes that
it makes. -/
theorem flatMap_pieceEvents_gap {α : Type} {f : Event → List α}
    (hf : ∀ c loc, f (.piece (.blank c) loc) = []) (gap : List Char) (l : Layout) (loc : Location)
    (ps : List Piece) :
    (pieceEvents o l loc (gap.map Piece.blank ++ ps)).flatMap f =
      (pieceEvents o l (loc.advance gap) ps).flatMap f := by
  have chars : (gap.map Piece.blank).flatMap Piece.chars = gap := by
    simp [List.flatMap_map, Piece.chars]
  have silent : ∀ p ∈ gap.map Piece.blank, ∀ loc, f (.piece p loc) = [] := by
    intro p hp loc
    obtain ⟨c, -, rfl⟩ := List.mem_map.1 hp
    exact hf c loc
  rw [flatMap_pieceEvents (by simp) silent, chars]
  simp

theorem covers_line {cs : List Char} {l : Layout}
    (head : before = [] ∨ ∃ text, before = text ++ ['\n'])
    (more : ∀ {gap rest} (l : Layout), gap ++ rest = cs →
      CoversEvents o (before ++ gap) rest
        (pieceEvents o l (.behind (before ++ gap)) (Piece.split rest))) :
    CoversEvents o before cs (lineEvents o l (.behind before) (Piece.split cs) ++
      pieceEvents o (l.enterLine o.tabWidth (Piece.split cs)).2 (.behind before)
        (Piece.split cs)) := by
  have whole := cs.takeWhile_append_dropWhile (p := Text.isGap)
  have hindent := Piece.split_takeWhile_isGap cs
  have hgap : ∀ c ∈ cs.takeWhile Text.isGap, Text.isGap c :=
    List.all_eq_true.1 List.all_takeWhile
  have hrest : ∀ c ∈ (cs.dropWhile Text.isGap).head?, Text.isGap c = false := by
    intro c hc
    have hhead := List.head?_dropWhile_not Text.isGap cs
    rw [Option.mem_def.1 hc] at hhead
    simpa using hhead
  generalize cs.takeWhile Text.isGap = gap at *
  generalize cs.dropWhile Text.isGap = rest at *
  subst whole
  -- the events have the changes in front of the indentation, the text behind it
  rw [lineEvents, hindent, ← Location.behind_append]
  generalize l.enterLine o.tabWidth (Piece.split (gap ++ rest)) = entered
  have covers := covers_gap hgap (covers_layout entered.1 ⟨before, gap, rfl, head, hgap, hrest⟩
    (more entered.2 rfl))
  unfold CoversEvents at covers ⊢
  rw [Location.behind_append] at covers ⊢
  simpa only [List.flatMap_append, Piece.split_append_of_isGap hgap,
    flatMap_pieceEvents_gap (f := Event.tokens o.keepComments) (fun _ _ => rfl),
    flatMap_pieceEvents_gap (f := Event.errors) (fun _ _ => rfl)] using covers

/-- Behind a newline the indentation of the next line is taken off before the rest is looked at. -/
theorem covers_pieceEvents (o : ScanOptions) (before cs : List Char) (l : Layout) :
    CoversEvents o before cs (pieceEvents o l (.behind before) (Piece.split cs)) := by
  induction cs using Piece.text_induction generalizing before l with
  | nil =>
      rw [Piece.split_nil]
      exact covers_ended _
  | @piece p rest stands hsplit ih =>
      rw [hsplit]
      by_cases hp : p = .newline
      · subst hp
        refine covers_piece stands ?_
        change CoversEvents o (before ++ ['\n']) rest
          (lineEvents o l ((Location.behind before).next '\n') _ ++ pieceEvents o _ _ _)
        rw [← Location.behind_append_singleton]
        refine covers_line (.inr ⟨before, rfl⟩) fun l hrest => ih _ ?_ _ l
        rw [← hrest, List.length_append]
        exact Nat.le_add_left _ _
      · have more := ih rest (Nat.le_refl _) (before ++ p.chars) l
        rw [Location.behind_append] at more
        have covered := covers_piece stands more
        cases p <;> first | exact covered | contradiction

/-- Every scan covers its text, from the beginning to the end. -/
theorem covers_ofString (source : String) (o : ScanOptions) :
    Covers o.keepComments [] source.toList (ofString source o).tokens (ofString source o).errors :=
  covers_line (.inl rfl) fun l _ => covers_pieceEvents o _ _ l

end Scan

end PasoFrontEnd
