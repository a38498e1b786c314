import Mathlib
import PasoFrontEnd.Proofs.Layout.Lines

/-!
What follows the beginning of a block in a scan without errors. A token of the line that opens the
block comes next, unless the line has none: a line whose spaces and tabs are followed by other white
space counts in the layout even if nothing else stands on it, and then its newline comes next.
-/

namespace PasoFrontEnd

namespace Text

/-- The line counts in the layout and has no token but its newline. Behind its spaces and tabs
stands other white space, which is not the return of a newline, and behind all its white space only
the newline, or a comment that is left out. -/
structure Hollow (keepComments : Bool) (line : List Char) : Prop where
  blank : ∃ c ∈ (line.dropWhile isGap).head?, isInnerBlank c
  noReturn : ¬ ['\r', '\n'] <+: line.dropWhile isGap
  ends : ∃ c ∈ (line.dropWhile isInnerBlank).head?, c = '\n' ∨ c = '~' ∧ keepComments = false

theorem dropWhile_isInnerBlank (cs : List Char) :
    (cs.dropWhile isGap).dropWhile isInnerBlank = cs.dropWhile isInnerBlank := by
  induction cs with
  | nil => rfl
  | cons c cs ih =>
      cases h : isGap c with
      | true => simp [h, isInnerBlank_of_isGap h, ih]
      | false => simp [h]

end Text

namespace Layout

/-- A line of some width begins, behind its spaces and tabs, with no newline, return or comment. -/
theorem exists_head_of_lineWidth? {tabWidth w : Nat} {cs : List Char}
    (width : lineWidth? tabWidth (Piece.split cs) = some w) (pos : 0 < w) :
    ∃ c more, cs.dropWhile Text.isGap = c :: more ∧ c ≠ '\n' ∧ c ≠ '~' ∧
      ¬ ['\r', '\n'] <+: c :: more := by
  rw [lineWidth?, countedWidth?, Piece.dropWhile_isGap_split] at width
  cases hcs : cs.dropWhile Text.isGap with
  | nil =>
      rw [hcs, Piece.split_nil] at width
      cases width
      contradiction
  | cons c more =>
      rw [hcs] at width
      refine ⟨c, more, rfl, ?_, ?_, ?_⟩
      · rintro rfl
        rw [Piece.split_cons] at width
        contradiction
      · rintro rfl
        rw [Piece.split_cons] at width
        change (if Piece.split _ = [] then some 0 else none) = some w at width
        split at width
        · cases width
          contradiction
        · contradiction
      · rintro ⟨rest, hrest⟩
        obtain ⟨rfl, rfl⟩ : '\r' = c ∧ '\n' :: rest = more := by simpa using hrest
        have hsplit : Piece.split ('\r' :: '\n' :: rest) =
            .blank '\r' :: .newline :: Piece.split rest := by
          rw [Piece.split_cons, Piece.read_blank (by decide)]
          exact congrArg _ (Piece.split_cons '\n' rest)
        rw [hsplit] at width
        contradiction

/-- Whether a line of some width is hollow shows at the end of its white space. -/
theorem hollow_iff {tabWidth w : Nat} {cs rest : List Char} {c : Char} {keep : Bool}
    (width : lineWidth? tabWidth (Piece.split cs) = some w) (pos : 0 < w)
    (hrest : cs.dropWhile Text.isInnerBlank = c :: rest) :
    Text.Hollow keep cs ↔ c = '\n' ∨ c = '~' ∧ keep = false := by
  constructor
  · intro hollow
    obtain ⟨d, hd, ends⟩ := hollow.ends
    rw [hrest] at hd
    cases hd
    exact ends
  · intro ends
    obtain ⟨d, behind, hbehind, notNewline, notTilde, noReturn⟩ :=
      exists_head_of_lineWidth? width pos
    refine ⟨⟨d, by rw [hbehind]; rfl, ?_⟩, hbehind ▸ noReturn, ⟨c, by rw [hrest]; rfl, ends⟩⟩
    refine Decidable.byContradiction fun inner => ?_
    -- the white space would end with the spaces and tabs, at the same character
    rw [← Text.dropWhile_isInnerBlank, hbehind, List.dropWhile_cons_of_neg inner] at hrest
    cases hrest
    obtain rfl | ⟨rfl, -⟩ := ends <;> contradiction

end Layout

namespace Scan

variable {o : ScanOptions} {l : Layout} {cs : List Char}

/-- The tokens go on with one that is no structure, or, from a hollow line on, with a newline. -/
def Leads (hollow : Prop) (ts : List Token) : Prop :=
  ∃ t more, ts = t :: more ∧
    (¬ hollow ∧ t.kind.isStructural = false ∨ hollow ∧ t.kind = .newline)

theorem errors_ended_ne_nil (inside : l.levels ≠ []) (loc : Location) :
    (pieceEvents o l loc []).flatMap Event.errors ≠ [] := by
  have depth : l.levels.length ≠ 0 := by simpa using inside
  simp [pieceEvents, Event.errors, depth]

/-- What comes next behind the white space of a line inside a block. -/
theorem leads_of_not_blank {c : Char} {rest : List Char} (notBlank : Text.isInnerBlank c = false)
    (inside : l.levels ≠ []) (loc : Location)
    (faultless : (pieceEvents o l loc (Piece.split (c :: rest))).flatMap Event.errors = []) :
    Leads (c = '\n' ∨ c = '~' ∧ o.keepComments = false)
      ((pieceEvents o l loc (Piece.split (c :: rest))).flatMap (Event.tokens o.keepComments)) := by
  rw [Piece.split_cons] at faultless ⊢
  by_cases newline : c = '\n'
  · subst newline
    exact ⟨_, _, rfl, .inr ⟨.inl rfl, rfl⟩⟩
  by_cases tilde : c = '~'
  · subst tilde
    obtain ⟨text, after, hread, ends⟩ : ∃ text after, Piece.read '~' rest = (.comment text, after) ∧
        (after = [] ∨ ∃ more, after = '\n' :: more) := by
      cases Piece.stands_readComment rest with
      | comment _ ends => exact ⟨_, _, rfl, ends⟩
    rw [hread] at faultless ⊢
    cases keep : o.keepComments with
    | true => exact ⟨_, _, rfl, .inl ⟨by simp, rfl⟩⟩
    | false =>
        obtain rfl | ⟨more, rfl⟩ := ends
        · rw [Piece.split_nil] at faultless
          exact absurd faultless (@errors_ended_ne_nil o l inside _)
        · rw [Piece.split_cons]
          exact ⟨_, _, rfl, .inr ⟨by simp, rfl⟩⟩
  have notHollow : ¬ (c = '\n' ∨ c = '~' ∧ o.keepComments = false) := by simp [newline, tilde]
  have stands := Piece.stands_read c rest
  have chars := Piece.chars_append_read c rest
  generalize Piece.read c rest = r at *
  obtain ⟨p, after⟩ := r
  cases stands with
  | newline => cases chars; contradiction
  | blank isBlank sameLine =>
      cases chars
      simp [Text.isInnerBlank, isBlank, sameLine] at notBlank
  | comment _ _ => cases chars; contradiction
  | closed _ => exact ⟨_, _, rfl, .inl ⟨notHollow, rfl⟩⟩
  | unclosed _ => exact ⟨_, _, rfl, .inl ⟨notHollow, rfl⟩⟩
  | @lexeme kind _ _ written _ =>
      have unstructured : kind.isStructural = false := by cases kind <;> first | rfl | contradiction
      exact ⟨_, _, rfl, .inl ⟨notHollow, unstructured⟩⟩
  | rejected _ => contradiction

/-- What comes next where a line of some width has opened a block. -/
theorem leads_pieceEvents {w : Nat}
    (width : Layout.lineWidth? o.tabWidth (Piece.split cs) = some w) (pos : 0 < w)
    (inside : l.levels ≠ []) (loc : Location)
    (faultless : (pieceEvents o l loc (Piece.split cs)).flatMap Event.errors = []) :
    Leads (Text.Hollow o.keepComments cs)
      ((pieceEvents o l loc (Piece.split cs)).flatMap (Event.tokens o.keepComments)) := by
  have hblanks : ∀ c ∈ cs.takeWhile Text.isInnerBlank, Text.isInnerBlank c :=
    List.all_eq_true.1 List.all_takeWhile
  have hsplit := Piece.split_append_of_isInnerBlank hblanks (cs.dropWhile Text.isInnerBlank)
  rw [List.takeWhile_append_dropWhile] at hsplit
  cases hrest : cs.dropWhile Text.isInnerBlank with
  | nil =>
      rw [hsplit, hrest, Piece.split_nil, flatMap_pieceEvents_gap (fun _ _ => rfl)] at faultless
      exact absurd faultless (errors_ended_ne_nil inside _)
  | cons c rest =>
      have notBlank : Text.isInnerBlank c = false := by
        have hhead := List.head?_dropWhile_not Text.isInnerBlank cs
        rw [hrest] at hhead
        simpa using hhead
      rw [Layout.hollow_iff width pos hrest, hsplit, hrest,
        flatMap_pieceEvents_gap (fun _ _ => rfl)]
      rw [hsplit, hrest, flatMap_pieceEvents_gap (fun _ _ => rfl)] at faultless
      exact leads_of_not_blank notBlank inside _ faultless

/-- Every beginning of a block leads to a token of its line, by the number of the line. -/
inductive Openings (hollow : Nat → Prop) : List Token → Prop
  | nil : Openings hollow []
  | opened {t ts} (kind : t.kind = .indent) (next : Leads (hollow t.location.line) ts)
      (more : Openings hollow ts) : Openings hollow (t :: ts)
  | other {t ts} (kind : t.kind ≠ .indent) (more : Openings hollow ts) : Openings hollow (t :: ts)

theorem Openings.leads {hollow : Nat → Prop} {front rest : List Token} {t : Token}
    (h : Openings hollow (front ++ t :: rest)) (kind : t.kind = .indent) :
    Leads (hollow t.location.line) rest := by
  induction front with
  | nil =>
      cases h with
      | opened _ next _ => exact next
      | other notIndent _ => exact absurd kind notIndent
  | cons u front ih =>
      cases h with
      | opened _ _ more | other _ more => exact ih more

theorem openings_append {hollow : Nat → Prop} {ts us : List Token}
    (kinds : ∀ t ∈ ts, t.kind ≠ .indent) (h : Openings hollow us) : Openings hollow (ts ++ us) := by
  induction ts with
  | nil => exact h
  | cons t ts ih => exact .other (kinds t (by simp)) (ih fun u hu => kinds u (by simp [hu]))

theorem openings_of_kind_ne {hollow : Nat → Prop} {ts : List Token}
    (kinds : ∀ t ∈ ts, t.kind ≠ .indent) :
    Openings hollow ts := by
  have openings := openings_append kinds (.nil : Openings hollow [])
  rwa [List.append_nil] at openings

/-- Only a line that is wider than the line before it opens a block. -/
theorem kind_ne_indent_of_not_wider {w : Nat} {keep : Bool} (notWider : ¬ l.current < w)
    (loc : Location) {t : Token}
    (h : t ∈ ((l.enter w).1.map (Event.layout · loc)).flatMap (Event.tokens keep)) :
    t.kind ≠ .indent := by
  obtain ⟨event, hevent, ht⟩ := List.mem_flatMap.1 h
  obtain ⟨change, hchange, rfl⟩ := List.mem_map.1 hevent
  cases change with
  | opened w' =>
      rw [Layout.enter, if_neg notWider] at hchange
      split at hchange
      · obtain closed | misaligned := List.mem_append.1 hchange
        · obtain ⟨level, -, same⟩ := List.mem_map.1 closed
          contradiction
        · split at misaligned
          · contradiction
          · cases List.mem_singleton.1 misaligned
      · contradiction
  | closed _ =>
      obtain rfl := List.mem_singleton.1 ht
      simp
  | misaligned _ => contradiction

variable {before : List Char} {hollow : Nat → Prop}

/-- The line that opens a block is the one that is entered. -/
theorem openings_line
    (line : hollow (Location.behind before).line = Text.Hollow o.keepComments cs)
    (faultless : (eventsFrom o l (.behind before) (Piece.split cs)).flatMap Event.errors = [])
    (more : ∀ l : Layout,
      (pieceEvents o l (.behind before) (Piece.split cs)).flatMap Event.errors = [] →
      Openings hollow ((pieceEvents o l (.behind before) (Piece.split cs)).flatMap
        (Event.tokens o.keepComments))) :
    Openings hollow
      ((eventsFrom o l (.behind before) (Piece.split cs)).flatMap
        (Event.tokens o.keepComments)) := by
  have hloc := line_indentation before cs
  rw [eventsFrom, List.flatMap_append] at faultless ⊢
  obtain ⟨-, faultless⟩ := List.append_eq_nil_iff.1 faultless
  have openings := more _ faultless
  unfold lineEvents Layout.enterLine at *
  cases width : Layout.lineWidth? o.tabWidth (Piece.split cs) with
  | none =>
      simp only [width] at openings ⊢
      exact openings
  | some w =>
      simp only [width] at faultless openings ⊢
      by_cases wider : l.current < w
      · rw [Layout.enter, if_pos wider] at faultless openings ⊢
        refine .opened rfl ?_ openings
        rw [hloc, line]
        exact leads_pieceEvents width (Nat.zero_lt_of_lt wider) (List.cons_ne_nil _ _) _ faultless
      · exact openings_append (fun t ht => kind_ne_indent_of_not_wider wider _ ht) openings

/-- From the cursor on, the lines that open blocks lead to their tokens. -/
theorem openings_pieceEvents {source : List Char} (whole : before ++ cs = source)
    (faultless : (pieceEvents o l (.behind before) (Piece.split cs)).flatMap Event.errors = []) :
    Openings (fun line => Text.Hollow o.keepComments (Text.fromLine source line))
      ((pieceEvents o l (.behind before) (Piece.split cs)).flatMap
        (Event.tokens o.keepComments)) := by
  induction cs using Piece.text_induction generalizing before l with
  | nil =>
      rw [Piece.split_nil]
      refine openings_of_kind_ne fun t ht => ?_
      simp only [pieceEvents, List.flatMap_cons, List.flatMap_nil, List.append_nil, Event.tokens,
        List.mem_append, List.mem_replicate, List.mem_singleton] at ht
      obtain ⟨-, rfl⟩ | rfl := ht <;> simp
  | @piece p rest stands hsplit ih =>
      rw [hsplit] at faultless ⊢
      by_cases hp : p = .newline
      · subst hp
        rw [pieceEvents_newline, ← Location.behind_append_singleton] at faultless ⊢
        rw [List.flatMap_cons] at faultless ⊢
        have whole' : before ++ ['\n'] ++ rest = source := by rw [← whole]; simp [Piece.chars]
        refine .other (by simp) (openings_line ?_ faultless fun l faultless => ?_)
        · rw [← whole', Location.line_behind, Text.fromLine_append (.inr ⟨before, rfl⟩)]
        · exact ih rest (Nat.le_refl _) whole' faultless
      · rw [pieceEvents_cons hp, ← Location.behind_append] at faultless ⊢
        rw [List.flatMap_cons] at faultless ⊢
        obtain ⟨-, faultless⟩ := List.append_eq_nil_iff.1 faultless
        refine openings_append (fun t ht => ?_)
          (ih rest (Nat.le_refl _) (by simpa using whole) faultless)
        simp only [Event.tokens] at ht
        split at ht
        · next h =>
            obtain rfl := List.mem_singleton.1 ht
            exact (stands.kind_token? h).1
        · contradiction

/-- In a scan without errors the beginning of a block is followed by a token of the line that begins
it, or by the newline of that line if the line is hollow; so nothing but hollow lines makes blocks
begin in front of structure. -/
theorem opened_leads {source : String} {o : ScanOptions}
    (faultless : (ofString source o).errors = []) {front rest : List Token} {t : Token}
    (stream : (ofString source o).tokens = front ++ t :: rest) (kind : t.kind = .indent) :
    Leads (Text.Hollow o.keepComments (Text.fromLine source.toList t.location.line)) rest := by
  have openings :
      Openings (fun line => Text.Hollow o.keepComments (Text.fromLine source.toList line))
      (ofString source o).tokens :=
    @openings_line o {} source.toList [] _ (by rfl) faultless fun l faultless =>
      openings_pieceEvents rfl faultless
  rw [stream] at openings
  exact openings.leads kind

set_option maxRecDepth 4000 in
/-- A block begins in front of the second line, which has a token. -/
theorem opened_leads_printed :
    let scan := ofString "si x\n  muestra x\n" {}
    scan.errors = [] ∧ ∃ front rest, scan.tokens = front ++ ⟨.indent, "", ⟨2, 3⟩⟩ :: rest ∧
      Leads (Text.Hollow true (Text.fromLine "si x\n  muestra x\n".toList 2)) rest := by
  intro scan
  have faultless : scan.errors = [] := by cbv
  have stream : scan.tokens =
      [⟨.keyword .si, "si", ⟨1, 1⟩⟩, ⟨.identifier, "x", ⟨1, 4⟩⟩, ⟨.newline, "\n", ⟨1, 5⟩⟩] ++
        ⟨.indent, "", ⟨2, 3⟩⟩ :: [⟨.keyword .muestra, "muestra", ⟨2, 3⟩⟩,
          ⟨.identifier, "x", ⟨2, 11⟩⟩, ⟨.newline, "\n", ⟨2, 12⟩⟩, ⟨.dedent, "", ⟨3, 1⟩⟩,
          ⟨.eof, "", ⟨3, 1⟩⟩] := by
    cbv
  exact ⟨faultless, _, _, stream, opened_leads faultless stream rfl⟩

/-- A space and a no-break space are a hollow line: the block that they open begins in front of a
newline. -/
theorem opened_before_newline :
    let scan := ofString " \u00a0\n" {}
    scan.errors = [] ∧ scan.tokens =
      [⟨.indent, "", ⟨1, 2⟩⟩, ⟨.newline, "\n", ⟨1, 3⟩⟩, ⟨.dedent, "", ⟨2, 1⟩⟩, ⟨.eof, "", ⟨2, 1⟩⟩] ∧
      ¬ ∀ front t rest, scan.tokens = front ++ t :: rest → t.kind = .indent →
        ∃ next more, rest = next :: more ∧ next.kind.isStructural = false := by
  intro scan
  have faultless : scan.errors = [] := by cbv
  have stream : scan.tokens = [⟨.indent, "", ⟨1, 2⟩⟩, ⟨.newline, "\n", ⟨1, 3⟩⟩,
      ⟨.dedent, "", ⟨2, 1⟩⟩, ⟨.eof, "", ⟨2, 1⟩⟩] := by
    cbv
  refine ⟨faultless, stream, fun every => ?_⟩
  obtain ⟨next, more, hnext, unstructured⟩ := every [] _ _ stream rfl
  cases hnext
  contradiction

end Scan

end PasoFrontEnd
