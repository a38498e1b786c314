import Mathlib.Data.List.TakeWhile
import PasoFrontEnd.Proofs.Scan.Spelling

/-!
How far reading looks. A word, a number or a symbol never depends on what stands behind the next
newline, return, quote or comment mark, so a piece is read as before if the text up to there stays
as it is. Above all, the pieces in front of a newline do not depend on the text behind it.
-/

namespace PasoFrontEnd

namespace Text

/-- The characters that no word, number or symbol is read across. -/
def isBound (c : Char) : Bool := c = '\n' || c = '\r' || c = '~' || c = '"'

/-- The text as far as the next bound. -/
def reach (cs : List Char) : List Char := cs.takeWhile (!isBound ·)

/-- A bound comes next, or the end. -/
def Bounded (cs : List Char) : Prop := ∀ c ∈ cs.head?, isBound c

theorem eq_of_isBound {c : Char} (h : isBound c) : c = '\n' ∨ c = '\r' ∨ c = '~' ∨ c = '"' := by
  simpa [isBound, or_assoc] using h

/-- A class of characters without bounds. -/
def Inner (p : Char → Bool) : Prop := ∀ c, isBound c → p c = false

theorem inner_isGap : Inner isGap := by
  intro c hc
  obtain rfl | rfl | rfl | rfl := eq_of_isBound hc <;> rfl

theorem inner_isDigit : Inner Char.isDigit := by
  intro c hc
  obtain rfl | rfl | rfl | rfl := eq_of_isBound hc <;> rfl

theorem inner_isLetterOrNumeral : Inner isLetterOrNumeral := by
  intro c hc
  obtain rfl | rfl | rfl | rfl := eq_of_isBound hc <;> decide

theorem inner_not_isBound : Inner (!isBound ·) := by
  intro c hc
  simp [hc]

section Bounded

variable {p : Char → Bool} {a b : List Char}

theorem takeWhile_append_bounded (hp : Inner p) (h : Bounded b) :
    (a ++ b).takeWhile p = a.takeWhile p := by
  induction a with
  | nil =>
      cases b with
      | nil => rfl
      | cons c b => exact List.takeWhile_cons_of_neg (by simp [hp c (h c rfl)])
  | cons c a ih => simp only [List.cons_append, List.takeWhile_cons, ih]

theorem dropWhile_append_bounded (hp : Inner p) (h : Bounded b) :
    (a ++ b).dropWhile p = a.dropWhile p ++ b := by
  induction a with
  | nil =>
      cases b with
      | nil => rfl
      | cons c b => exact List.dropWhile_cons_of_neg (by simp [hp c (h c rfl)])
  | cons c a ih =>
      simp only [List.cons_append, List.dropWhile_cons, ih]
      split <;> rfl

theorem reach_append (h : Bounded b) : reach (a ++ b) = reach a :=
  takeWhile_append_bounded inner_not_isBound h

theorem reach_append_congr {r r' : List Char} (h : reach r = reach r') :
    reach (a ++ r) = reach (a ++ r') := by
  induction a with
  | nil => exact h
  | cons c a ih =>
      unfold reach at ih ⊢
      simp only [List.cons_append, List.takeWhile_cons, ih]

theorem exists_reach_append (cs : List Char) : ∃ b, cs = reach cs ++ b ∧ Bounded b := by
  refine ⟨cs.dropWhile (!isBound ·), cs.takeWhile_append_dropWhile.symm, fun c hc => ?_⟩
  have head := List.head?_dropWhile_not (!isBound ·) cs
  rw [Option.mem_def.1 hc] at head
  simpa using head

theorem isBound_of_mem_reach {cs : List Char} {c : Char} (h : c ∈ reach cs) :
    isBound c = false := by
  simpa using List.all_eq_true.1 List.all_takeWhile c h

end Bounded

end Text

open Text

namespace Piece

variable {a b : List Char} {c : Char}

theorem inWord_append (h : Bounded b) : inWord (a ++ b) = inWord a := by
  cases a with
  | cons _ _ => rfl
  | nil =>
      cases b with
      | nil => rfl
      | cons c b => simp [inWord, inner_isLetterOrNumeral c (h c rfl)]

theorem isPrefixOf_append_bounded {word : List Char} (inner : ∀ c ∈ word, isBound c = false)
    (h : Bounded b) : word.isPrefixOf (a ++ b) = word.isPrefixOf a := by
  induction word generalizing a with
  | nil => simp
  | cons d word ih =>
      cases a with
      | cons c a =>
          rw [List.cons_append, List.isPrefixOf_cons_cons, List.isPrefixOf_cons_cons,
            ih fun c hc => inner c (by simp [hc])]
      | nil =>
          cases b with
          | nil => rfl
          | cons c b =>
              have apart : d ≠ c := by
                rintro rfl
                simp [h d rfl] at inner
              simp [List.isPrefixOf, apart]

theorem readWords?_append {words : List (List Char)}
    (inner : ∀ word ∈ words, ∀ c ∈ word, isBound c = false) (h : Bounded b) :
    readWords? words (a ++ b) = (readWords? words a).map fun r => (r.1, r.2 ++ b) := by
  induction words generalizing a with
  | nil => rfl
  | cons word words ih =>
      simp only [readWords?, takeWhile_append_bounded inner_isGap h,
        dropWhile_append_bounded inner_isGap h, isPrefixOf_append_bounded (inner word (by simp)) h]
      generalize a.takeWhile Text.isGap = gap
      generalize a.dropWhile Text.isGap = tail
      cases found : word.isPrefixOf tail with
      | false => simp
      | true =>
          obtain ⟨rest, rfl⟩ := List.isPrefixOf_iff_prefix.1 found
          rw [List.append_assoc, List.drop_left, List.drop_left, inWord_append h,
            ih fun w hw => inner w (by simp [hw])]
          split
          · rfl
          · rw [Option.map_map, Option.map_map]
            rfl

theorem inner_of_continued? {first : List Char} {k : Keyword} {words : List (List Char)}
    (h : Keyword.continued? first = some (k, words)) :
    ∀ word ∈ words, ∀ c ∈ word, isBound c = false := by
  have inner : words.all (·.all (!isBound ·)) := by
    obtain ⟨-, -, rfl⟩ | ⟨-, -, rfl⟩ := Keyword.continued?_eq_some h <;> rfl
  intro word hword c hc
  simpa using List.all_eq_true.1 (List.all_eq_true.1 inner word hword) c hc

theorem readWord_append (h : Bounded b) :
    readWord c (a ++ b) = ((readWord c a).1, (readWord c a).2 ++ b) := by
  unfold readWord
  simp only [takeWhile_append_bounded inner_isLetterOrNumeral h,
    dropWhile_append_bounded inner_isLetterOrNumeral h]
  cases continued : Keyword.continued? (c :: a.takeWhile isLetterOrNumeral) with
  | none => rfl
  | some found =>
      simp only [readWords?_append (inner_of_continued? continued) h]
      cases readWords? found.2 (a.dropWhile isLetterOrNumeral) <;> rfl

theorem readNumber_append (h : Bounded b) :
    readNumber c (a ++ b) = ((readNumber c a).1, (readNumber c a).2 ++ b) := by
  unfold readNumber
  simp only [takeWhile_append_bounded inner_isDigit h, dropWhile_append_bounded inner_isDigit h]
  generalize a.dropWhile Char.isDigit = rest
  cases rest with
  | nil =>
      cases b with
      | nil => rfl
      | cons d b => obtain rfl | rfl | rfl | rfl := eq_of_isBound (h d rfl) <;> rfl
  | cons d rest =>
      by_cases point : d = '.'
      · subst point
        cases rest with
        | nil =>
            cases b with
            | nil => rfl
            | cons d b => simp [inner_isDigit d (h d rfl)]
        | cons d rest =>
            cases digit : d.isDigit with
            | true =>
                simp only [List.cons_append, digit, ↓reduceIte,
                  takeWhile_append_bounded inner_isDigit h,
                  dropWhile_append_bounded inner_isDigit h]
            | false => simp [digit]
      · rw [List.cons_append]
        split
        case h_1 whole => exact absurd (List.cons.inj whole).1 point
        case h_2 =>
          split
          case h_1 whole => exact absurd (List.cons.inj whole).1 point
          case h_2 => rfl

theorem readSymbol_append (h : Bounded b) :
    readSymbol c (a ++ b) = ((readSymbol c a).1, (readSymbol c a).2 ++ b) := by
  cases a with
  | nil =>
      cases b with
      | nil => rfl
      | cons d b => obtain rfl | rfl | rfl | rfl := eq_of_isBound (h d rfl) <;> rfl
  | cons d a =>
      by_cases equals : d = '='
      · subst equals
        simp only [List.cons_append, readSymbol]
        split <;> rfl
      · unfold readSymbol
        rw [List.cons_append]
        split
        case h_1 whole => exact absurd (List.cons.inj whole).1 equals
        case h_2 =>
          split
          case h_1 whole => exact absurd (List.cons.inj whole).1 equals
          case h_2 => rfl

/-- What is read at a character that is no bound is read in front of the next bound. -/
theorem read_append (hc : isBound c = false) (h : Bounded b) :
    read c (a ++ b) = ((read c a).1, (read c a).2 ++ b) := by
  have apart : c ≠ '\n' ∧ c ≠ '"' ∧ c ≠ '~' := by
    refine ⟨?_, ?_, ?_⟩ <;> rintro rfl <;> contradiction
  unfold read
  simp only [apart, ↓reduceIte, readNumber_append h, readWord_append h, readSymbol_append h]
  split
  · rfl
  · split
    · rfl
    · split <;> rfl

theorem isBound_of_mem_read {cs : List Char} (hc : isBound c = false) :
    ∀ d ∈ (read c cs).1.chars, isBound d = false := by
  obtain ⟨b, hcs, hb⟩ := exists_reach_append cs
  have same := congrArg Prod.fst (read_append (a := reach cs) hc hb)
  rw [← hcs] at same
  intro d hd
  rw [same] at hd
  have whole : d ∈ c :: reach cs := chars_append_read c (reach cs) ▸ List.mem_append_left _ hd
  obtain rfl | hd := List.mem_cons.1 whole
  · exact hc
  · exact isBound_of_mem_reach hd

/-- A piece is read in front of every text that goes on like the one it stands in front of. -/
theorem read_congr {p : Piece} {text r r' : List Char} (hc : isBound c = false)
    (h : read c (text ++ r) = (p, r)) (same : reach r = reach r') :
    read c (text ++ r') = (p, r') := by
  obtain ⟨b, hr, hb⟩ := exists_reach_append r
  obtain ⟨b', hr', hb'⟩ := exists_reach_append r'
  have piece : (read c (text ++ reach r)).1 = p ∧ (read c (text ++ reach r)).2 = reach r := by
    rw [hr, ← List.append_assoc, read_append hc hb, ← hr] at h
    obtain ⟨rfl, rest⟩ := Prod.mk.inj h
    exact ⟨rfl, List.append_cancel_right (rest.trans hr)⟩
  rw [hr', ← List.append_assoc, read_append hc hb', ← same, piece.1, piece.2]

theorem read_of_split {p : Piece} {text r : List Char} (chars : p.chars = c :: text)
    (h : split (p.chars ++ r) = p :: split r) : read c (text ++ r) = (p, r) := by
  rw [chars, List.cons_append, split_cons] at h
  have piece := (List.cons.inj h).1
  have whole := chars_append_read c (text ++ r)
  rw [piece, chars, List.cons_append] at whole
  exact Prod.ext piece (List.append_cancel_left (List.cons.inj whole).2)

/-- Words, numbers, symbols and characters that begin none of these begin with no bound. -/
theorem isBound_of_read {p : Piece} {cs r : List Char} (h : read c cs = (p, r))
    (hp : (∃ kind text, p = .lexeme kind text) ∨ p = .rejected c) : isBound c = false := by
  refine Bool.eq_false_iff.2 fun hc => ?_
  have apart : (read c cs).1 = p := congrArg Prod.fst h
  obtain rfl | rfl | rfl | rfl := eq_of_isBound hc
  · obtain ⟨kind, text, rfl⟩ | rfl := hp <;> contradiction
  · rw [read_blank (by decide)] at apart
    obtain ⟨kind, text, rfl⟩ | rfl := hp <;> contradiction
  · obtain ⟨kind, text, rfl⟩ | rfl := hp <;> contradiction
  · change (readQuoted cs).1 = p at apart
    unfold readQuoted at apart
    split at apart <;> obtain ⟨kind, text, rfl⟩ | rfl := hp <;> contradiction

/-- No word, number or symbol has a bound in it. -/
theorem isBound_of_mem_chars {p : Piece} {r : List Char} (h : split (p.chars ++ r) = p :: split r)
    (hp : (∃ kind text, text ≠ [] ∧ p = .lexeme kind text) ∨ ∃ d, p = .rejected d) :
    ∀ d ∈ p.chars, isBound d = false := by
  obtain ⟨kind, text, nonempty, rfl⟩ | ⟨d, rfl⟩ := hp
  · obtain ⟨d, text, rfl⟩ := List.exists_cons_of_ne_nil nonempty
    have hread := read_of_split rfl h
    have inner := @isBound_of_mem_read d (text ++ r) (isBound_of_read hread (.inl ⟨_, _, rfl⟩))
    rwa [hread] at inner
  · have hread := @read_of_split d _ [] r rfl h
    simpa [chars] using isBound_of_read hread (.inr rfl)

theorem read_lastComment {text : List Char} (sameLine : '\n' ∉ text) :
    read '~' text = (.comment text, []) := by
  have hp : ∀ d ∈ text, decide (d ≠ '\n') = true := by
    intro d hd
    simpa using fun (same : d = '\n') => sameLine (same ▸ hd)
  change readComment _ = _
  rw [readComment, List.takeWhile_eq_self_iff.2 hp, List.dropWhile_eq_nil_iff.2 hp]

theorem read_openText {text : List Char} (noQuote : '"' ∉ text) :
    read '"' text = (.quoted text false, []) := by
  have hp : ∀ d ∈ text, decide (d ≠ '"') = true := by
    intro d hd
    simpa using fun (same : d = '"') => noQuote (same ▸ hd)
  change readQuoted _ = _
  rw [readQuoted, List.dropWhile_eq_nil_iff.2 hp]

theorem split_newline (cs : List Char) : split ('\n' :: cs) = .newline :: split cs :=
  split_cons '\n' cs

/-- A piece is read in front of every text that it can stand in front of, if the text goes on as
before up to the next bound. -/
theorem split_congr {p : Piece} {r r' : List Char} (h : split (p.chars ++ r) = p :: split r)
    (stands : p.Stands r') (same : reach r = reach r') : split (p.chars ++ r') = p :: split r' := by
  cases stands with
  | newline => exact split_newline r'
  | blank isBlank sameLine =>
      rw [chars, List.singleton_append, split_cons,
        read_blank (by simp [isInnerBlank, isBlank, sameLine])]
  | @comment text _ sameLine ends =>
      rw [chars, List.cons_append, split_cons]
      obtain rfl | ⟨more, rfl⟩ := ends
      · rw [List.append_nil, read_lastComment sameLine]
      · rw [read_comment sameLine]
  | @closed body _ noQuote =>
      have whole : chars (.quoted body true) ++ r' = '"' :: (body ++ '"' :: r') := by simp [chars]
      rw [whole, split_cons, read_text noQuote]
  | @unclosed body noQuote =>
      have whole : chars (.quoted body false) ++ [] = '"' :: body := by simp [chars]
      rw [whole, split_cons, read_openText noQuote]
  | @lexeme kind text _ written nonempty =>
      obtain ⟨c, text, rfl⟩ := List.exists_cons_of_ne_nil nonempty
      have hread := read_of_split rfl h
      have hc := isBound_of_read hread (.inl ⟨kind, _, rfl⟩)
      rw [chars, List.cons_append, split_cons, read_congr hc hread same]
  | @rejected c _ sameLine =>
      have hread := @read_of_split c _ [] r rfl h
      have hc := isBound_of_read hread (.inr rfl)
      rw [chars, List.cons_append, split_cons, read_congr hc hread same]

theorem Stands.congr {p : Piece} {r r' : List Char} (h : p.Stands r) (head : r'.head? = r.head?) :
    p.Stands r' := by
  cases h with
  | newline => exact .newline
  | blank isBlank sameLine => exact .blank isBlank sameLine
  | closed noQuote => exact .closed noQuote
  | unclosed noQuote =>
      obtain rfl := List.head?_eq_none_iff.1 head
      exact .unclosed noQuote
  | lexeme written nonempty => exact .lexeme written nonempty
  | rejected sameLine => exact .rejected sameLine
  | comment sameLine ends =>
      refine .comment sameLine ?_
      obtain rfl | ⟨more, rfl⟩ := ends
      · exact .inl (List.head?_eq_none_iff.1 head)
      · exact .inr (List.head?_eq_some_iff.1 head)

/-- The last pieces of a text are the pieces of its last part. -/
theorem split_flatMap_chars {ps qs : List Piece} {cs : List Char} (h : split cs = ps ++ qs) :
    split (qs.flatMap chars) = qs := by
  induction ps generalizing cs with
  | nil =>
      rw [List.nil_append] at h
      rw [← h, flatMap_chars_split]
  | cons p ps ih =>
      cases cs with
      | nil => simp at h
      | cons c cs =>
          rw [split_cons] at h
          exact ih (List.cons.inj h).2

/-- The first piece of a text and the text behind it. -/
theorem exists_of_split_cons {p : Piece} {ps : List Piece} {cs : List Char}
    (h : split cs = p :: ps) :
    ∃ r, cs = p.chars ++ r ∧ p.Stands r ∧ split (p.chars ++ r) = p :: split r ∧ split r = ps := by
  cases cs with
  | nil => simp at h
  | cons c cs =>
      rw [split_cons] at h
      obtain ⟨rfl, rfl⟩ := List.cons.inj h
      refine ⟨(read c cs).2, (chars_append_read c cs).symm, stands_read c cs, ?_, rfl⟩
      rw [chars_append_read, split_cons]

/-- The pieces in front of a newline do not depend on what stands behind it. -/
theorem split_append_newline {ps : List Piece} {rest : List Char}
    (h : split (ps.flatMap chars ++ '\n' :: rest) = ps ++ .newline :: split rest)
    (rest' : List Char) :
    split (ps.flatMap chars ++ '\n' :: rest') = ps ++ .newline :: split rest' := by
  induction ps with
  | nil => exact split_newline rest'
  | cons p ps ih =>
      rw [List.flatMap_cons, List.append_assoc] at h ⊢
      have tail : split (ps.flatMap chars ++ '\n' :: rest) = ps ++ .newline :: split rest := by
        have whole :
            (ps ++ .newline :: split rest).flatMap chars = ps.flatMap chars ++ '\n' :: rest := by
          rw [List.flatMap_append, List.flatMap_cons, flatMap_chars_split]
          rfl
        rw [← whole]
        exact @split_flatMap_chars [p] _ _ h
      obtain ⟨r, whole, stands, -⟩ := exists_of_split_cons h
      rw [← List.append_cancel_left whole] at stands
      have stands' : p.Stands (ps.flatMap chars ++ '\n' :: rest') := stands.congr (by simp)
      have same :
          reach (ps.flatMap chars ++ '\n' :: rest) = reach (ps.flatMap chars ++ '\n' :: rest') := by
        rw [reach_append (by simp [Bounded, isBound]), reach_append (by simp [Bounded, isBound])]
      rw [List.cons_append, ← tail] at h
      rw [split_congr h stands' same, ih tail, List.cons_append]

end Piece

end PasoFrontEnd
