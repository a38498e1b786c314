import PasoFrontEnd.Proofs.Scan.Cutting

/-!
How tokens are spelled. A token in front of a space or a newline is read back as it was spelled;
only a word that begins a keyword of several words asks for the words behind it.
-/

namespace PasoFrontEnd

namespace Text

theorem exists_mem_of_inRanges {ranges : List (Nat × Nat)} {n : Nat} (h : inRanges ranges n) :
    ∃ r ∈ ranges, r.1 ≤ n ∧ n ≤ r.2 := by
  induction ranges with
  | nil => contradiction
  | cons r ranges ih =>
      obtain ⟨lo, hi⟩ := r
      rw [inRanges] at h
      split at h
      · contradiction
      · obtain inside | later := Bool.or_eq_true_iff.1 h
        · exact ⟨_, List.mem_cons_self, by omega, of_decide_eq_true inside⟩
        · obtain ⟨r, hr, inside⟩ := ih later
          exact ⟨r, List.mem_cons_of_mem _ hr, inside⟩

theorem inRanges_eq_false {ranges others : List (Nat × Nat)} {n : Nat}
    (apart : ∀ r ∈ ranges, ∀ o ∈ others, r.2 < o.1 ∨ o.2 < r.1) (h : inRanges ranges n) :
    inRanges others n = false := by
  refine Bool.eq_false_iff.2 fun h' => ?_
  obtain ⟨r, hr, inside⟩ := exists_mem_of_inRanges h
  obtain ⟨o, ho, inside'⟩ := exists_mem_of_inRanges h'
  have := apart r hr o ho
  omega

theorem isBlank_of_isLetter {c : Char} (h : isLetter c) : isBlank c = false :=
  inRanges_eq_false (by decide +kernel) h

theorem inRanges_of_isDigit {c : Char} (h : c.isDigit) : inRanges [(0x30, 0x39)] c.toNat := by
  have bounds : 0x30 ≤ c.toNat ∧ c.toNat ≤ 0x39 := by
    simpa [Char.isDigit, UInt32.le_iff_toNat_le] using h
  simp [inRanges, bounds]

theorem isBlank_of_isDigit {c : Char} (h : c.isDigit) : isBlank c = false :=
  inRanges_eq_false (by decide) (inRanges_of_isDigit h)

theorem isDigit_of_isLetter {c : Char} (h : isLetter c) : c.isDigit = false := by
  refine Bool.eq_false_iff.2 fun digit => ?_
  have inside := inRanges_of_isDigit digit
  rw [inRanges_eq_false (by decide +kernel) h] at inside
  contradiction

end Text

/-- The keywords of several words, by their first words. -/
theorem Keyword.continued?_eq_some {first : List Char} {k : Keyword} {words : List (List Char)}
    (h : Keyword.continued? first = some (k, words)) :
    first = "si".toList ∧ k = .siNo ∧ words = ["no".toList] ∨
      first = "de".toList ∧ k = .deLoContrario ∧ words = ["lo".toList, "contrario".toList] := by
  unfold Keyword.continued? at h
  split at h
  case isTrue si =>
    cases h
    exact .inl ⟨si, rfl, rfl⟩
  case isFalse =>
    split at h
    case isTrue de =>
      cases h
      exact .inr ⟨de, rfl, rfl⟩
    case isFalse => contradiction

/-- A kind with a lexeme that tokens of the kind have. -/
inductive Plain : Token.Kind × List Char → Prop
  | identifier {c cs} (letter : Text.isLetter c) (word : ∀ d ∈ cs, Text.isLetterOrNumeral d)
      (notKeyword : Keyword.ofSpelling? (String.ofList (c :: cs)) = none) :
      Plain (.identifier, c :: cs)
  | keyword (k : Keyword) : Plain (.keyword k, k.spelling.toList)
  | integer {ds} (nonempty : ds ≠ []) (digits : ∀ d ∈ ds, d.isDigit) : Plain (.integer, ds)
  | decimal {ds es} (nonempty : ds ≠ []) (digits : ∀ d ∈ ds, d.isDigit) (nonempty' : es ≠ [])
      (digits' : ∀ e ∈ es, e.isDigit) : Plain (.decimal, ds ++ '.' :: es)
  | text {body} (noQuote : '"' ∉ body) : Plain (.text, body)
  | symbol (s : Symbol) : Plain (.symbol s, s.spelling.toList)
  | comment {text} (sameLine : '\n' ∉ text) : Plain (.comment, text)

/-- How a token is written in a text. -/
def spelling : Token.Kind × List Char → List Char
  | (.text, body) => '"' :: body ++ ['"']
  | (.comment, text) => '~' :: text
  | (_, word) => word

/-- The piece that a token is read as. -/
def Piece.ofToken : Token.Kind × List Char → Piece
  | (.text, body) => .quoted body true
  | (.comment, text) => .comment text
  | (kind, word) => .lexeme kind word

/-- A space or a newline comes next. -/
def Separated (rest : List Char) : Prop := ∃ c more, rest = c :: more ∧ (c = ' ' ∨ c = '\n')

/-- Neither a word nor a number goes on at the head of the text. -/
def Apart (rest : List Char) : Prop :=
  ∀ c ∈ rest.head?, Text.isLetterOrNumeral c = false ∧ c.isDigit = false ∧ c ≠ '.'

namespace Apart

variable {rest : List Char}

theorem noLetter (h : Apart rest) : ∀ c ∈ rest.head?, Text.isLetterOrNumeral c = false :=
  fun c hc => (h c hc).1

theorem noDigit (h : Apart rest) : ∀ c ∈ rest.head?, c.isDigit = false := fun c hc => (h c hc).2.1

theorem noPoint (h : Apart rest) : ∀ d more, rest = '.' :: d :: more → d.isDigit = false := by
  rintro d more rfl
  exact absurd rfl (h '.' rfl).2.2

end Apart

section Separated

variable {p : Char → Bool} {text rest : List Char}

theorem Separated.apart (h : Separated rest) : Apart rest := by
  obtain ⟨c, more, rfl, hc⟩ := h
  intro d hd
  cases hd
  obtain rfl | rfl := hc <;> decide

/-- A class of characters that holds neither space nor newline ends in front of the separator. -/
theorem takeWhile_append_separated (hspace : p ' ' = false) (hnewline : p '\n' = false)
    (h : Separated rest) : (text ++ rest).takeWhile p = text.takeWhile p := by
  obtain ⟨c, more, rfl, hc⟩ := h
  have stop : p c = false := by obtain rfl | rfl := hc <;> assumption
  induction text with
  | nil => simp [stop]
  | cons d text ih => simp only [List.cons_append, List.takeWhile_cons, ih]

theorem takeWhile_spelled (hp : ∀ c ∈ text, p c) (stop : ∀ c ∈ rest.head?, p c = false) :
    (text ++ rest).takeWhile p = text := by
  rw [List.takeWhile_append_of_pos hp]
  cases rest with
  | nil => exact List.append_nil text
  | cons c rest => rw [List.takeWhile_cons_of_neg (by simp [stop c rfl]), List.append_nil]

theorem dropWhile_spelled (hp : ∀ c ∈ text, p c) (stop : ∀ c ∈ rest.head?, p c = false) :
    (text ++ rest).dropWhile p = rest := by
  rw [List.dropWhile_append_of_pos hp]
  cases rest with
  | nil => rfl
  | cons c rest => exact List.dropWhile_cons_of_neg (by simp [stop c rfl])

end Separated

namespace Piece

variable {c : Char} {cs text rest : List Char}

theorem read_eq_readNumber (digit : c.isDigit) : read c cs = readNumber c cs := by
  have hnewline : c ≠ '\n' := by rintro rfl; contradiction
  have hquote : c ≠ '"' := by rintro rfl; contradiction
  have htilde : c ≠ '~' := by rintro rfl; contradiction
  simp [read, hnewline, Text.isBlank_of_isDigit digit, hquote, htilde, digit]

theorem read_eq_readWord (letter : Text.isLetter c) : read c cs = readWord c cs := by
  have hnewline : c ≠ '\n' := by rintro rfl; contradiction
  have hquote : c ≠ '"' := by rintro rfl; contradiction
  have htilde : c ≠ '~' := by rintro rfl; contradiction
  simp [read, hnewline, Text.isBlank_of_isLetter letter, hquote, htilde,
    Text.isDigit_of_isLetter letter, letter]

theorem read_text (noQuote : '"' ∉ text) (rest : List Char) :
    read '"' (text ++ '"' :: rest) = (.quoted text true, rest) := by
  have hp : ∀ c ∈ text, decide (c ≠ '"') = true := by
    intro c hc
    simpa using fun (same : c = '"') => noQuote (same ▸ hc)
  change readQuoted _ = _
  rw [readQuoted, List.dropWhile_append_of_pos hp, List.dropWhile_cons_of_neg (by simp),
    List.takeWhile_append_of_pos hp, List.takeWhile_cons_of_neg (by simp), List.append_nil]

theorem read_comment (sameLine : '\n' ∉ text) (rest : List Char) :
    read '~' (text ++ '\n' :: rest) = (.comment text, '\n' :: rest) := by
  have hp : ∀ c ∈ text, decide (c ≠ '\n') = true := by
    intro c hc
    simpa using fun (same : c = '\n') => sameLine (same ▸ hc)
  change readComment _ = _
  rw [readComment, List.dropWhile_append_of_pos hp, List.dropWhile_cons_of_neg (by simp),
    List.takeWhile_append_of_pos hp, List.takeWhile_cons_of_neg (by simp), List.append_nil]

theorem read_integer (digits : ∀ d ∈ c :: cs, d.isDigit)
    (stop : ∀ d ∈ rest.head?, d.isDigit = false)
    (noPoint : ∀ d more, rest = '.' :: d :: more → d.isDigit = false) :
    read c (cs ++ rest) = (.lexeme .integer (c :: cs), rest) := by
  have hcs : ∀ d ∈ cs, d.isDigit := fun d hd => digits d (by simp [hd])
  rw [read_eq_readNumber (digits c (by simp)), readNumber, takeWhile_spelled hcs stop,
    dropWhile_spelled hcs stop]
  split
  · simp [noPoint _ _ rfl]
  · rfl

theorem read_decimal {d : Char} {ds : List Char} (digits : ∀ e ∈ c :: cs, e.isDigit)
    (digits' : ∀ e ∈ d :: ds, e.isDigit) (stop : ∀ d ∈ rest.head?, d.isDigit = false) :
    read c (cs ++ '.' :: d :: ds ++ rest) =
      (.lexeme .decimal (c :: cs ++ '.' :: d :: ds), rest) := by
  have hcs : ∀ d ∈ cs, d.isDigit := fun d hd => digits d (by simp [hd])
  have hds : ∀ e ∈ ds, e.isDigit := fun e he => digits' e (by simp [he])
  have point : '.'.isDigit = false := rfl
  rw [read_eq_readNumber (digits c (by simp)), readNumber, List.append_assoc,
    List.takeWhile_append_of_pos hcs, List.dropWhile_append_of_pos hcs, List.cons_append,
    List.takeWhile_cons_of_neg (by simp [point]), List.dropWhile_cons_of_neg (by simp [point]),
    List.append_nil, List.cons_append]
  simp only [digits' d (by simp), ↓reduceIte, takeWhile_spelled hds stop,
    dropWhile_spelled hds stop]

theorem readWord_alone (word : ∀ d ∈ cs, Text.isLetterOrNumeral d)
    (stop : ∀ d ∈ rest.head?, Text.isLetterOrNumeral d = false)
    (alone : ∀ k words, Keyword.continued? (c :: cs) = some (k, words) →
      readWords? words rest = none) :
    readWord c (cs ++ rest) =
      (.lexeme (match Keyword.ofSpelling? (String.ofList (c :: cs)) with
        | some k => .keyword k
        | none => .identifier) (c :: cs), rest) := by
  rw [readWord, takeWhile_spelled word stop, dropWhile_spelled word stop]
  split
  · rfl
  case h_2 k words h =>
    split
    · rfl
    · next hread => exact nomatch (alone k words h).symm.trans hread

theorem read_identifier (letter : Text.isLetter c) (word : ∀ d ∈ cs, Text.isLetterOrNumeral d)
    (notKeyword : Keyword.ofSpelling? (String.ofList (c :: cs)) = none)
    (stop : ∀ d ∈ rest.head?, Text.isLetterOrNumeral d = false)
    (alone : c :: cs = "de".toList → readWords? ["lo".toList, "contrario".toList] rest = none) :
    read c (cs ++ rest) = (.lexeme .identifier (c :: cs), rest) := by
  rw [read_eq_readWord letter, readWord_alone word stop, notKeyword]
  intro k words h
  obtain ⟨si, -, -⟩ | ⟨de, -, rfl⟩ := Keyword.continued?_eq_some h
  · rw [si] at notKeyword
    contradiction
  · exact alone de

theorem read_symbol (s : Symbol) (separated : Separated rest) :
    ∃ c cs, s.spelling.toList = c :: cs ∧
      read c (cs ++ rest) = (.lexeme (.symbol s) s.spelling.toList, rest) := by
  obtain ⟨d, more, rfl, rfl | rfl⟩ := separated <;> cases s <;> exact ⟨_, _, rfl, rfl⟩

theorem read_keyword (k : Keyword) (separated : Separated rest)
    (alone : k = .si → readWords? ["no".toList] rest = none) :
    ∃ c cs, k.spelling.toList = c :: cs ∧
      read c (cs ++ rest) = (.lexeme (.keyword k) k.spelling.toList, rest) := by
  cases k with
  | si =>
      refine ⟨'s', ['i'], rfl, ?_⟩
      rw [read_eq_readWord (by decide),
        readWord_alone (List.all_eq_true.1 rfl) separated.apart.noLetter]
      · rfl
      · intro k words h
        cases h
        exact alone rfl
  | typeName type =>
      obtain ⟨d, more, rfl, rfl | rfl⟩ := separated <;> cases type <;> exact ⟨_, _, rfl, rfl⟩
  | _ => obtain ⟨d, more, rfl, rfl | rfl⟩ := separated <;> exact ⟨_, _, rfl, rfl⟩

theorem read_spelling {t : Token.Kind × List Char} (plain : Plain t) (separated : Separated rest)
    (ends : t.1 = .comment → ∃ more, rest = '\n' :: more)
    (si : t.1 = .keyword .si → readWords? ["no".toList] rest = none)
    (de : t = (.identifier, "de".toList) →
      readWords? ["lo".toList, "contrario".toList] rest = none) :
    ∃ c cs, spelling t = c :: cs ∧ read c (cs ++ rest) = (ofToken t, rest) := by
  cases plain with
  | identifier letter word notKeyword =>
      exact ⟨_, _, rfl, read_identifier letter word notKeyword separated.apart.noLetter
        fun h => de (h ▸ rfl)⟩
  | keyword k => exact read_keyword k separated fun h => si (h ▸ rfl)
  | @integer ds nonempty digits =>
      obtain ⟨d, ds, rfl⟩ := List.exists_cons_of_ne_nil nonempty
      exact ⟨d, ds, rfl, read_integer digits separated.apart.noDigit separated.apart.noPoint⟩
  | @decimal ds es nonempty digits nonempty' digits' =>
      obtain ⟨d, ds, rfl⟩ := List.exists_cons_of_ne_nil nonempty
      obtain ⟨e, es, rfl⟩ := List.exists_cons_of_ne_nil nonempty'
      exact ⟨d, ds ++ '.' :: e :: es, rfl, read_decimal digits digits' separated.apart.noDigit⟩
  | @text body noQuote =>
      refine ⟨'"', body ++ ['"'], rfl, ?_⟩
      rw [List.append_assoc]
      exact read_text noQuote rest
  | symbol s => exact read_symbol s separated
  | comment sameLine =>
      obtain ⟨more, rfl⟩ := ends rfl
      exact ⟨'~', _, rfl, read_comment sameLine more⟩

end Piece

/-- No spelling begins with a space or a tab: it would be read as a blank. -/
theorem Plain.exists_spelling_eq_cons {t : Token.Kind × List Char} (h : Plain t) :
    ∃ c cs, spelling t = c :: cs ∧ Text.isGap c = false := by
  obtain ⟨c, cs, hspelling, hread⟩ :=
    Piece.read_spelling h ⟨'\n', [], rfl, .inr rfl⟩ (fun _ => ⟨[], rfl⟩) (fun _ => rfl) fun _ => rfl
  refine ⟨c, cs, hspelling, Bool.eq_false_iff.2 fun gap => ?_⟩
  rw [Piece.read_gap gap] at hread
  have hpiece := congrArg Prod.fst hread
  cases h <;> contradiction

/-! Words that are looked for behind another word. -/

/-- A word that is no beginning of a keyword. -/
structure Lone (word : List Char) : Prop where
  letter : ∃ c ∈ word.head?, Text.isLetter c
  inner : ∀ c ∈ word, Text.isLetterOrNumeral c
  noKeyword : ∀ k : Keyword, k.spelling.toList.takeWhile Text.isLetterOrNumeral ≠ word

theorem Lone.no : Lone "no".toList where
  letter := ⟨'n', rfl, rfl⟩
  inner := List.all_eq_true.1 rfl
  noKeyword k := by
    cases k with
    | typeName type => cases type <;> decide
    | _ => decide

theorem Lone.lo : Lone "lo".toList where
  letter := ⟨'l', rfl, rfl⟩
  inner := List.all_eq_true.1 rfl
  noKeyword k := by
    cases k with
    | typeName type => cases type <;> decide
    | _ => decide

theorem Lone.contrario : Lone "contrario".toList where
  letter := ⟨'c', rfl, rfl⟩
  inner := List.all_eq_true.1 rfl
  noKeyword k := by
    cases k with
    | typeName type => cases type <;> decide
    | _ => decide

theorem head?_of_takeWhile {p : Char → Bool} {text : List Char} {c : Char}
    (h : c ∈ (text.takeWhile p).head?) : c ∈ text.head? := by
  cases text with
  | nil => exact h
  | cons d text =>
      rw [List.takeWhile_cons] at h
      split at h
      · exact h
      · contradiction

/-- Only an identifier is read as a word that begins no keyword. -/
theorem Plain.eq_identifier {t : Token.Kind × List Char} (h : Plain t) {word : List Char}
    (lone : Lone word) (hword : (spelling t).takeWhile Text.isLetterOrNumeral = word) :
    t = (.identifier, word) := by
  obtain ⟨c, hc, letter⟩ := lone.letter
  have head : c ∈ (spelling t).head? := head?_of_takeWhile (hword ▸ hc)
  cases h with
  | @identifier d cs letter' inner _ =>
      have all : ∀ e ∈ d :: cs, Text.isLetterOrNumeral e := by
        simpa [Text.isLetterOrNumeral, letter'] using inner
      have whole := @List.takeWhile_append_of_pos _ _ _ [] all
      rw [List.append_nil, List.takeWhile_nil, List.append_nil] at whole
      exact congrArg _ (whole.symm.trans hword)
  | keyword k => exact absurd hword (lone.noKeyword k)
  | integer nonempty digits =>
      have digit := digits c (List.mem_of_head? head)
      simp [Text.isDigit_of_isLetter letter] at digit
  | @decimal ds es nonempty digits _ _ =>
      obtain ⟨d, ds, rfl⟩ := List.exists_cons_of_ne_nil nonempty
      have digit := digits c (List.mem_of_head? head)
      simp [Text.isDigit_of_isLetter letter] at digit
  | text _ | comment _ =>
      cases head
      contradiction
  | symbol s => cases s <;> cases head <;> contradiction

/-- Tokens behind others on a line, each behind one space. -/
def spelledBehind (ts : List (Token.Kind × List Char)) : List Char :=
  ts.flatMap fun t => ' ' :: spelling t

theorem separated_spelledBehind (ts : List (Token.Kind × List Char)) (more : List Char) :
    Separated (spelledBehind ts ++ '\n' :: more) := by
  cases ts with
  | nil => exact ⟨_, _, rfl, .inr rfl⟩
  | cons t ts => exact ⟨_, _, rfl, .inl rfl⟩

/-- Words that are found behind a word are identifiers there. -/
theorem readWords?_eq_none {words : List (List Char)} {ts : List (Token.Kind × List Char)}
    (lone : ∀ word ∈ words, Lone word) (plain : ∀ t ∈ ts, Plain t)
    (h : ¬ words.map (Prod.mk .identifier) <+: ts) (more : List Char) :
    Piece.readWords? words (spelledBehind ts ++ '\n' :: more) = none := by
  induction words generalizing ts with
  | nil => exact absurd List.nil_prefix h
  | cons word words ih =>
      cases ts with
      | nil => rfl
      | cons t ts =>
          have separated := separated_spelledBehind ts more
          generalize htail : spelling t ++ (spelledBehind ts ++ '\n' :: more) = tail
          have htext : spelledBehind (t :: ts) ++ '\n' :: more = ' ' :: tail := by
            simp [spelledBehind, ← htail]
          obtain ⟨c, cs, hspelling, notGap⟩ := (plain t (by simp)).exists_spelling_eq_cons
          have gap : Text.isGap ' ' = true := rfl
          have htake : (' ' :: tail).takeWhile Text.isGap = [' '] := by
            simp [← htail, hspelling, gap, notGap]
          have hdrop : (' ' :: tail).dropWhile Text.isGap = tail := by
            simp [← htail, hspelling, gap, notGap]
          rw [htext, Piece.readWords?, htake, hdrop]
          split
          case isTrue => rfl
          case isFalse found =>
            simp only [Bool.or_eq_true, Bool.not_eq_true', not_or, Bool.not_eq_false] at found
            obtain ⟨⟨-, begins⟩, ends⟩ := found
            obtain ⟨rest, rfl⟩ := List.isPrefixOf_iff_prefix.1 begins
            rw [List.drop_left] at ends ⊢
            have hword : (spelling t).takeWhile Text.isLetterOrNumeral = word := by
              have stops : rest.takeWhile Text.isLetterOrNumeral = [] := by
                cases rest with
                | nil => rfl
                | cons d rest =>
                    exact List.takeWhile_cons_of_neg (by simpa [Piece.inWord] using ends)
              rw [← takeWhile_append_separated (by decide) (by decide) separated, htail,
                List.takeWhile_append_of_pos (lone word (by simp)).inner, stops, List.append_nil]
            obtain rfl := (plain t (by simp)).eq_identifier (lone word (by simp)) hword
            obtain rfl := List.append_cancel_left htail
            rw [ih (fun w hw => lone w (by simp [hw])) (fun t ht => plain t (by simp [ht]))
              fun behind => h (List.cons_prefix_cons.2 ⟨rfl, behind⟩)]
            rfl

/-- Tokens that can be spelled on one line, with a space between two of them: a comment is the last
one, and no identifiers make up a longer keyword with the word in front of them. -/
structure Legible (ts : List (Token.Kind × List Char)) : Prop where
  plain : ∀ t ∈ ts, Plain t
  commentLast : ∀ t ∈ ts.dropLast, t.1 ≠ .comment
  noSiNo : ¬ [(.keyword .si, "si".toList), (.identifier, "no".toList)] <:+: ts
  noDeLoContrario :
    ¬ [(.identifier, "de".toList), (.identifier, "lo".toList), (.identifier, "contrario".toList)]
      <:+: ts

namespace Legible

variable {t : Token.Kind × List Char} {ts : List (Token.Kind × List Char)}

theorem tail (h : Legible (t :: ts)) : Legible ts where
  plain u hu := h.plain u (by simp [hu])
  commentLast u hu := by
    cases ts with
    | nil => contradiction
    | cons v ts => exact h.commentLast u (by simp [hu])
  noSiNo h' := h.noSiNo (h'.trans (List.suffix_cons t ts).isInfix)
  noDeLoContrario h' := h.noDeLoContrario (h'.trans (List.suffix_cons t ts).isInfix)

theorem split_cons (h : Legible (t :: ts)) (more : List Char) :
    Piece.split (spelling t ++ (spelledBehind ts ++ '\n' :: more)) =
      Piece.ofToken t :: Piece.split (spelledBehind ts ++ '\n' :: more) := by
  have plain := h.plain t (by simp)
  obtain ⟨c, cs, hspelling, hread⟩ :
      ∃ c cs, spelling t = c :: cs ∧
        Piece.read c (cs ++ (spelledBehind ts ++ '\n' :: more)) = (Piece.ofToken t, _) := by
    refine Piece.read_spelling plain (separated_spelledBehind ts more) ?_ ?_ ?_
    · intro comment
      cases ts with
      | nil => exact ⟨more, rfl⟩
      | cons u ts => exact absurd comment (h.commentLast t (by simp))
    · intro si
      refine @readWords?_eq_none ["no".toList] ts (by simpa using Lone.no) h.tail.plain ?_ more
      intro behind
      obtain rfl : t = (.keyword .si, "si".toList) := by
        cases plain <;> cases si
        rfl
      exact h.noSiNo (List.cons_prefix_cons.2 ⟨rfl, behind⟩).isInfix
    · rintro rfl
      refine @readWords?_eq_none ["lo".toList, "contrario".toList] ts
        (by simpa using ⟨Lone.lo, Lone.contrario⟩) h.tail.plain ?_ more
      exact fun behind => h.noDeLoContrario (List.cons_prefix_cons.2 ⟨rfl, behind⟩).isInfix
  rw [hspelling, List.cons_append, Piece.split_cons, hread]

/-- The pieces of tokens that stand behind others on a line, up to the newline. -/
theorem split_spelledBehind (h : Legible ts) (more : List Char) :
    Piece.split (spelledBehind ts ++ '\n' :: more) =
      ts.flatMap (fun t => [.blank ' ', .ofToken t]) ++ .newline :: Piece.split more := by
  induction ts with
  | nil => exact Piece.split_cons '\n' more
  | cons t ts ih =>
      have htext : spelledBehind (t :: ts) ++ '\n' :: more =
          ' ' :: (spelling t ++ (spelledBehind ts ++ '\n' :: more)) := by
        simp [spelledBehind]
      rw [htext, Piece.split_cons, Piece.read_gap rfl, h.split_cons, ih h.tail]
      rfl

end Legible

end PasoFrontEnd
