import PasoFrontEnd.Proofs.Layout.Canonical
import PasoFrontEnd.Proofs.Scan.Places

/-!
Longest matches. What a word, a number or a symbol is, is said here without its reader: by the
characters it is made of, by what may not stand behind it, and for keywords of several words by the
spaces between the words. The reader finds a lexeme exactly where one stands.
-/

namespace PasoFrontEnd

/-- The given words, each behind spaces and tabs and none as the beginning of a longer word: they
take up `text` in front of `rest`. -/
inductive Spaced : List (List Char) → List Char → List Char → Prop
  | nil {rest} : Spaced [] [] rest
  | cons {word words gap text rest} (nonempty : gap ≠ []) (gaps : ∀ c ∈ gap, Text.isGap c)
      (stop : ∀ c ∈ (text ++ rest).head?, Text.isLetterOrNumeral c = false)
      (more : Spaced words text rest) : Spaced (word :: words) (gap ++ word ++ text) rest

/-- The given words come next in the text. -/
def Follow (words : List (List Char)) (cs : List Char) : Prop :=
  ∃ text rest, Spaced words text rest ∧ cs = text ++ rest

/-- A kind and a text that stands in front of `rest` as one whole lexeme of the kind. -/
inductive Lexeme : Token.Kind → List Char → List Char → Prop
  | identifier {c cs rest} (letter : Text.isLetter c) (word : ∀ d ∈ cs, Text.isLetterOrNumeral d)
      (stop : ∀ d ∈ rest.head?, Text.isLetterOrNumeral d = false)
      (notKeyword : Keyword.ofSpelling? (String.ofList (c :: cs)) = none)
      (alone : c :: cs = "de".toList → ¬ Follow ["lo".toList, "contrario".toList] rest) :
      Lexeme .identifier (c :: cs) rest
  | word {k c cs rest} (spelled : k.spelling.toList = c :: cs) (letter : Text.isLetter c)
      (word : ∀ d ∈ cs, Text.isLetterOrNumeral d)
      (stop : ∀ d ∈ rest.head?, Text.isLetterOrNumeral d = false)
      (alone : k = .si → ¬ Follow ["no".toList] rest) : Lexeme (.keyword k) (c :: cs) rest
  /-- A keyword of several words. -/
  | phrase {first k words text rest} (continued : Keyword.continued? first = some (k, words))
      (spaced : Spaced words text rest) : Lexeme (.keyword k) (first ++ text) rest
  | integer {ds rest} (nonempty : ds ≠ []) (digits : ∀ d ∈ ds, d.isDigit)
      (stop : ∀ d ∈ rest.head?, d.isDigit = false)
      (noPoint : ∀ d more, rest = '.' :: d :: more → d.isDigit = false) : Lexeme .integer ds rest
  | decimal {ds es rest} (nonempty : ds ≠ []) (digits : ∀ d ∈ ds, d.isDigit) (nonempty' : es ≠ [])
      (digits' : ∀ e ∈ es, e.isDigit) (stop : ∀ d ∈ rest.head?, d.isDigit = false) :
      Lexeme .decimal (ds ++ '.' :: es) rest
  | symbol {s rest} (stop : s ∈ [.greater, .less, .assign] → rest.head? ≠ some '=') :
      Lexeme (.symbol s) s.spelling.toList rest

namespace Text

/-- The text with one space for each run of spaces and tabs. -/
def collapsed : List Char → List Char
  | [] => []
  | c :: cs =>
    if isGap c then
      if cs.head?.any isGap then collapsed cs else ' ' :: collapsed cs
    else c :: collapsed cs

theorem isGap_of_isLetterOrNumeral {c : Char} (h : isLetterOrNumeral c) : isGap c = false := by
  refine Bool.eq_false_iff.2 fun gap => ?_
  obtain rfl | rfl : c = ' ' ∨ c = '\t' := by simpa [isGap] using gap
  · exact absurd h (by decide)
  · exact absurd h (by decide)

theorem isLetterOrNumeral_of_isGap {c : Char} (h : isGap c) : isLetterOrNumeral c = false := by
  refine Bool.eq_false_iff.2 fun inner => ?_
  rw [isGap_of_isLetterOrNumeral inner] at h
  contradiction

theorem isLetterOrNumeral_of_isLetter {c : Char} (h : isLetter c) : isLetterOrNumeral c := by
  rw [isLetterOrNumeral, h, Bool.true_or]

theorem collapsed_word_append {word : List Char} (h : ∀ c ∈ word, isGap c = false)
    (rest : List Char) :
    collapsed (word ++ rest) = word ++ collapsed rest := by
  induction word with
  | nil => rfl
  | cons c word ih =>
      rw [List.cons_append, collapsed, if_neg (by simp [h c (by simp)]),
        ih fun d hd => h d (by simp [hd]), List.cons_append]

theorem collapsed_word {word : List Char} (h : ∀ c ∈ word, isGap c = false) :
    collapsed word = word := by
  simpa [collapsed] using collapsed_word_append h []

theorem collapsed_gap_append {gap rest : List Char} (nonempty : gap ≠ [])
    (gaps : ∀ c ∈ gap, isGap c) (stop : ∀ c ∈ rest.head?, isGap c = false) :
    collapsed (gap ++ rest) = ' ' :: collapsed rest := by
  induction gap with
  | nil => contradiction
  | cons c gap ih =>
      rw [List.cons_append, collapsed, if_pos (gaps c (by simp))]
      cases gap with
      | nil =>
          have last : rest.head?.any isGap = false := by
            cases rest with
            | nil => rfl
            | cons d rest => exact stop d rfl
          rw [List.nil_append, last]
          rfl
      | cons d gap =>
          have goesOn : (d :: gap ++ rest).head?.any isGap := gaps d (by simp)
          rw [if_pos goesOn]
          exact ih (List.cons_ne_nil _ _) fun e he => gaps e (by simp [he])

end Text

namespace Keyword

theorem ofSpelling?_spelling (k : Keyword) : ofSpelling? k.spelling = some k := by
  cases k with
  | typeName type => cases type <;> decide
  | _ => decide

theorem spelling_of_ofSpelling? {word : String} {k : Keyword} (h : ofSpelling? word = some k) :
    k.spelling = word := by
  simpa using List.find?_some h

theorem spelling_toList_inj {k k' : Keyword} : k.spelling.toList = k'.spelling.toList ↔ k = k' := by
  refine ⟨fun h => ?_, fun h => h ▸ rfl⟩
  have same := String.toList_inj.1 h
  exact Option.some.inj ((ofSpelling?_spelling k).symm.trans (same ▸ ofSpelling?_spelling k'))

/-- Every keyword begins with a letter. -/
theorem exists_letter (k : Keyword) : ∃ c ∈ k.spelling.toList.head?, Text.isLetter c := by
  cases k with
  | typeName type => cases type <;> exact ⟨_, rfl, rfl⟩
  | _ => exact ⟨_, rfl, rfl⟩

section Continued

variable {first : List Char} {k : Keyword} {words : List (List Char)}

theorem words_of_continued? (h : continued? first = some (k, words)) :
    ∀ word ∈ words, word ≠ [] ∧ ∀ c ∈ word, Text.isLetterOrNumeral c := by
  have inner : words.all fun word => word ≠ [] && word.all Text.isLetterOrNumeral := by
    obtain ⟨-, -, rfl⟩ | ⟨-, -, rfl⟩ := continued?_eq_some h <;> rfl
  intro word hword
  simpa using List.all_eq_true.1 inner word hword

theorem first_of_continued? (h : continued? first = some (k, words)) :
    ∃ c cs, first = c :: cs ∧ Text.isLetter c ∧ ∀ d ∈ cs, Text.isLetterOrNumeral d := by
  obtain ⟨rfl, -, -⟩ | ⟨rfl, -, -⟩ := continued?_eq_some h
  · exact ⟨'s', ['i'], rfl, rfl, List.all_eq_true.1 rfl⟩
  · exact ⟨'d', ['e'], rfl, rfl, List.all_eq_true.1 rfl⟩

/-- A keyword of several words has one space in front of each further word. -/
theorem spelling_of_continued? (h : continued? first = some (k, words)) :
    k.spelling.toList = first ++ words.flatMap (' ' :: ·) := by
  obtain ⟨rfl, rfl, rfl⟩ | ⟨rfl, rfl, rfl⟩ := continued?_eq_some h <;> rfl

theorem words_ne_nil_of_continued? (h : continued? first = some (k, words)) : words ≠ [] := by
  obtain ⟨-, -, rfl⟩ | ⟨-, -, rfl⟩ := continued?_eq_some h <;> exact List.cons_ne_nil _ _

end Continued

end Keyword

namespace Symbol

/-- Every symbol is one character, or one character and an equals sign. -/
theorem single_or_double (s : Symbol) :
    (∃ c, s.spelling.toList = [c] ∧ ofChar? c = some s) ∨
      ∃ c, s.spelling.toList = [c, '='] ∧ withEquals? c = some s := by
  cases s with
  | atLeast => exact .inr ⟨'>', rfl, rfl⟩
  | atMost => exact .inr ⟨'<', rfl, rfl⟩
  | equal => exact .inr ⟨'=', rfl, rfl⟩
  | unequal => exact .inr ⟨'!', rfl, rfl⟩
  | _ => exact .inl ⟨_, rfl, rfl⟩

end Symbol

namespace Spaced

variable {words : List (List Char)} {text rest : List Char}

/-- Words that stand in front of something stand at the end of a text too. -/
theorem alone (h : Spaced words text rest) : Spaced words text [] := by
  induction h with
  | nil => exact .nil
  | @cons _ _ _ text rest nonempty gaps stop _ ih =>
      refine .cons nonempty gaps ?_ ih
      cases text with
      | nil => simp
      | cons c text => exact stop

/-- No word goes on in front of the spaces. -/
theorem stop (h : Spaced words text rest) (some : words ≠ []) :
    ∀ c ∈ (text ++ rest).head?, Text.isLetterOrNumeral c = false := by
  cases h with
  | nil => contradiction
  | cons nonempty gaps =>
      obtain ⟨c, gap, rfl⟩ := List.exists_cons_of_ne_nil nonempty
      rintro _ ⟨⟩
      exact Text.isLetterOrNumeral_of_isGap (gaps c (by simp))

theorem collapsed (h : Spaced words text rest)
    (inner : ∀ word ∈ words, word ≠ [] ∧ ∀ c ∈ word, Text.isLetterOrNumeral c) :
    Text.collapsed text = words.flatMap (' ' :: ·) := by
  induction h with
  | nil => rfl
  | @cons word words gap text _ nonempty gaps _ _ ih =>
      obtain ⟨some, letters⟩ := inner word (by simp)
      have notGap : ∀ c ∈ word, Text.isGap c = false :=
        fun c hc => Text.isGap_of_isLetterOrNumeral (letters c hc)
      have stop : ∀ c ∈ (word ++ text).head?, Text.isGap c = false := by
        obtain ⟨c, word, rfl⟩ := List.exists_cons_of_ne_nil some
        rintro _ ⟨⟩
        exact notGap c (by simp)
      rw [List.append_assoc, Text.collapsed_gap_append nonempty gaps stop,
        Text.collapsed_word_append notGap, ih fun word hword => inner word (by simp [hword])]
      rfl

end Spaced

namespace Piece

variable {c : Char} {cs text rest : List Char} {kind : Token.Kind} {words : List (List Char)}
  {first : List Char} {k : Keyword}

theorem inWord_eq_false {cs : List Char} :
    inWord cs = false ↔ ∀ c ∈ cs.head?, Text.isLetterOrNumeral c = false := by
  cases cs <;> simp [inWord]

theorem spaced_of_readWords? (h : readWords? words cs = some (text, rest)) :
    Spaced words text rest := by
  induction words generalizing cs text rest with
  | nil =>
      cases h
      exact .nil
  | cons word words ih =>
      simp only [readWords?] at h
      split at h
      · contradiction
      case isFalse found =>
        simp only [Bool.or_eq_true, decide_eq_true_eq, not_or, Bool.not_eq_true] at found
        obtain ⟨⟨text, rest⟩, hmore, heq⟩ := Option.map_eq_some_iff.1 h
        cases heq
        exact .cons found.1.1 (List.all_eq_true.1 List.all_takeWhile)
          (inWord_eq_false.1 (append_of_readWords? hmore ▸ found.2)) (ih hmore)

theorem readWords?_of_spaced (h : Spaced words text rest)
    (inner : ∀ word ∈ words, word ≠ [] ∧ ∀ c ∈ word, Text.isLetterOrNumeral c) :
    readWords? words (text ++ rest) = some (text, rest) := by
  induction h with
  | nil => rfl
  | @cons word words gap text rest nonempty gaps stop more ih =>
      obtain ⟨some, letters⟩ := inner word (by simp)
      have begins : ∀ c ∈ (word ++ (text ++ rest)).head?, Text.isGap c = false := by
        obtain ⟨c, word, rfl⟩ := List.exists_cons_of_ne_nil some
        rintro _ ⟨⟩
        exact Text.isGap_of_isLetterOrNumeral (letters c (by simp))
      have found : word.isPrefixOf (word ++ (text ++ rest)) :=
        List.isPrefixOf_iff_prefix.2 (List.prefix_append _ _)
      have tail := ih fun word hword => inner word (by simp [hword])
      rw [List.append_assoc, List.append_assoc, readWords?, takeWhile_spelled gaps begins,
        dropWhile_spelled gaps begins, List.drop_left]
      simp only [nonempty, found, inWord_eq_false.2 stop, tail]
      simp

theorem readWords?_eq_none (h : ¬ Follow words cs) : readWords? words cs = none := by
  refine Option.eq_none_iff_forall_ne_some.2 fun r hr => h ?_
  exact ⟨r.1, r.2, spaced_of_readWords? hr, (append_of_readWords? hr).symm⟩

theorem not_follow_of_readWords? (continued : Keyword.continued? first = some (k, words))
    (h : readWords? words cs = none) : ¬ Follow words cs := by
  rintro ⟨text, rest, spaced, rfl⟩
  rw [readWords?_of_spaced spaced (Keyword.words_of_continued? continued)] at h
  contradiction

/-! What is read is a whole lexeme. -/

/-- If a word, a number or a symbol was read, it is a whole lexeme. -/
def Whole (r : Piece × List Char) : Prop :=
  ∀ {kind text}, r.1 = lexeme kind text → Lexeme kind text r.2

theorem stop_dropWhile (p : Char → Bool) (cs : List Char) :
    ∀ c ∈ (cs.dropWhile p).head?, p c = false := by
  intro c hc
  have head := List.head?_dropWhile_not p cs
  rw [Option.mem_def.1 hc] at head
  exact head

theorem digits_takeWhile (digit : c.isDigit) : ∀ d ∈ c :: cs.takeWhile Char.isDigit, d.isDigit :=
  List.forall_mem_cons.2 ⟨digit, List.all_eq_true.1 List.all_takeWhile⟩

theorem whole_readNumber (digit : c.isDigit) : Whole (readNumber c cs) := by
  have stop := stop_dropWhile Char.isDigit cs
  unfold readNumber
  simp only
  split
  · rename_i d more behind
    split
    case isTrue digit' =>
      rintro _ _ ⟨⟩
      exact .decimal (List.cons_ne_nil _ _) (digits_takeWhile digit) (List.cons_ne_nil _ _)
        (digits_takeWhile digit') (stop_dropWhile Char.isDigit more)
    case isFalse noDigit =>
      rintro _ _ ⟨⟩
      refine .integer (List.cons_ne_nil _ _) (digits_takeWhile digit) (behind ▸ stop) ?_
      rintro _ _ ⟨⟩
      simpa using noDigit
  · rename_i noPoint
    rintro _ _ ⟨⟩
    exact .integer (List.cons_ne_nil _ _) (digits_takeWhile digit) stop
      fun d more behind => absurd behind (noPoint d more)

theorem whole_single (letter : Text.isLetter c)
    (alone : ∀ k words, Keyword.continued? (c :: cs.takeWhile Text.isLetterOrNumeral) =
      some (k, words) →
      ¬ Follow words (cs.dropWhile Text.isLetterOrNumeral)) :
    Lexeme (match Keyword.ofSpelling?
      (String.ofList (c :: cs.takeWhile Text.isLetterOrNumeral)) with
        | some k => .keyword k
        | none => .identifier)
      (c :: cs.takeWhile Text.isLetterOrNumeral) (cs.dropWhile Text.isLetterOrNumeral) := by
  have word : ∀ d ∈ cs.takeWhile Text.isLetterOrNumeral, Text.isLetterOrNumeral d :=
    List.all_eq_true.1 List.all_takeWhile
  have stop := stop_dropWhile Text.isLetterOrNumeral cs
  split
  case h_1 k found =>
    have spelled : k.spelling.toList = c :: cs.takeWhile Text.isLetterOrNumeral := by
      rw [Keyword.spelling_of_ofSpelling? found, String.toList_ofList]
    refine .word spelled letter word stop ?_
    rintro rfl
    exact alone .siNo _ (spelled ▸ rfl)
  case h_2 notKeyword =>
    exact .identifier letter word stop notKeyword fun de => alone .deLoContrario _ (de ▸ rfl)

theorem whole_readWord (letter : Text.isLetter c) : Whole (readWord c cs) := by
  unfold readWord
  simp only
  split
  case h_1 none =>
    rintro _ _ ⟨⟩
    refine whole_single letter fun k words continued => ?_
    rw [none] at continued
    contradiction
  case h_2 k words continued =>
    split
    case h_1 none =>
      rintro _ _ ⟨⟩
      refine whole_single letter fun k' words' continued' => ?_
      obtain ⟨-, rfl⟩ := Prod.mk.inj (Option.some.inj (continued.symm.trans continued'))
      exact not_follow_of_readWords? continued none
    case h_2 text rest found =>
      rintro _ _ ⟨⟩
      exact .phrase continued (spaced_of_readWords? found)

theorem whole_ofChar (longest : rest.head? = some '=' → Symbol.withEquals? c = none) :
    Whole (ofChar c, rest) := by
  intro kind text h
  change ofChar c = _ at h
  unfold ofChar at h
  split at h
  case h_1 s single =>
    cases h
    have spelled : s.spelling.toList = [c] := by
      unfold Symbol.ofChar? at single
      split at single <;> cases single <;> rfl
    refine spelled ▸ .symbol fun prefixed equals => ?_
    have none := longest equals
    simp only [List.mem_cons, List.not_mem_nil, or_false] at prefixed
    obtain rfl | rfl | rfl := prefixed <;> cases spelled <;> contradiction
  case h_2 => contradiction

theorem whole_readSymbol : Whole (readSymbol c cs) := by
  unfold readSymbol
  split
  · split
    case h_1 rest s found =>
      rintro _ _ ⟨⟩
      have spelled : s.spelling.toList = [c, '='] ∧ s ∉ [Symbol.greater, .less, .assign] := by
        unfold Symbol.withEquals? at found
        split at found <;> cases found <;> decide
      exact spelled.1 ▸ .symbol fun prefixed => absurd prefixed spelled.2
    case h_2 rest none => exact whole_ofChar fun _ => none
  · rename_i noEquals
    refine whole_ofChar fun equals => ?_
    obtain ⟨rest, rfl⟩ := List.head?_eq_some_iff.1 equals
    exact absurd rfl (noEquals rest)

theorem whole_read : Whole (read c cs) := by
  intro kind text
  unfold read
  split
  · rintro ⟨⟩
  split
  · rintro ⟨⟩
  split
  · unfold readQuoted
    split <;> rintro ⟨⟩
  split
  · rintro ⟨⟩
  split
  case isTrue digit => exact whole_readNumber digit
  split
  case isTrue letter => exact whole_readWord letter
  exact whole_readSymbol

/-! A whole lexeme is read. -/

theorem readWord_continued (word : ∀ d ∈ cs, Text.isLetterOrNumeral d)
    (continued : Keyword.continued? (c :: cs) = some (k, words)) (spaced : Spaced words text rest) :
    readWord c (cs ++ (text ++ rest)) = (.lexeme (.keyword k) (c :: cs ++ text), rest) := by
  have stop := spaced.stop (Keyword.words_ne_nil_of_continued? continued)
  have found := readWords?_of_spaced spaced (Keyword.words_of_continued? continued)
  rw [readWord, takeWhile_spelled word stop, dropWhile_spelled word stop]
  simp only [continued, found]

theorem readSymbol_single (longest : rest.head? = some '=' → Symbol.withEquals? c = none) :
    readSymbol c rest = (ofChar c, rest) := by
  unfold readSymbol
  split
  case h_1 rest => rw [longest rfl]
  case h_2 => rfl

theorem read_ofChar {s : Symbol} (single : Symbol.ofChar? c = some s)
    (stop : s ∈ [.greater, .less, .assign] → rest.head? ≠ some '=') :
    read c rest = (.lexeme (.symbol s) [c], rest) := by
  have longest : rest.head? = some '=' → Symbol.withEquals? c = none := by
    intro equals
    unfold Symbol.ofChar? at single
    split at single <;> cases single <;> first | rfl | exact absurd equals (stop (by decide))
  unfold Symbol.ofChar? at single
  split at single <;> cases single <;> exact readSymbol_single longest

theorem read_withEquals {s : Symbol} (double : Symbol.withEquals? c = some s) :
    read c ('=' :: rest) = (.lexeme (.symbol s) [c, '='], rest) := by
  unfold Symbol.withEquals? at double
  split at double <;> cases double <;> rfl

end Piece

namespace Lexeme

variable {kind : Token.Kind} {text rest : List Char}

theorem read (h : Lexeme kind text rest) :
    ∃ c cs, text = c :: cs ∧ Piece.read c (cs ++ rest) = (.lexeme kind text, rest) := by
  cases h with
  | identifier letter word stop notKeyword alone =>
      exact ⟨_, _, rfl, Piece.read_identifier letter word notKeyword stop
        fun de => Piece.readWords?_eq_none (alone de)⟩
  | @word k c cs _ spelled letter word stop alone =>
      have found : Keyword.ofSpelling? (String.ofList (c :: cs)) = some k := by
        rw [← spelled, String.ofList_toList, Keyword.ofSpelling?_spelling]
      refine ⟨c, cs, rfl, ?_⟩
      rw [Piece.read_eq_readWord letter, Piece.readWord_alone word stop, found]
      intro k' words continued
      obtain ⟨si, -, rfl⟩ | ⟨de, -, -⟩ := Keyword.continued?_eq_some continued
      · rw [si] at found
        cases found
        exact Piece.readWords?_eq_none (alone rfl)
      · rw [de] at found
        contradiction
  | phrase continued spaced =>
      obtain ⟨c, cs, rfl, letter, word⟩ := Keyword.first_of_continued? continued
      refine ⟨c, _, rfl, ?_⟩
      change Piece.read c (cs ++ _ ++ _) = _
      rw [List.append_assoc, Piece.read_eq_readWord letter,
        Piece.readWord_continued word continued spaced]
  | integer nonempty digits stop noPoint =>
      obtain ⟨d, ds, rfl⟩ := List.exists_cons_of_ne_nil nonempty
      exact ⟨d, ds, rfl, Piece.read_integer digits stop noPoint⟩
  | decimal nonempty digits nonempty' digits' stop =>
      obtain ⟨d, ds, rfl⟩ := List.exists_cons_of_ne_nil nonempty
      obtain ⟨e, es, rfl⟩ := List.exists_cons_of_ne_nil nonempty'
      exact ⟨d, _, rfl, Piece.read_decimal digits digits' stop⟩
  | @symbol s _ stop =>
      obtain ⟨c, spelled, single⟩ | ⟨c, spelled, double⟩ := s.single_or_double
      · exact ⟨c, [], spelled, spelled ▸ Piece.read_ofChar single stop⟩
      · exact ⟨c, ['='], spelled, spelled ▸ Piece.read_withEquals double⟩

/-- The reader finds a lexeme exactly where one stands. -/
theorem iff_read {c : Char} {cs : List Char} :
    Piece.read c cs = (.lexeme kind text, rest) ↔
    Lexeme kind text rest ∧ text ++ rest = c :: cs := by
  constructor
  · intro h
    have lexeme := @Piece.whole_read c cs
    have whole := Piece.chars_append_read c cs
    rw [h] at lexeme whole
    exact ⟨lexeme rfl, whole⟩
  · rintro ⟨lexeme, whole⟩
    obtain ⟨d, ds, rfl, hread⟩ := lexeme.read
    obtain ⟨rfl, rfl⟩ := List.cons.inj whole
    exact hread

/-- A lexeme is one at the end of a text too. -/
theorem alone (h : Lexeme kind text rest) : Lexeme kind text [] := by
  have last {word : List Char} {words : List (List Char)} : ¬ Follow (word :: words) [] := by
    rintro ⟨_, _, spaced, whole⟩
    cases spaced with
    | cons nonempty => simp [nonempty] at whole
  cases h with
  | identifier letter word _ notKeyword _ =>
      exact .identifier letter word (by simp) notKeyword fun _ => last
  | word spelled letter word _ _ => exact .word spelled letter word (by simp) fun _ => last
  | phrase continued spaced => exact .phrase continued spaced.alone
  | integer nonempty digits _ _ => exact .integer nonempty digits (by simp) (by simp)
  | decimal nonempty digits nonempty' digits' _ =>
      exact .decimal nonempty digits nonempty' digits' (by simp)
  | symbol _ => exact .symbol (by simp)

/-- What begins with no letter is spelled like no keyword. -/
theorem collapsed_ne_spelling
    (begins : ∀ c ∈ text.head?, Text.isLetter c = false ∧ Text.isGap c = false) (k : Keyword) :
    Text.collapsed text ≠ k.spelling.toList := by
  intro same
  obtain ⟨d, hd, letter⟩ := k.exists_letter
  rw [← same] at hd
  cases text with
  | nil => cases hd
  | cons c text =>
      obtain ⟨noLetter, notGap⟩ := begins c rfl
      rw [Text.collapsed, if_neg (by simp [notGap])] at hd
      cases hd
      rw [noLetter] at letter
      contradiction

/-- The keywords are the lexemes that are spelled like them. -/
theorem keyword_iff (h : Lexeme kind text rest) (k : Keyword) :
    kind = .keyword k ↔ Text.collapsed text = k.spelling.toList := by
  have asWritten {c : Char} {cs : List Char} (letter : Text.isLetter c)
      (word : ∀ d ∈ cs, Text.isLetterOrNumeral d) : ∀ d ∈ c :: cs, Text.isGap d = false :=
    List.forall_mem_cons.2
      ⟨Text.isGap_of_isLetterOrNumeral (Text.isLetterOrNumeral_of_isLetter letter),
        fun d hd => Text.isGap_of_isLetterOrNumeral (word d hd)⟩
  have number {ds more : List Char} (nonempty : ds ≠ []) (digits : ∀ d ∈ ds, d.isDigit) :
      Text.collapsed (ds ++ more) ≠ k.spelling.toList := by
    obtain ⟨d, ds, rfl⟩ := List.exists_cons_of_ne_nil nonempty
    refine collapsed_ne_spelling ?_ k
    rintro _ ⟨⟩
    have digit := digits d (by simp)
    refine ⟨Bool.eq_false_iff.2 fun letter => ?_, Bool.eq_false_iff.2 fun gap => ?_⟩
    · rw [Text.isDigit_of_isLetter letter] at digit
      contradiction
    · obtain rfl | rfl : d = ' ' ∨ d = '\t' := by simpa [Text.isGap] using gap
      · contradiction
      · contradiction
  cases h with
  | @identifier c cs _ letter word _ notKeyword _ =>
      rw [Text.collapsed_word (asWritten letter word)]
      refine iff_of_false (by simp) fun same => ?_
      rw [same, String.ofList_toList, k.ofSpelling?_spelling] at notKeyword
      contradiction
  | word spelled letter word _ _ =>
      rw [Text.collapsed_word (asWritten letter word), ← spelled, Keyword.spelling_toList_inj]
      simp
  | @phrase first k' words _ _ continued spaced =>
      obtain ⟨c, cs, rfl, letter, word⟩ := Keyword.first_of_continued? continued
      rw [Text.collapsed_word_append (asWritten letter word),
        spaced.collapsed (Keyword.words_of_continued? continued),
        ← Keyword.spelling_of_continued? continued, Keyword.spelling_toList_inj]
      simp
  | integer nonempty digits _ _ =>
      have notWord := @number _ [] nonempty digits
      rw [List.append_nil] at notWord
      exact iff_of_false (by simp) notWord
  | decimal nonempty digits _ _ _ => exact iff_of_false (by simp) (number nonempty digits)
  | @symbol s _ _ =>
      refine iff_of_false (by simp) (collapsed_ne_spelling ?_ k)
      cases s <;> rintro _ ⟨⟩ <;> decide

end Lexeme

namespace Scan

variable {source : String} {o : ScanOptions} {t : Token}

/-- A token is a block marker, the end mark, or it stands for a piece at its place in the text. -/
theorem exists_piece_of_mem_tokens (ht : t ∈ (ofString source o).tokens) :
    (t.lexeme = "" ∧ t.kind ∈ [.indent, .dedent, .eof]) ∨
      ∃ before p rest, source.toList = before ++ p.chars ++ rest ∧ t.location = .behind before ∧
        p.token? o.keepComments = some (t.kind, t.lexeme.toList) ∧ p.Stands rest ∧
        Piece.split (p.chars ++ rest) = p :: Piece.split rest := by
  rw [tokens_ofString] at ht
  obtain ⟨e, he, ht⟩ := List.mem_flatMap.1 ht
  cases e with
  | piece p loc =>
      obtain ⟨front, back, hsplit, place⟩ := exists_of_mem_eventsFrom he
      have whole := Piece.flatMap_chars_split source.toList
      obtain ⟨rest, text, stands, hread, -⟩ :=
        Piece.exists_of_split_cons (Piece.split_flatMap_chars hsplit)
      rw [hsplit, List.flatMap_append, text, ← List.append_assoc] at whole
      simp only [Event.tokens] at ht
      split at ht
      case h_1 kind lexeme token =>
        obtain rfl := List.mem_singleton.1 ht
        refine .inr ⟨_, p, rest, whole.symm, ?_, ?_, stands, hread⟩
        · exact place.trans (Location.behind_append [] _).symm
        · rw [token, String.toList_ofList]
      case h_2 => contradiction
  | layout change loc =>
      cases change with
      | misaligned _ => contradiction
      | opened _ | closed _ =>
          obtain rfl := List.mem_singleton.1 ht
          exact .inl ⟨rfl, by simp⟩
  | ended depth loc =>
      obtain ht | ht := List.mem_append.1 ht
      · obtain rfl := List.eq_of_mem_replicate ht
        exact .inl ⟨rfl, by simp⟩
      · obtain rfl := List.mem_singleton.1 ht
        exact .inl ⟨rfl, by simp⟩

/-- A text that is read as one token begins outside all blocks, and the token is all there is. -/
theorem scan_of_split {text : List Char} {t : Token.Kind × List Char}
    (h : Piece.split text = [.ofToken t]) :
    (ofString (String.ofList text) {}).tokens =
        [⟨t.1, String.ofList t.2, .start⟩, ⟨.eof, "", .behind text⟩] ∧
      (ofString (String.ofList text) {}).errors = [] := by
  have events : eventsFrom {} {} .start [.ofToken t] =
      [.piece (.ofToken t) .start, .ended 0 (Location.start.advance (Piece.ofToken t).chars)] := by
    obtain ⟨kind, _⟩ := t
    cases kind <;> rfl
  have whole := Piece.flatMap_chars_split text
  rw [h, List.flatMap_singleton] at whole
  rw [tokens_ofString, errors_ofString, String.toList_ofList, h, events, whole]
  have place : Location.start.advance text = .behind text := (Location.behind_append [] text).symm
  simp [Event.tokens, Event.errors, Piece.token?_ofToken, Piece.fault?_ofToken, place]

end Scan

namespace Lexeme

theorem split_alone {kind : Token.Kind} {text rest : List Char} (h : Lexeme kind text rest) :
    Piece.split text = [.lexeme kind text] := by
  obtain ⟨c, cs, rfl, hread⟩ := h.alone.read
  rw [List.append_nil] at hread
  rw [Piece.split_cons, hread, Piece.split_nil]

end Lexeme

namespace Piece

variable {p : Piece} {t : Token.Kind × List Char} {rest : List Char} {keep : Bool}

theorem lexeme_of_split {kind : Token.Kind} {text : List Char} (nonempty : text ≠ [])
    (h : split (text ++ rest) = lexeme kind text :: split rest) : Lexeme kind text rest := by
  obtain ⟨c, text, rfl⟩ := List.exists_cons_of_ne_nil nonempty
  exact (Lexeme.iff_read.1 (read_of_split (p := .lexeme kind (c :: text)) rfl h)).1

theorem lexeme_of_token? (stands : p.Stands rest) (h : split (p.chars ++ rest) = p :: split rest)
    (token : p.token? keep = some t) (written : t.1.isWritten) :
    p.chars = t.2 ∧ Lexeme t.1 t.2 rest := by
  cases stands with
  | blank | rejected => contradiction
  | newline | closed | unclosed =>
      cases token
      contradiction
  | comment =>
      cases keep with
      | false => contradiction
      | true =>
          cases token
          contradiction
  | lexeme _ nonempty =>
      cases token
      exact ⟨rfl, lexeme_of_split nonempty h⟩

/-- A token in a line is read from its spelling alone. -/
theorem split_spelling (stands : p.Stands rest) (h : split (p.chars ++ rest) = p :: split rest)
    (token : p.token? keep = some t) (inLine : t.1.isStructural = false) :
    split (spelling t) = [.ofToken t] := by
  cases stands with
  | blank | rejected => contradiction
  | newline =>
      cases token
      contradiction
  | @comment text _ sameLine _ =>
      cases keep with
      | false => contradiction
      | true =>
          cases token
          change split ('~' :: text) = _
          rw [split_cons, read_lastComment sameLine, split_nil]
          rfl
  | closed noQuote | unclosed noQuote =>
      cases token
      change split ('"' :: (_ ++ ['"'])) = _
      rw [split_cons, read_text noQuote, split_nil]
      rfl
  | @lexeme kind text _ written nonempty =>
      cases token
      have alone := (lexeme_of_split nonempty h).split_alone
      cases kind <;> first | exact alone | contradiction

/-- A token that is neither text nor comment is a keyword if it is spelled like one. -/
theorem keyword_iff (stands : p.Stands rest) (h : split (p.chars ++ rest) = p :: split rest)
    (token : p.token? keep = some t) (notText : t.1 ≠ .text) (notComment : t.1 ≠ .comment)
    (k : Keyword) : t.1 = .keyword k ↔ Text.collapsed t.2 = k.spelling.toList := by
  cases stands with
  | blank | rejected => contradiction
  | newline =>
      cases token
      refine iff_of_false (by simp) (Lexeme.collapsed_ne_spelling ?_ k)
      rintro _ ⟨⟩
      exact ⟨rfl, rfl⟩
  | comment =>
      cases keep with
      | false => contradiction
      | true =>
          cases token
          contradiction
  | closed | unclosed =>
      cases token
      contradiction
  | lexeme _ nonempty =>
      cases token
      exact (lexeme_of_split nonempty h).keyword_iff k

end Piece

/-- Every word, number and symbol among the tokens is a whole lexeme where it stands: nothing behind
it belongs to it. It is a keyword if it is spelled like one. So each token keeps its kind and its
lexeme when its spelling is scanned alone. -/
theorem tokens_longest {source : String} {o : ScanOptions} {t : Token}
    (ht : t ∈ (Scan.ofString source o).tokens) :
    (t.kind.isWritten → ∃ before rest, source.toList = before ++ t.lexeme.toList ++ rest ∧
      t.location = .behind before ∧ Lexeme t.kind t.lexeme.toList rest) ∧
    (t.kind ≠ .text → t.kind ≠ .comment → ∀ k : Keyword,
      t.kind = .keyword k ↔ Text.collapsed t.lexeme.toList = k.spelling.toList) ∧
    (t.kind.isStructural = false →
      let alone := Scan.ofString (String.ofList (spelling (t.kind, t.lexeme.toList))) {}
      alone.tokens.map (fun u => (u.kind, u.lexeme)) = [(t.kind, t.lexeme), (.eof, "")] ∧
        alone.errors = []) := by
  obtain ⟨empty, marker⟩ | ⟨before, p, rest, text, place, token, stands, hread⟩ :=
    Scan.exists_piece_of_mem_tokens ht
  · have notWritten : t.kind.isWritten = false ∧ t.kind.isStructural := by
      simp only [List.mem_cons, List.not_mem_nil, or_false] at marker
      obtain kind | kind | kind := marker <;> rw [kind] <;> decide
    refine ⟨fun written => ?_, fun _ _ k => ?_, fun inLine => ?_⟩
    · rw [notWritten.1] at written
      contradiction
    · rw [empty]
      refine iff_of_false (fun keyword => ?_) (Lexeme.collapsed_ne_spelling (by simp) k)
      simp [keyword, Token.Kind.isWritten] at notWritten
    · rw [notWritten.2] at inLine
      contradiction
  · refine ⟨fun written => ?_, Piece.keyword_iff stands hread token, fun inLine => ?_⟩
    · obtain ⟨chars, lexeme⟩ := Piece.lexeme_of_token? stands hread token written
      rw [chars] at text
      exact ⟨before, rest, text, place, lexeme⟩
    · obtain ⟨tokens, errors⟩ := Scan.scan_of_split (Piece.split_spelling stands hread token inLine)
      simp [tokens, errors]

theorem tokens_longest_si :
    let source := "de lo  contrario si nombre >= 3.5"
    let t : Token := ⟨.keyword .si, "si", ⟨1, 18⟩⟩
    t ∈ (Scan.ofString source {}).tokens ∧
      (∃ before rest, source.toList = before ++ t.lexeme.toList ++ rest ∧
        t.location = .behind before ∧ Lexeme t.kind t.lexeme.toList rest) ∧
      Text.collapsed t.lexeme.toList = Keyword.si.spelling.toList ∧
      let alone := Scan.ofString (String.ofList (spelling (t.kind, t.lexeme.toList))) {}
      alone.tokens.map (fun u => (u.kind, u.lexeme)) = [(t.kind, t.lexeme), (.eof, "")] ∧
        alone.errors = [] := by
  intro source t
  have ht : t ∈ (Scan.ofString source {}).tokens := by decide +kernel
  obtain ⟨whole, keyword, alone⟩ := tokens_longest ht
  exact ⟨ht, whole rfl, (keyword (by simp [t]) (by simp [t]) .si).1 rfl, alone rfl⟩

end PasoFrontEnd
