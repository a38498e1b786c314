import PasoFrontEnd.Proofs.Grammar.Editing
import PasoFrontEnd.Proofs.Grammar.Indentation
import PasoFrontEnd.Proofs.Scan.Modes
import PasoFrontEnd.Proofs.Scan.Places

/-!
Lines may end with a newline or with a return and a newline. If every newline of a text gets a
return in front of it, the returns go into string literals and comments, and else they are white
space at the ends of lines; the tokens, the blocks and the errors stay where they are.
-/

namespace PasoFrontEnd

namespace Text

/-- The text with a return in front of every newline. -/
def returned (cs : List Char) : List Char :=
  cs.flatMap fun c => if c = '\n' then ['\r', '\n'] else [c]

theorem returned_append (a b : List Char) : returned (a ++ b) = returned a ++ returned b :=
  List.flatMap_append

theorem returned_of_sameLine {cs : List Char} (sameLine : '\n' ∉ cs) : returned cs = cs := by
  induction cs with
  | nil => rfl
  | cons c cs ih =>
      simp only [List.mem_cons, not_or] at sameLine
      rw [returned, List.flatMap_cons, if_neg (Ne.symm sameLine.1)]
      exact congrArg (c :: ·) (ih sameLine.2)

theorem reach_returned (cs : List Char) : reach (returned cs) = reach cs := by
  induction cs with
  | nil => rfl
  | cons c cs ih =>
      by_cases newline : c = '\n'
      · subst newline
        rfl
      · rw [returned, List.flatMap_cons, if_neg newline]
        exact reach_append_congr (a := [c]) ih

theorem quote_not_mem_returned {cs : List Char} (noQuote : '"' ∉ cs) : '"' ∉ returned cs := by
  intro h
  obtain ⟨c, hc, hquote⟩ := List.mem_flatMap.1 h
  split at hquote
  · simp at hquote
  · rw [List.mem_singleton.1 hquote] at noQuote
    contradiction

theorem newline_mem_returned (cs : List Char) : '\n' ∈ returned cs ↔ '\n' ∈ cs := by
  refine ⟨fun h => ?_, fun h => List.mem_flatMap.2 ⟨'\n', h, by simp⟩⟩
  obtain ⟨c, hc, newline⟩ := List.mem_flatMap.1 h
  split at newline
  case isTrue isNewline => exact isNewline ▸ hc
  case isFalse => exact List.mem_singleton.1 newline ▸ hc

/-- Returns in front of newlines change no place behind them. -/
theorem advance_returned (loc : Location) (cs : List Char) :
    loc.advance (returned cs) = loc.advance cs := by
  induction cs generalizing loc with
  | nil => rfl
  | cons c cs ih =>
      by_cases newline : c = '\n'
      · subst newline
        exact ih _
      · rw [returned, List.flatMap_cons, if_neg newline]
        exact ih _

end Text

namespace Piece

/-- The pieces of a text with a return in front of every newline. -/
def returned : List Piece → List Piece
  | [] => []
  | .newline :: ps => .blank '\r' :: .newline :: returned ps
  | .comment text :: .newline :: ps => .comment (text ++ ['\r']) :: .newline :: returned ps
  | .quoted body closed :: ps => .quoted (Text.returned body) closed :: returned ps
  | p :: ps => p :: returned ps

theorem returned_cons {p : Piece} (plain : p.isPlain) (ps : List Piece) :
    returned (p :: ps) = p :: returned ps := by
  cases p with
  | newline | comment _ | quoted _ _ => contradiction
  | _ => rfl

theorem split_returned (cs : List Char) : split (Text.returned cs) = returned (split cs) := by
  induction cs using text_induction with
  | nil => exact split_nil.trans (congrArg returned split_nil).symm
  | @piece p rest stands hsplit ih =>
      have more := ih rest (Nat.le_refl _)
      have shape := stands.shape hsplit
      rw [hsplit, Text.returned_append]
      cases shape with
      | newline =>
          change split ('\r' :: '\n' :: Text.returned rest) = _
          rw [split_cons, read_blank (by decide), split_newline, returned, ← more]
      | plain plain inner =>
          have sameLine : Text.returned p.chars = p.chars :=
            Text.returned_of_sameLine fun hmem => (inner _ hmem).1 rfl
          have stands' : p.Stands (Text.returned rest) :=
            stands.of_code (isComment_of_isPlain plain) fun ends => by rw [ends]; rfl
          rw [sameLine, returned_cons plain, ← more]
          exact split_congr hsplit stands' (Text.reach_returned rest).symm
      | @comment text _ sameLine ends =>
          have comment : Text.returned ('~' :: text) = '~' :: text :=
            Text.returned_of_sameLine (by simpa using sameLine)
          rw [chars, comment]
          obtain rfl | ⟨behind, rfl⟩ := ends
          · change split ('~' :: text ++ []) = _
            rw [List.append_nil, split_cons, read_lastComment sameLine, split_nil]
            rfl
          · have sameLine' : '\n' ∉ text ++ ['\r'] := by simpa using sameLine
            have whole : '~' :: text ++ Text.returned ('\n' :: behind) =
                '~' :: (text ++ ['\r'] ++ '\n' :: Text.returned behind) := by simp [Text.returned]
            rw [whole, split_cons, read_comment sameLine', split_newline, split_newline, returned,
              ih behind (Nat.le_succ _)]
      | @closed body _ noQuote =>
          have whole : Text.returned (chars (.quoted body true)) ++ Text.returned rest =
              '"' :: (Text.returned body ++ '"' :: Text.returned rest) := by
            simp [chars, Text.returned]
          rw [whole, split_cons, read_text (Text.quote_not_mem_returned noQuote), returned, more]
      | @unclosed body noQuote =>
          have whole : Text.returned (chars (.quoted body false)) ++ Text.returned [] =
              '"' :: Text.returned body := by
            simp [chars, Text.returned]
          rw [whole, split_cons, read_openText (Text.quote_not_mem_returned noQuote), returned,
            split_nil]
          rfl

end Piece

namespace Layout

variable {tabWidth : Nat} {gap code cs : List Char}

theorem behind_returned (behind : Text.Behind code) (noReturn : '\r' ∉ code) :
    Text.Behind (Text.returned code) := by
  cases behind with
  | ended => exact .ended
  | newline rest => exact .returned _
  | returned _ => simp at noReturn
  | comment rest => exact .comment _
  | code notGap newline comment _ =>
      rw [Text.returned, List.flatMap_cons, if_neg newline]
      refine .code notGap newline comment fun isReturn => ?_
      simp [isReturn] at noReturn

/-- Returns at the ends of lines have no part in their widths. -/
theorem lineWidth?_returned (noReturn : '\r' ∉ cs) :
    lineWidth? tabWidth (Piece.split (Text.returned cs)) = lineWidth? tabWidth (Piece.split cs) ∧
      indentation (Piece.split (Text.returned cs)) = indentation (Piece.split cs) := by
  obtain ⟨gap, code, rfl, hgap, behind⟩ := Text.exists_gap_append cs
  have noReturn' : '\r' ∉ code := fun h => noReturn (List.mem_append_right _ h)
  rw [Text.returned_append, Text.returned_of_sameLine (Text.newline_not_mem_gap hgap),
    indentation_split hgap behind, indentation_split hgap (behind_returned behind noReturn')]
  refine ⟨?_, rfl⟩
  cases behind with
  | ended => rfl
  | newline rest => exact (lineWidth?_return hgap _).trans (lineWidth?_newline hgap rest).symm
  | returned _ => simp at noReturn'
  | comment rest =>
      change lineWidth? tabWidth (Piece.split (gap ++ '~' :: Text.returned rest)) = _
      simp only [lineWidth?_comment hgap, Text.newline_mem_returned]
  | @code c rest notGap newline comment _ =>
      have noReturn {more : List Char} : c = '\r' → more.head? ≠ some '\n' :=
        fun isReturn => by simp [isReturn] at noReturn'
      rw [Text.returned, List.flatMap_cons, if_neg newline]
      exact (lineWidth?_code hgap notGap newline comment noReturn).trans
        (lineWidth?_code hgap notGap newline comment noReturn).symm

end Layout

namespace Token

/-- The token in a text with a return in front of every newline; a comment gets one if a newline
follows it. -/
def returned (t : Token) (endsLine : Bool) : Token :=
  match t.kind with
  | .newline => { t with location := ⟨t.location.line, t.location.column + 1⟩ }
  | .text => { t with lexeme := String.ofList (Text.returned t.lexeme.toList) }
  | .comment => if endsLine then { t with lexeme := t.lexeme ++ "\r" } else t
  | _ => t

def returnedList : List Token → List Token
  | [] => []
  | t :: ts => t.returned (ts.head?.any (·.kind = .newline)) :: returnedList ts

theorem returned_of_kind {t : Token} (newline : t.kind ≠ .newline) (text : t.kind ≠ .text)
    (comment : t.kind ≠ .comment) (endsLine : Bool) : t.returned endsLine = t := by
  unfold returned
  split <;> first | contradiction | rfl

theorem kind_returned (t : Token) (endsLine : Bool) : (t.returned endsLine).kind = t.kind := by
  unfold returned
  split
  case h_3 => split <;> rfl
  all_goals rfl

theorem returned_of_not_comment {t : Token} (comment : t.kind ≠ .comment) (endsLine : Bool) :
    t.returned endsLine = t.returned false := by
  unfold returned
  split <;> first | contradiction | rfl

theorem returnedList_append {ts us : List Token}
    (fixed : ∀ t ∈ ts, ∀ endsLine, t.returned endsLine = t) :
    returnedList (ts ++ us) = ts ++ returnedList us := by
  induction ts with
  | nil => rfl
  | cons t ts ih =>
      rw [List.cons_append, returnedList, fixed t (by simp), ih fun u hu => fixed u (by simp [hu])]
      rfl

end Token

namespace Scan

/-- The second events put out what the first do, with a return in front of every newline. -/
structure Returned (keep : Bool) (events events' : List Event) : Prop where
  tokens : events'.flatMap (Event.tokens keep) =
    Token.returnedList (events.flatMap (Event.tokens keep))
  errors : events'.flatMap Event.errors = events.flatMap Event.errors

namespace Returned

variable {keep : Bool} {events events' : List Event} {loc : Location}

theorem same (h : Returned keep events events') {e : Event}
    (fixed : ∀ t ∈ e.tokens keep, ∀ endsLine, t.returned endsLine = t) :
    Returned keep (e :: events) (e :: events') where
  tokens := by rw [List.flatMap_cons, List.flatMap_cons, h.tokens, Token.returnedList_append fixed]
  errors := by rw [List.flatMap_cons, List.flatMap_cons, h.errors]

theorem blank (h : Returned keep events events') (c : Char) :
    Returned keep events (.piece (.blank c) loc :: events') := ⟨h.tokens, h.errors⟩

theorem newline (h : Returned keep events events') :
    Returned keep (.piece .newline loc :: events)
      (.piece .newline ⟨loc.line, loc.column + 1⟩ :: events') where
  tokens := by
    rw [List.flatMap_cons, List.flatMap_cons, h.tokens]
    rfl
  errors := h.errors

theorem quoted (h : Returned keep events events') (body : List Char) (closed : Bool) :
    Returned keep (.piece (.quoted body closed) loc :: events)
      (.piece (.quoted (Text.returned body) closed) loc :: events') where
  tokens := by
    rw [List.flatMap_cons, List.flatMap_cons, h.tokens]
    simp [Event.tokens, Piece.token?, Token.returnedList, Token.returned]
  errors := by
    rw [List.flatMap_cons, List.flatMap_cons, h.errors]
    cases closed <;> rfl

theorem comment {below : Location} (h : Returned keep events events') (text : List Char) :
    Returned keep (.piece (.comment text) loc :: .piece .newline below :: events)
      (.piece (.comment (text ++ ['\r'])) loc ::
        .piece .newline ⟨below.line, below.column + 1⟩ :: events') where
  tokens := by
    simp only [List.flatMap_cons, h.tokens]
    cases keep with
    | false => rfl
    | true => simp [Event.tokens, Piece.token?, Token.returnedList, Token.returned]
  errors := by
    simp only [List.flatMap_cons, h.errors]
    rfl

theorem ended (depth : Nat) : Returned keep [.ended depth loc] [.ended depth loc] := by
  refine same ⟨rfl, rfl⟩ fun t ht => ?_
  obtain ht | ht := List.mem_append.1 ht
  · rw [List.eq_of_mem_replicate ht]
    exact fun _ => rfl
  · rw [List.mem_singleton.1 ht]
    exact fun _ => rfl

theorem lastComment (text : List Char) (depth : Nat) {last : Location} :
    Returned keep [.piece (.comment text) loc, .ended depth last]
      [.piece (.comment text) loc, .ended depth last] where
  tokens := by
    have fixed := (@ended keep last depth).tokens
    have follows : ([Event.ended depth last].flatMap (Event.tokens keep)).head?.any
        (·.kind = .newline) = false := by cases depth <;> rfl
    rw [List.flatMap_cons]
    cases keep with
    | false => exact fixed
    | true =>
        have comment : Token.returnedList (⟨.comment, String.ofList text, loc⟩ ::
            [Event.ended depth last].flatMap (Event.tokens true)) =
              ⟨.comment, String.ofList text, loc⟩ ::
              [Event.ended depth last].flatMap (Event.tokens true) := by
          rw [Token.returnedList, follows, ← fixed]
          rfl
        exact comment.symm
  errors := rfl

theorem layout (h : Returned keep events events') (changes : List Layout.Change) :
    Returned keep (changes.map (Event.layout · loc) ++ events)
      (changes.map (Event.layout · loc) ++ events') := by
  induction changes with
  | nil => exact h
  | cons change changes ih =>
      refine ih.same fun t ht => ?_
      cases change with
      | misaligned _ => contradiction
      | opened _ | closed _ =>
          rw [List.mem_singleton.1 ht]
          exact fun _ => rfl

end Returned

variable {o : ScanOptions} {l : Layout} {loc : Location} {cs : List Char}

theorem returned_line (noReturn : '\r' ∉ cs)
    (more : ∀ l, Returned o.keepComments (pieceEvents o l loc (Piece.split cs))
      (pieceEvents o l loc (Piece.returned (Piece.split cs)))) :
    Returned o.keepComments (eventsFrom o l loc (Piece.split cs))
      (eventsFrom o l loc (Piece.returned (Piece.split cs))) := by
  obtain ⟨width, indentation⟩ := @Layout.lineWidth?_returned o.tabWidth cs noReturn
  rw [Piece.split_returned] at width indentation
  rw [eventsFrom_congr width indentation]
  exact (more _).layout _

theorem advance_chars_quoted (loc : Location) (body : List Char) (closed : Bool) :
    loc.advance (Piece.quoted (Text.returned body) closed).chars =
      loc.advance (Piece.quoted body closed).chars := by
  have chars : (Piece.quoted (Text.returned body) closed).chars =
      Text.returned (Piece.quoted body closed).chars := by
    cases closed <;> simp [Piece.chars, Text.returned]
  rw [chars, Text.advance_returned]

theorem returned_pieceEvents (noReturn : '\r' ∉ cs) :
    Returned o.keepComments (pieceEvents o l loc (Piece.split cs))
      (pieceEvents o l loc (Piece.returned (Piece.split cs))) := by
  induction cs using Piece.text_induction generalizing l loc with
  | nil =>
      rw [Piece.split_nil]
      exact .ended _
  | @piece p rest stands hsplit ih =>
      have noReturn' : '\r' ∉ rest := fun h => noReturn (List.mem_append_right _ h)
      have line {cs : List Char} (le : cs.length ≤ rest.length) (noReturn : '\r' ∉ cs) (l : Layout)
          (loc : Location) : Returned o.keepComments (eventsFrom o l loc (Piece.split cs))
            (eventsFrom o l loc (Piece.returned (Piece.split cs))) :=
        returned_line noReturn fun l => ih cs le noReturn
      rw [hsplit]
      cases stands.shape hsplit with
      | newline =>
          have more := line (Nat.le_refl _) noReturn' l (loc.next '\n')
          have isReturn : Piece.blank '\r' ≠ .newline := by simp
          rw [Piece.returned, pieceEvents_newline, pieceEvents_cons isReturn, pieceEvents_newline]
          exact more.newline.blank '\r'
      | plain plain inner =>
          have newline : p ≠ .newline := by
            rintro rfl
            contradiction
          rw [Piece.returned_cons plain, pieceEvents_cons newline, pieceEvents_cons newline]
          refine (ih rest (Nat.le_refl _) noReturn').same fun t ht => ?_
          cases stands with
          | lexeme written _ =>
              obtain rfl := List.mem_singleton.1 ht
              refine Token.returned_of_kind ?_ ?_ ?_ <;> rintro rfl <;> contradiction
          | _ => contradiction
      | @comment text _ sameLine ends =>
          have notNewline (text : List Char) : Piece.comment text ≠ .newline := by simp
          rw [pieceEvents_cons (notNewline text)]
          obtain rfl | ⟨behind, rfl⟩ := ends
          · have last : Piece.returned [.comment text] = [.comment text] := rfl
            rw [Piece.split_nil, last, pieceEvents_cons (notNewline text)]
            exact .lastComment text _
          · have more := line (Nat.le_succ _) (fun h => noReturn' (List.mem_cons_of_mem _ h)) l
              ((loc.advance (Piece.comment text).chars).next '\n')
            have place : loc.advance (Piece.comment (text ++ ['\r'])).chars =
                (loc.advance (Piece.comment text).chars).next '\r' :=
              Location.advance_append loc ('~' :: text) _
            rw [Piece.split_newline, Piece.returned, pieceEvents_cons (notNewline _),
              pieceEvents_newline, pieceEvents_newline, place]
            exact more.comment text
      | @closed body _ noQuote =>
          have notNewline (body : List Char) : Piece.quoted body true ≠ .newline := by simp
          rw [Piece.returned, pieceEvents_cons (notNewline body), pieceEvents_cons (notNewline _),
            advance_chars_quoted]
          exact (ih rest (Nat.le_refl _) noReturn').quoted body true
      | @unclosed body noQuote =>
          have notNewline (body : List Char) : Piece.quoted body false ≠ .newline := by simp
          rw [Piece.returned, pieceEvents_cons (notNewline body), pieceEvents_cons (notNewline _),
            advance_chars_quoted]
          exact (ih [] (Nat.le_refl _) noReturn').quoted body false

theorem returned_ofString {source : String} (noReturn : '\r' ∉ source.toList) :
    Returned o.keepComments (eventsFrom o {} .start (Piece.split source.toList))
      (eventsFrom o {} .start (Piece.split (Text.returned source.toList))) := by
  rw [Piece.split_returned]
  exact returned_line noReturn fun _ => returned_pieceEvents noReturn

end Scan

/-- Other texts of string literals: with a return in front of every newline. -/
def Edit.returned : Edit where
  text s := String.ofList (Text.returned s.toList)

namespace Grammar

theorem filter_returnedList (ts : List Token) :
    (Token.returnedList ts).filter (·.kind ≠ .comment) =
      (ts.filter (·.kind ≠ .comment)).map (·.returned false) := by
  induction ts with
  | nil => rfl
  | cons t ts ih =>
      by_cases comment : t.kind = .comment
      · rw [Token.returnedList, List.filter_cons_of_neg (by simp [Token.kind_returned, comment]),
          ih, List.filter_cons_of_neg (by simp [comment])]
      · rw [Token.returnedList, List.filter_cons_of_pos (by simp [Token.kind_returned, comment]),
          ih, List.filter_cons_of_pos (by simp [comment]), List.map_cons,
          Token.returned_of_not_comment comment]

theorem edits_returned {t : Token} (comment : t.kind ≠ .comment) :
    Edits Edit.returned t (t.returned false) where
  kind := Token.kind_returned t false
  edited unstructured := by
    unfold Token.returned
    split
    case h_1 kind => simp [kind, Token.Kind.isStructural] at unstructured
    case h_2 kind => simp [Edit.token, Edit.returned, kind]
    case h_3 kind => contradiction
    case h_4 _ text _ =>
      rw [Edit.token, if_neg text]
      rfl

theorem toOption_parse_returnedList {ts : List Token}
    (ended : Ended (ts.filter (·.kind ≠ .comment))) :
    (parse (Token.returnedList ts)).toOption = (parse ts).toOption.map Edit.returned.program := by
  rw [← parse_withoutComments ts, ← parse_withoutComments, filter_returnedList]
  refine toOption_parse_of_forall₂ ended
    (List.forall₂_map_right_iff.2 (List.forall₂_same.2 fun t ht => ?_))
  exact edits_returned (of_decide_eq_true (List.mem_filter.1 ht).2)

end Grammar

/-- Newlines and returns with newlines are the same ends of lines. If every newline of a text
without returns gets a return in front of it, the tokens go along with it, the errors stay as they
are, and so does the program, but for the texts of its string literals. -/
theorem scan_returned {source : String} (noReturn : '\r' ∉ source.toList) (o : ScanOptions) :
    let scan := Scan.ofString source o
    let scan' := Scan.ofString (String.ofList (Text.returned source.toList)) o
    scan'.tokens = Token.returnedList scan.tokens ∧ scan'.errors = scan.errors ∧
      (parse scan'.tokens).toOption = (parse scan.tokens).toOption.map Edit.returned.program := by
  intro scan scan'
  obtain ⟨tokens, errors⟩ := @Scan.returned_ofString o source noReturn
  have tokens' : scan'.tokens = Token.returnedList scan.tokens := by
    rw [Scan.tokens_ofString, Scan.tokens_ofString, String.toList_ofList, tokens]
  have errors' : scan'.errors = scan.errors := by
    rw [Scan.errors_ofString, Scan.errors_ofString, String.toList_ofList, errors]
  refine ⟨tokens', errors', ?_⟩
  rw [tokens']
  exact Grammar.toOption_parse_returnedList (Grammar.ended_ofString source o)

/-- Newlines behind comments and code, of a blank line and in a string literal; the last line has
none. -/
theorem scan_returned_branch :
    let source := "~ nota\nsi (a)\n\n\tb = \"c\nd\" ~ otra\n\t~ fin"
    let source' := "~ nota\r\nsi (a)\r\n\r\n\tb = \"c\r\nd\" ~ otra\r\n\t~ fin"
    let scan := Scan.ofString source {}
    let scan' := Scan.ofString source' {}
    '\r' ∉ source.toList ∧ scan'.tokens = Token.returnedList scan.tokens ∧
      scan'.errors = scan.errors ∧
      (parse scan'.tokens).toOption = (parse scan.tokens).toOption.map Edit.returned.program := by
  intro source source' scan scan'
  have noReturn : '\r' ∉ source.toList := by decide +kernel
  have text : String.ofList (Text.returned source.toList) = source' := by decide +kernel
  have returned := scan_returned noReturn {}
  rw [text] at returned
  exact ⟨noReturn, returned⟩

end PasoFrontEnd
