import PasoFrontEnd.Proofs.Scan.OneLine

/-!
What the log of a scan says about its tokens and errors. Every error is logged where it is reported,
and every block marker where a line puts it out, with the width of its block. The markers that close
what is open at the end of the input are the only ones that are not logged; the error there says how
many they are.
-/

namespace PasoFrontEnd

namespace Log.Record

/-- Whether the scanner traces something with a message that begins in the given way. -/
def begins (start : String) (r : Record) : Bool :=
  r.level = .trace && r.origin = .scanner && start.toList.isPrefixOf r.message.toList

def isMarker (r : Record) : Bool := r.begins "INDENT " || r.begins "DEDENT "

def isError (r : Record) : Bool := r.begins "lexical error "

/-- A message that is longer than the beginning asked for can go on in any way. -/
theorem begins_append (start front back : String)
    (long : start.toList.length ≤ front.toList.length) :
    begins start ⟨.trace, .scanner, front ++ back⟩ = start.toList.isPrefixOf front.toList := by
  have same : start.toList.isPrefixOf (front ++ back).toList =
      start.toList.isPrefixOf front.toList := by
    rw [Bool.eq_iff_iff, List.isPrefixOf_iff_prefix, List.isPrefixOf_iff_prefix,
      String.toList_append]
    exact ⟨fun h => List.prefix_of_prefix_length_le h (List.prefix_append ..) long,
      fun h => h.trans (List.prefix_append ..)⟩
  rw [begins, same]
  rfl

end Log.Record

/-- A block that a line begins or ends, and the width of the block. -/
structure Mark where
  opens : Bool
  width : Nat
  location : Location
deriving DecidableEq, Repr

namespace Mark

def token (m : Mark) : Token := ⟨if m.opens then .indent else .dedent, "", m.location⟩

def start (opens : Bool) : String := if opens then "INDENT to width " else "DEDENT from width "

def record (m : Mark) : Log.Record :=
  ⟨.trace, .scanner, start m.opens ++ toString m.width ++ " at " ++ m.location.text⟩

/-- The widths of the blocks that are open behind some marks, innermost first. A mark can only end
the block that was begun last. -/
def follow? (levels : List Nat) : List Mark → Option (List Nat)
  | [] => some levels
  | ⟨true, width, _⟩ :: marks => follow? (width :: levels) marks
  | ⟨false, width, _⟩ :: marks =>
    if levels.head? = some width then follow? levels.tail marks else none

variable {m : Mark}

theorem begins_record {word : String} (short : word.toList.length ≤ (start m.opens).toList.length) :
    m.record.begins word = word.toList.isPrefixOf (start m.opens).toList := by
  rw [record, String.append_assoc, String.append_assoc, Log.Record.begins_append _ _ _ short]

theorem isMarker_record : m.record.isMarker := by
  have short (opens : Bool) : "INDENT ".toList.length ≤ (start opens).toList.length ∧
      "DEDENT ".toList.length ≤ (start opens).toList.length := by
    cases opens <;> decide +kernel
  rw [Log.Record.isMarker, begins_record (short m.opens).1, begins_record (short m.opens).2]
  cases m.opens <;> decide +kernel

theorem isError_record : m.record.isError = false := by
  have short (opens : Bool) : "lexical error ".toList.length ≤ (start opens).toList.length := by
    cases opens <;> decide +kernel
  rw [Log.Record.isError, begins_record (short m.opens)]
  cases m.opens <;> decide +kernel

end Mark

namespace LexError

/-- What is logged where the error is reported. -/
def record (e : LexError) : Log.Record :=
  ⟨.trace, .scanner, "lexical error at " ++ e.location.text ++ ": " ++ e.fault.describe⟩

variable {e : LexError}

theorem begins_record {word : String}
    (short : word.toList.length ≤ "lexical error at ".toList.length) :
    e.record.begins word = word.toList.isPrefixOf "lexical error at ".toList := by
  rw [record, String.append_assoc, String.append_assoc, Log.Record.begins_append _ _ _ short]

theorem isMarker_record : e.record.isMarker = false := by
  rw [Log.Record.isMarker, begins_record (by decide +kernel), begins_record (by decide +kernel)]
  decide +kernel

theorem isError_record : e.record.isError := by
  rw [Log.Record.isError, begins_record (by decide +kernel)]
  decide +kernel

end LexError

namespace Event

/-- The block that the event begins or ends at the beginning of a line. -/
def mark? : Event → Option Mark
  | layout (.opened width) loc => some ⟨true, width, loc⟩
  | layout (.closed width) loc => some ⟨false, width, loc⟩
  | _ => none

/-- What an event leaves in the log: its mark, or its errors. -/
theorem records_eq (e : Event) :
    e.records = e.mark?.toList.map Mark.record ++ e.errors.map LexError.record := by
  cases e with
  | piece p loc => rfl
  | ended depth loc => rfl
  | layout change loc => cases change <;> rfl

theorem filter_isMarker_records (e : Event) :
    e.records.filter Log.Record.isMarker = e.mark?.toList.map Mark.record := by
  have marks : (e.mark?.toList.map Mark.record).filter Log.Record.isMarker =
      e.mark?.toList.map Mark.record :=
    List.filter_eq_self.2 (by simp [Mark.isMarker_record])
  have errors : (e.errors.map LexError.record).filter Log.Record.isMarker = [] :=
    List.filter_eq_nil_iff.2 (by simp [LexError.isMarker_record])
  rw [records_eq, List.filter_append, marks, errors, List.append_nil]

theorem filter_isError_records (e : Event) :
    e.records.filter Log.Record.isError = e.errors.map LexError.record := by
  have marks : (e.mark?.toList.map Mark.record).filter Log.Record.isError = [] :=
    List.filter_eq_nil_iff.2 (by simp [Mark.isError_record])
  have errors : (e.errors.map LexError.record).filter Log.Record.isError =
      e.errors.map LexError.record :=
    List.filter_eq_self.2 (by simp [LexError.isError_record])
  rw [records_eq, List.filter_append, marks, errors, List.nil_append]

end Event

namespace Scan

variable {last : Location} {levels : List Nat} {events : List Event}

/-- Records of one sort are those that the events leave, if the count at the end is none of them. -/
theorem filter_log {sort : Log.Record → Bool} {f : Event → List Log.Record}
    (events : ∀ e : Event, e.records.filter sort = f e)
    (count : ∀ message, sort ⟨.debug, .scanner, message⟩ = false) (scan : Scan) :
    scan.log.filter sort = scan.events.flatMap f := by
  rw [log, List.filter_append, List.filter_singleton, count, List.filter_flatMap, funext events]
  exact List.append_nil _

theorem filter_isMarker_log (scan : Scan) :
    scan.log.filter Log.Record.isMarker = (scan.events.filterMap Event.mark?).map Mark.record := by
  rw [filter_log Event.filter_isMarker_records fun _ => rfl, List.filterMap_eq_flatMap_toList,
    List.map_flatMap]

theorem filter_isError_log (scan : Scan) :
    scan.log.filter Log.Record.isError = scan.errors.map LexError.record := by
  rw [filter_log Event.filter_isError_records fun _ => rfl, Scan.errors, List.map_flatMap]

theorem filter_isUnterminatedBlock {e : Event} (inner : ∀ depth loc, e ≠ .ended depth loc) :
    e.errors.filter (·.fault.isUnterminatedBlock) = [] :=
  List.filter_eq_nil_iff.2 fun _ h => by simp [Event.isUnterminatedBlock_of_mem_errors inner h]

/-- The markers of lines follow the stack of open widths, and the end of the input closes what they
leave open. -/
theorem Nested.marks (h : Nested last levels events) (keep : Bool) :
    ∃ opened, Mark.follow? levels (events.filterMap Event.mark?) = some opened ∧
      markers keep events = (events.filterMap Event.mark?).map Mark.token ++
        List.replicate opened.length ⟨.dedent, "", last⟩ ∧
      (events.flatMap Event.errors).filter (·.fault.isUnterminatedBlock) =
        if opened = [] then [] else [⟨.unterminatedBlock opened.length, last⟩] := by
  induction h with
  | @piece levels p rest loc events stands _ ih =>
      obtain ⟨opened, follows, tokens, errors⟩ := ih
      refine ⟨opened, follows, ?_, ?_⟩
      · rw [← List.singleton_append, markers_append, markers_piece stands]
        exact tokens
      · rw [List.flatMap_cons, List.filter_append, filter_isUnterminatedBlock (by simp)]
        exact errors
  | opened _ ih =>
      obtain ⟨opened, follows, tokens, errors⟩ := ih
      exact ⟨opened, follows, congrArg (_ :: ·) tokens, errors⟩
  | closed _ ih =>
      obtain ⟨opened, follows, tokens, errors⟩ := ih
      exact ⟨opened, (if_pos rfl).trans follows, congrArg (_ :: ·) tokens, errors⟩
  | misaligned _ ih =>
      obtain ⟨opened, follows, tokens, errors⟩ := ih
      exact ⟨opened, follows, tokens, errors⟩
  | @ended levels =>
      -- the markers here close all that is open and are marks of no line
      refine ⟨levels, rfl, ?_, ?_⟩
      · simp [markers, Event.tokens, Token.isMarker, Event.mark?]
      · cases levels <;> rfl

/-- The log of a scan lists the block markers that lines make, in order and at their places, each
end of a block with the width that the block was begun with; and it lists all errors. The only
markers that it does not list are those at the end of the input, one for each block that is reported
to be unterminated there. -/
theorem log_lists (source : String) (o : ScanOptions) :
    let scan := ofString source o
    scan.log.filter Log.Record.isError = scan.errors.map LexError.record ∧
    ∃ (marks : List Mark) (opened : List Nat), Mark.follow? [] marks = some opened ∧
      scan.log.filter Log.Record.isMarker = marks.map Mark.record ∧
      scan.tokens.filter Token.isMarker = marks.map Mark.token ++
        List.replicate opened.length ⟨.dedent, "", Location.start.advance source.toList⟩ ∧
      scan.errors.filter (·.fault.isUnterminatedBlock) =
        if opened = [] then []
        else [⟨.unterminatedBlock opened.length, Location.start.advance source.toList⟩] := by
  intro scan
  obtain ⟨opened, follows, tokens, errors⟩ :=
    (nested_ofChars o .start source.toList).marks o.keepComments
  exact ⟨filter_isError_log scan, scan.events.filterMap Event.mark?, opened, follows,
    filter_isMarker_log scan, tokens, errors⟩

/-- The end of the input closes a block: there are two markers, and a record of the first one
only. -/
theorem log_misses_dedent :
    let scan := ofString "mientras (a)\n    a = 1" {}
    scan.tokens.filter Token.isMarker = [⟨.indent, "", ⟨2, 5⟩⟩, ⟨.dedent, "", ⟨2, 10⟩⟩] ∧
      scan.log.filter Log.Record.isMarker =
        [⟨.trace, .scanner, "INDENT to width 4 at line 2, column 5"⟩] := by
  decide +kernel

end Scan

end PasoFrontEnd
