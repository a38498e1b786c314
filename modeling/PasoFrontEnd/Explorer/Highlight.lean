import PasoFrontEnd.Explorer.Theme
import PasoFrontEnd.Text.CharClass
import PasoFrontEnd.Token.Kind

/-!
Colours for a line of source text. A line is coloured without regard to the lines around it, and a
line with errors like any other: a comment runs to its end, an open string literal too, and words
are looked up one by one.
-/

namespace PasoFrontEnd.Explorer.Highlight

open Screen Theme

/-- Words shown as keywords. Those of the keywords of several words count one by one. -/
def keywords : List String :=
  ["si", "no", "de", "lo", "contrario", "haz", "mientras", "durante", "muestra", "devuelve", "Y",
    "O"]

def typeNames : List String := ValueType.all.map ValueType.name

def constants : List String :=
  [Keyword.verdadero, Keyword.falso, Keyword.nulo].map Keyword.spelling

def isNumber (word : List Char) : Bool :=
  !word.isEmpty && word.all fun c => c.isDigit || c = '.'

def wordStyle (word : String) : Style :=
  if typeNames.contains word then ink teal
  else if keywords.contains word then boldInk blue
  else if constants.contains word || isNumber word.toList then ink orange
  else ink text

def markStyle (c : Char) : Style :=
  if ['(', ')'].contains c then ink blue
  else if ['+', '-', '*', '/', '=', '!', '<', '>', ',', '.'].contains c then ink text
  else {}

def word (cs : List Char) : Line :=
  if cs.isEmpty then [] else [⟨String.ofList cs, wordStyle (String.ofList cs)⟩]

/-- Whether the character ends a word. A point does not end a number. -/
def endsWord (before : List Char) (c : Char) : Bool :=
  !Text.isLetterOrNumeral c && !(c = '.' && isNumber before)

/-- A string literal behind its opening quote, up to its second quote or the end of the line; and
what stands behind it. -/
def quoted : List Char → List Char × List Char
  | [] => ([], [])
  | c :: cs => if c = '"' then (['"'], cs) else (c :: (quoted cs).1, (quoted cs).2)

theorem append_quoted (cs : List Char) : (quoted cs).1 ++ (quoted cs).2 = cs := by
  fun_induction quoted cs with
  | case1 => rfl
  | case2 => rfl
  | case3 c cs _ ih => exact congrArg (c :: ·) ih

theorem length_quoted_le (cs : List Char) : (quoted cs).2.length ≤ cs.length := by
  have whole := congrArg List.length (append_quoted cs)
  rw [List.length_append] at whole
  omega

/-- The spans of a line, of which a word has been read up to here. -/
def spansFrom (before : List Char) : List Char → Line
  | [] => word before
  | c :: cs =>
    if c = '~' then word before ++ [⟨String.ofList (c :: cs), ink grey⟩]
    else if c = '"' then
      word before ++ ⟨String.ofList (c :: (quoted cs).1), ink orange⟩ ::
        spansFrom [] (quoted cs).2
    else if endsWord before c then word before ++ ⟨c.toString, markStyle c⟩ :: spansFrom [] cs
    else spansFrom (before ++ [c]) cs
termination_by cs => cs.length
decreasing_by
  · exact Nat.lt_succ_of_le (length_quoted_le cs)
  · exact Nat.lt_succ_self _
  · exact Nat.lt_succ_self _

def spans (line : String) : Line := spansFrom [] line.toList

end PasoFrontEnd.Explorer.Highlight
