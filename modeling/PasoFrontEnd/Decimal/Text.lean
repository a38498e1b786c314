import PasoFrontEnd.Decimal.Shortest
import PasoFrontEnd.Word

/-!
Doubles and integers as text. Doubles are written with the digits of their shortest decimal; they
are read with an optional sign, point and exponent, or as a word for infinity or for no number.
-/

namespace PasoFrontEnd.Decimal

/-- Writes a decimal other than zero: positionally if its leading digit has an exponent from -4 to
15, and always with a digit behind the point; otherwise with an exponent. -/
def layOut (d : Decimal) : List Char :=
  let ds := digitChars d.digits
  let point : Int := ds.length + d.exponent
  if -4 < point ∧ point ≤ 16 then
    if point ≤ 0 then '0' :: '.' :: List.replicate (-point).toNat '0' ++ ds
    else if point < ds.length then ds.take point.toNat ++ '.' :: ds.drop point.toNat
    else ds ++ List.replicate d.exponent.toNat '0' ++ ['.', '0']
  else
    let exponent := (toString (point - 1)).toList
    match ds with
    | [d] => d :: 'e' :: exponent
    | d :: ds => d :: '.' :: ds ++ 'e' :: exponent
    | [] => []

def floatText (x : Float) : String :=
  let magnitude := x.toBits % 0x8000000000000000
  if x.isNaN then "NaN"
  else
    (if x.toBits = magnitude then "" else "-") ++
      (if magnitude = 0 then "0.0"
      else if magnitude = 0x7FF0000000000000 then "inf"
      else String.ofList (Binary.ofBits magnitude).shortest.layOut)

/-- Splits an optional sign from a text: whether it is a minus, and what follows. -/
def readSign : List Char → Bool × List Char
  | '-' :: cs => (true, cs)
  | '+' :: cs => (false, cs)
  | cs => (false, cs)

/-- An integer that a text of digits with an optional sign writes. -/
def readInteger? (cs : List Char) : Option Int :=
  let (negative, ds) := readSign cs
  if ds ≠ [] ∧ ds.all Char.isDigit then
    some (if negative then -(ofDigits ds : Int) else ofDigits ds)
  else none

/-- The exponent of a numeral: nothing, or a letter E and an integer. -/
def readExponent? : List Char → Option Int
  | [] => some 0
  | c :: cs => if c = 'e' ∨ c = 'E' then readInteger? cs else none

/-- A decimal without sign: digits with a point before, among or behind them, and an exponent. -/
def readUnsigned? (cs : List Char) : Option Decimal :=
  let whole := cs.takeWhile Char.isDigit
  let rest := cs.dropWhile Char.isDigit
  let (places, rest) :=
    match rest with
    | '.' :: rest => (rest.takeWhile Char.isDigit, rest.dropWhile Char.isDigit)
    | rest => ([], rest)
  if whole ++ places = [] then none
  else (readExponent? rest).map fun e => ⟨ofDigits (whole ++ places), e - places.length⟩

/-- The double that a text writes. -/
def readFloat? (s : String) : Option Float :=
  let (negative, cs) := readSign s.toList
  let magnitude? :=
    match readUnsigned? cs with
    | some d => some d.toFloat
    | none =>
      let word := String.ofList (cs.map Char.toLower)
      if word = "inf" ∨ word = "infinity" then some (1 / 0)
      else if word = "nan" then some (0 / 0)
      else none
  magnitude?.map fun x => if negative then -x else x

/-- The word that a text writes; a word has no minus. -/
def readWord? (s : String) : Option Nat :=
  match s.toList with
  | '-' :: _ => none
  | cs =>
    match readInteger? cs with
    | some n => if n.toNat ≤ Word.last then some n.toNat else none
    | none => none

/-- The integer of 64 bits that a text writes. -/
def readInt64? (s : String) : Option Int64 :=
  match readInteger? s.toList with
  | some n =>
    if Int64.minValue.toInt ≤ n ∧ n ≤ Int64.maxValue.toInt then some (Int64.ofInt n) else none
  | none => none

end PasoFrontEnd.Decimal
