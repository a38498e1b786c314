import PasoFrontEnd.Decimal.Basic

/-!
The shortest decimal of a double: of the decimals that round to it, one with the fewest digits, and
of these the nearest. All comparisons are exact, between products of naturals.
-/

namespace PasoFrontEnd

/-- A positive finite double, `mantissa * 2 ^ exponent`. -/
structure Binary where
  mantissa : Nat
  exponent : Int
  /-- Whether the next smaller double is half as far away as the next greater one. -/
  narrowBelow : Bool
deriving DecidableEq, Repr

namespace Binary

open Decimal (scale)

/-- The double with these bits; the sign is not looked at. -/
def ofBits (bits : UInt64) : Binary :=
  let unit : Nat := 0x10000000000000
  let biased : Nat := bits.toNat / unit % 0x800
  let fraction : Nat := bits.toNat % unit
  if biased = 0 then ⟨fraction, -1074, false⟩
  else ⟨unit + fraction, biased - 1075, fraction = 0 && 1 < biased⟩

/-- How `d` compares with `n * 2 ^ k`. -/
def compareScaled (d : Decimal) (n : Nat) (k : Int) : Ordering :=
  compare (scale 2 (scale 10 d.digits d.exponent) (-k)) (scale 10 (scale 2 n k) (-d.exponent))

/-- Whether a decimal rounds to the double. It does between the midpoints to the two neighbours; at
a midpoint itself, it does if the mantissa is even. -/
def rounds (x : Binary) (d : Decimal) : Bool :=
  let low := compareScaled d (4 * x.mantissa - if x.narrowBelow then 1 else 2) (x.exponent - 2)
  let high := compareScaled d (4 * x.mantissa + 2) (x.exponent - 2)
  let closed := x.mantissa % 2 = 0
  (low = .gt || low = .eq && closed) && (high = .lt || high = .eq && closed)

/-- Numerator and denominator of the double in units of `10 ^ k`. -/
def inUnits (x : Binary) (k : Int) : Nat × Nat :=
  (scale 10 (scale 2 x.mantissa x.exponent) (-k), scale 10 (scale 2 1 (-x.exponent)) k)

/-- Of the multiples of `10 ^ k` next to the double, the nearer one that rounds to it; the greater
one if both are equally near. -/
def nearest? (x : Binary) (k : Int) : Option Decimal :=
  let (num, den) := x.inUnits k
  let below : Decimal := ⟨num / den, k⟩
  let above : Decimal := ⟨num / den + 1, k⟩
  if x.rounds below && (!x.rounds above || 2 * num < (2 * below.digits + 1) * den) then some below
  else if x.rounds above then some above
  else none

/-- The exponent of the leading decimal digit: the greatest `k` with `10 ^ k` at most the double. It
is looked for from a lower bound by the binary exponent on. -/
def leading (x : Binary) : Int :=
  let bound := ((x.mantissa.log2 + x.exponent) * 30103).fdiv 100000 - 1
  let reaches (k : Int) : Bool :=
    let (num, den) := x.inUnits k
    den ≤ num
  if reaches (bound + 2) then bound + 2 else if reaches (bound + 1) then bound + 1 else bound

/-- The double as a decimal, without rounding. -/
def exact (x : Binary) : Decimal :=
  if 0 ≤ x.exponent then ⟨scale 2 x.mantissa x.exponent, 0⟩
  else ⟨scale 5 x.mantissa (-x.exponent), x.exponent⟩

/-- The shortest decimal that rounds to the double. Seventeen digits are always enough. -/
def shortest (x : Binary) : Decimal :=
  let found := (List.range 17).findSome? fun n : Nat => x.nearest? (x.leading - n)
  (found.getD x.exact).strip

end Binary

end PasoFrontEnd
