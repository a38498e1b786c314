/-!
Decimal numbers, and the binary number of double precision that is nearest to one.
-/

namespace PasoFrontEnd

/-- The number `digits * 10 ^ exponent`. -/
structure Decimal where
  digits : Nat
  exponent : Int
deriving DecidableEq, Repr

namespace Decimal

/-- The number that a row of digits writes. -/
def ofDigits (ds : List Char) : Nat :=
  ds.foldl (fun n d => 10 * n + (d.toNat - '0'.toNat)) 0

/-- A number times a power of a base; a negative exponent counts as 0. -/
def scale (base n : Nat) (exponent : Int) : Nat := n * Nat.pow base exponent.toNat

def digitChars (n : Nat) : List Char := Nat.toDigits 10 n

/-- The double nearest to the number, with ties to the even one. Numbers from `10 ^ 310` on are
beyond all finite doubles, and numbers below `10 ^ -330` are nearer to zero than to any other. -/
def toFloat (d : Decimal) : Float :=
  let magnitude := (digitChars d.digits).length + d.exponent
  if d.digits = 0 ∨ magnitude < -330 then 0
  else if 310 < magnitude then 1 / 0
  else Float.ofScientific d.digits (d.exponent < 0) d.exponent.natAbs

/-- The same number with no zero at the end of its digits. -/
def strip (d : Decimal) : Decimal :=
  if d.digits = 0 ∨ d.digits % 10 ≠ 0 then d
  else strip ⟨d.digits / 10, d.exponent + 1⟩
termination_by d.digits
decreasing_by simp_all; omega

end Decimal

end PasoFrontEnd
