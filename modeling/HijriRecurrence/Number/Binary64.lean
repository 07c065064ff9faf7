/-!
# Rational numbers rounded to 53 bits

A day index is a rational number kept to 53 significant bits.  `round53` is the one rounding rule:
the nearest number `m * 2 ^ e` with `m` of at most 53 bits, a tie going to the even `m`.  Exponents
are bounded below as in the 64-bit format, so that tiny numbers are kept to a fixed unit; the
largest finite number is checked where an integer of any size enters (`ofInt?`).

`bits` is the word that stores a rounded number.  The power of two beyond the finite range stands
for infinity (`saturate`), and its word is that of infinity.
-/

namespace HijriRecurrence.Binary64

def pow2 (e : Int) : Rat :=
  if 0 ≤ e then (Nat.pow 2 e.toNat : Rat) else 1 / (Nat.pow 2 (-e).toNat : Rat)

/-- The nearest integer, a tie going to the even one. -/
def nearest (q : Rat) : Int :=
  let low := q.floor
  let rest := q - low
  if rest < 1 / 2 then low
  else if 1 / 2 < rest then low + 1
  else if low % 2 = 0 then low else low + 1

/-- The exponent `e` with `2 ^ e ≤ q < 2 ^ (e + 1)`, for positive `q`. -/
def log2Floor (q : Rat) : Int :=
  let e : Int := (q.num.natAbs.log2 : Int) - (q.den.log2 : Int)
  if pow2 e ≤ q then e else e - 1

/-- Exponent of the unit in the last of 53 places of a positive number. -/
def unitExponent (q : Rat) : Int := max (log2Floor q - 52) (-1074)

/-- The nearest number of 53 significant bits to a non-negative number. -/
def roundMagnitude (q : Rat) : Rat :=
  if q = 0 then 0
  else
    let unit := pow2 (unitExponent q)
    nearest (q / unit) * unit

/-- The nearest number of 53 significant bits, a tie going to the even significand. -/
def round53 (q : Rat) : Rat := if q < 0 then -roundMagnitude (-q) else roundMagnitude q

/-- The least power of two beyond the finite range. -/
def overflow : Rat := pow2 1024

/-- A number rounded to 53 bits; beyond the finite range it counts as the power of two there. -/
def saturate (q : Rat) : Rat :=
  let r := round53 q
  if overflow ≤ r then overflow else if r ≤ -overflow then -overflow else r

/-- An integer rounded to 53 bits, when that is within the finite range. -/
def ofInt? (n : Int) : Option Rat :=
  let q := round53 n
  if q < overflow ∧ -overflow < q then some q else none

/-- The 64-bit word of a number that is its own rounding. -/
def bits (q : Rat) : Nat :=
  if q = 0 then 0
  else
    let magnitude := if q < 0 then -q else q
    let e := unitExponent magnitude
    let significand := (nearest (magnitude / pow2 e)).toNat
    let field := if significand < Nat.pow 2 52 then significand
      else (e + 1075).toNat * Nat.pow 2 52 + (significand - Nat.pow 2 52)
    if q < 0 then Nat.pow 2 63 + field else field

end HijriRecurrence.Binary64
