import HijriRecurrence.Number.Binary64
import HijriRecurrence.Text.Integer

/-!
# The shortest decimal form of a rounded number

A rounded number is shown with the fewest decimal digits that round back to it, and of those with
the nearest.  For each number of digits the two neighbours on that decimal grid are tried.

Positional notation serves magnitudes from a ten-thousandth up to ten to the sixteenth, and keeps
one decimal place at least; other numbers are written with an exponent of two digits or more.
-/

namespace HijriRecurrence.Shortest

open Binary64 Text

def pow10 (e : Int) : Rat :=
  if 0 ≤ e then (Nat.pow 10 e.toNat : Rat) else 1 / (Nat.pow 10 (-e).toNat : Rat)

/-- The exponent `e` with `10 ^ e ≤ q < 10 ^ (e + 1)`, searched for upwards from a lower bound. -/
def log10From (q : Rat) (e : Int) : Nat → Int
  | 0 => e
  | steps + 1 => if q < pow10 (e + 1) then e else log10From q (e + 1) steps

/-- The exponent `e` with `10 ^ e ≤ q < 10 ^ (e + 1)`, for a positive number of the finite
range. -/
def log10Floor (q : Rat) : Int :=
  let estimate := log2Floor q * 30103 / 100000
  log10From q (estimate - 2) 5

/-- The nearest point of a decimal grid that rounds to the number, if one does; of two that are
equally near, the one with an even digit is tried first. -/
def onGrid? (q : Rat) (exponent : Int) : Option Nat :=
  let unit := pow10 exponent
  let low := (q / unit).floor
  let fits (n : Int) : Bool := round53 (n * unit) == q
  let first := nearest (q / unit)
  let second := if first = low then low + 1 else low
  if fits first then some first.toNat
  else if fits second then some second.toNat
  else none

/-- The fewest digits that round back, with the decimal exponent of the last one.  `count` is the
number of digits tried first and `tries` how many more may be tried. -/
def digitsFrom (q : Rat) (magnitude : Int) (count : Nat) : Nat → Nat × Int
  | 0 => ((q / pow10 (magnitude - 16)).floor.toNat, magnitude - 16)
  | tries + 1 =>
    let exponent := magnitude + 1 - count
    match onGrid? q exponent with
    | some n => (n, exponent)
    | none => digitsFrom q magnitude (count + 1) tries

/-- Drops trailing zeros of a digit string, moving the exponent along. -/
def dropZeros (n : Nat) (e : Int) : Nat → Nat × Int
  | 0 => (n, e)
  | steps + 1 => if n ≠ 0 ∧ n % 10 = 0 then dropZeros (n / 10) (e + 1) steps else (n, e)

/-- Writes digits with a point, the value being `digits * 10 ^ e`. -/
def positional (digits : List Char) (e : Int) : List Char :=
  let point : Int := digits.length + e
  if 0 ≤ e then digits ++ List.replicate e.toNat '0' ++ ['.', '0']
  else if 0 < point then digits.take point.toNat ++ '.' :: digits.drop point.toNat
  else '0' :: '.' :: List.replicate (-point).toNat '0' ++ digits

/-- Writes digits with an exponent, the value being `digits * 10 ^ e`. -/
def scientific (digits : List Char) (e : Int) : List Char :=
  let exponent : Int := digits.length + e - 1
  let mantissa := match digits with
    | [] => []
    | [d] => [d]
    | d :: rest => d :: '.' :: rest
  let sign := if exponent < 0 then '-' else '+'
  mantissa ++ 'e' :: sign :: padded 2 exponent.natAbs

/-- The shortest decimal form of a positive number; infinity has a name. -/
def positive (q : Rat) : List Char :=
  if overflow ≤ q then ['i', 'n', 'f'] else
  let (n, e) := digitsFrom q (log10Floor q) 1 17
  let (n, e) := dropZeros n e 17
  let digits := natural n
  let point : Int := digits.length + e
  if -4 < point ∧ point ≤ 16 then positional digits e else scientific digits e

def decimal (q : Rat) : String :=
  String.ofList
    (if q = 0 then ['0', '.', '0'] else if q < 0 then '-' :: positive (-q) else positive q)

end HijriRecurrence.Shortest
