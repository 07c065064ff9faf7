import HijriRecurrence.Text.Blank
import HijriRecurrence.Text.Digit
import HijriRecurrence.Value

/-!
# Numbers in decimal notation

A number without a point and an exponent is an integer of any size.  Any other is rounded to 53
bits; one beyond the finite range is infinite, and a zero keeps its minus sign.
-/

namespace HijriRecurrence.Decimal

open Binary64 Text

/-- Greatest exponent that matters: beyond it every number is infinite or zero. -/
def exponentLimit : Int := 100000

/-- The integer that digits write; without digits it is 0. -/
def integer (text : List Char) : Int := (readInt? (some .usual) text).getD 0

def rounded (text : List Char) : Rat :=
  let (mantissa, exponent) := cutAt 'e' (text.map Char.toLower)
  let (whole, places) := cutAt '.' mantissa
  let places := places.getD []
  let exponent := max (-exponentLimit) (min exponentLimit (integer (exponent.getD [])))
  saturate (integer (whole ++ places) * Shortest.pow10 (exponent - places.length))

def read (text : List Char) : Value :=
  if text.all fun c => c.isDigit || c = '-' then .int (integer text)
  else if rounded text = 0 ∧ text.head? = some '-' then .minusZero
  else .float (rounded text)

end HijriRecurrence.Decimal
