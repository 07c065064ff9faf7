/-!
# Integers in decimal

`natural` and `integer` write a number with no leading zero, `padded` with zeros up to a width that
counts the sign, and `ordinal` with its English suffix.
-/

namespace HijriRecurrence.Text

def digitChar (d : Nat) : Char := Char.ofNat (48 + d)

/-- The decimal digits of a natural number, most significant first. -/
def natural (n : Nat) : List Char :=
  if n < 10 then [digitChar n] else natural (n / 10) ++ [digitChar (n % 10)]
termination_by n
decreasing_by omega

def integer (n : Int) : List Char :=
  if n < 0 then '-' :: natural n.natAbs else natural n.natAbs

/-- The decimal form of an integer, with zeros after the sign up to a width. -/
def padded (width : Nat) (n : Int) : List Char :=
  if n < 0 then '-' :: (natural n.natAbs).leftpad (width - 1) '0'
  else (natural n.natAbs).leftpad width '0'

def showInt (n : Int) : String := String.ofList (integer n)

def showPadded (width : Nat) (n : Int) : String := String.ofList (padded width n)

/-- The English suffix of an ordinal number: the last digit decides, except that the numbers ending
in 11, 12 and 13 take the common suffix. -/
def ordinalSuffix (n : Int) : String :=
  if 11 ≤ n.natAbs % 100 ∧ n.natAbs % 100 ≤ 13 then "th"
  else match n.natAbs % 10 with
    | 1 => "st"
    | 2 => "nd"
    | 3 => "rd"
    | _ => "th"

/-- An integer as an English ordinal, such as 1st, 22nd or 113th. -/
def ordinal (n : Int) : String := showInt n ++ ordinalSuffix n

theorem natural_of_lt {n : Nat} (h : n < 10) : natural n = [digitChar n] := by
  rw [natural, if_pos h]

theorem natural_of_ge {n : Nat} (h : 10 ≤ n) :
    natural n = natural (n / 10) ++ [digitChar (n % 10)] := by
  rw [natural, if_neg (by omega)]

theorem natural_ne_nil (n : Nat) : natural n ≠ [] := by
  rw [natural]
  split <;> simp

end HijriRecurrence.Text
