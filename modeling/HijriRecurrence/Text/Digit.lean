import HijriRecurrence.Text.Blank

/-!
# Decimal digits and the reading of integers

Every script that has its own ten digits writes them at ten consecutive code points, zero first.
`digitZeros` lists the zeros of all of them, so a digit's value is its distance from the zero
before it (`digit?`).  A number may mix scripts.

`readInt?` reads an integer the lenient way a rule's text allows: margins around it, one sign,
leading zeros, and single underscores between two digits.  A margin is any blank but the four
information separators.  How many digits a number may have can be limited (`DigitLimit`).
-/

namespace HijriRecurrence.Text

/-- Code points of the digit zero, one for each script with decimal digits of its own. -/
def digitZeros : List Nat := [
  48, 1632, 1776, 1984, 2406, 2534, 2662, 2790, 2918, 3046, 3174, 3302, 3430, 3558, 3664, 3792,
  3872, 4160, 4240, 6112, 6160, 6470, 6608, 6784, 6800, 6992, 7088, 7232, 7248, 42528, 43216,
  43264, 43472, 43504, 43600, 44016, 65296, 66720, 68912, 69734, 69872, 69942, 70096, 70384,
  70736, 70864, 71248, 71360, 71472, 71904, 72016, 72784, 73040, 73120, 92768, 92864, 93008,
  120782, 120792, 120802, 120812, 120822, 123200, 123632, 125264, 130032
]

/-- The value of a decimal digit of any script. -/
def digit? (c : Char) : Option Nat :=
  if 48 ≤ c.toNat ∧ c.toNat ≤ 57 then some (c.toNat - 48)
  else if c.toNat < 128 then none
  else (digitZeros.find? fun start => start ≤ c.toNat && c.toNat < start + 10).map (c.toNat - ·)

/-- Whether a character is a decimal digit of any script. -/
def isDigit (c : Char) : Bool := (digit? c).isSome

/-- The number that a list of digit values writes, most significant first. -/
def ofDigits (digits : List Nat) : Nat := digits.foldl (fun n d => 10 * n + d) 0

/-- Values of the digits of a text of digits and single underscores.  `afterDigit` says that the
character just read was a digit, which an underscore and the end of the text both need. -/
def digitsFrom? (afterDigit : Bool) : List Char → Option (List Nat)
  | [] => if afterDigit then some [] else none
  | c :: rest =>
    if c = '_' then if afterDigit then digitsFrom? false rest else none
    else do
      let d ← digit? c
      let ds ← digitsFrom? true rest
      return d :: ds

/-- The greatest number of digits that a number may have to be read.  No such limit is below 640
digits. -/
structure DigitLimit where
  digits : Nat
  enough : 640 ≤ digits

/-- The limit that holds where no other is set. -/
def DigitLimit.usual : DigitLimit := ⟨4300, by decide⟩

/-- Whether so many digits are within a limit, if there is one. -/
def hasRoom (limit : Option DigitLimit) (count : Nat) : Bool :=
  match limit with
  | some limit => decide (count ≤ limit.digits)
  | none => true

/-- Reads a natural number: digits, with single underscores allowed between them. -/
def readNat? (limit : Option DigitLimit) (text : List Char) : Option Nat := do
  let digits ← digitsFrom? false text
  if hasRoom limit digits.length then some (ofDigits digits) else none

/-- Whether a character may stand around a number: a blank that is no information separator. -/
def isMargin (c : Char) : Bool := isBlank c && !(28 ≤ c.toNat && c.toNat ≤ 31)

def trimMargin (text : List Char) : List Char :=
  ((text.dropWhile isMargin).reverse.dropWhile isMargin).reverse

/-- Reads an integer: margins around it and one sign before the digits are allowed. -/
def readInt? (limit : Option DigitLimit) (text : List Char) : Option Int :=
  match trimMargin text with
  | '-' :: digits => (readNat? limit digits).map fun n => -(n : Int)
  | '+' :: digits => (readNat? limit digits).map Int.ofNat
  | digits => (readNat? limit digits).map Int.ofNat

/-- Reads exactly the digits of a text, which must hold nothing else. -/
def allDigits? (text : List Char) : Option Nat := (text.mapM digit?).map ofDigits

end HijriRecurrence.Text
