import HijriRecurrence.Calendar.Host

/-!
# The Umm al-Qura tables

The months observed from 1343 to 1500 AH.  Each row of `yearRows` is one year, Muharram first, and
each decimal digit of it one month: the month's length less 28.  The first day of the table is
1 August 1924.

`UmmAlQura.host` looks a civil date up: the year by subtracting whole years, the month within it by
subtracting whole months.
-/

namespace HijriRecurrence.UmmAlQura

open Text

def firstYear : Int := 1343

/-- The day number of 1 Muharram of the first year. -/
def firstDayNumber : Int := 2423999

/-- The years of the table, each with one digit for every month. -/
def yearRows : List Nat := [
  212212220222, 112121212121, 212131202212, 112212211221, 112212212211, 212121221130,
  212121222032, 121211212212, 212121112212, 212121212121, 212212122112, 121212212121,
  212121212212, 112121221121, 212121212122, 221211211221, 222121121121, 212121212122,
  212121212121, 212121212121, 212121212122, 212121202221, 212121212122, 212121212121,
  212121212121, 212121212122, 212121221221, 212121212121, 212112121222, 121212112122,
  121212121212, 212121221122, 212121211221, 121122212121, 211212122122, 212121212121,
  121212121212, 212121212121, 212212112121, 212212211212, 121221212121, 212121212121,
  212211212221, 221121212122, 112121212122, 122121212121, 212121212122, 212121221211,
  212121212122, 112121212122, 212111212122, 212121211221, 212212112121, 212221211212,
  121221212121, 212121221212, 121212121221, 221211212122, 121212112121, 222121211212,
  122212121121, 122122212112, 112212212121, 212121212212, 121212121212, 212121211212,
  212212121121, 212221212112, 121221221211, 211221222121, 121122122122, 112112122212,
  121211212212, 212121211212, 212122121211, 212122212121, 121212212212, 121121222212,
  112111222212, 211211122212, 212121121212, 212212112121, 212212122121, 121212212212,
  112121221221, 211211222122, 121121122122, 122112121212, 122121212112, 122212121211,
  212212212121, 121212212211, 212121212212, 121212121212, 212211212112, 212221121121,
  212221212112, 121222121211, 212122122121, 121212122121, 212121212122, 121221121212,
  122212112112, 122212211211, 212221212121, 121221221212, 112121221221, 212112121221,
  221211212121, 222121121212, 122211212121, 122212121212, 112212122121, 211212122212,
  121121122122, 212112112212, 221211211221, 221212121122, 121221212121, 212121212212,
  121121221221, 212112121222, 121211211222, 212121121212, 212212112121, 212212121212,
  112212212211, 211221212221, 121121221221, 212121121221, 212212112121, 221221211212,
  121222121121, 121222122112, 112122122211, 211212212212, 121121212212, 122112121212,
  122122121121, 212212212112, 112212221211, 211221221221, 121122121222, 112121212122,
  121212112122, 122121211212, 122212121121, 212212212112, 121212212122, 112121212212,
  211212112212, 221121121212, 221212112121, 222121211212, 122122112121, 212122121212,
  121212121221, 221121121222
]

def monthLengths (row : Nat) : List Int :=
  [11, 10, 9, 8, 7, 6, 5, 4, 3, 2, 1, 0].map fun k => 28 + (row / Nat.pow 10 k % 10 : Nat)

/-- The month lengths of every year, each with their sum. -/
def years : List (List Int × Int) :=
  yearRows.map fun row => (monthLengths row, (monthLengths row).foldr (· + ·) 0)

/-- Month and day at a number of days after the start of a run of months. -/
def locateMonth (month : Int) : List Int → Int → Option (Int × Int)
  | [], _ => none
  | length :: rest, days =>
    if days < length then some (month, days + 1) else locateMonth (month + 1) rest (days - length)

/-- The lunar day at a number of days after the start of a run of years. -/
def locateYear (year : Int) : List (List Int × Int) → Int → Option LunarDay
  | [], _ => none
  | (lengths, total) :: rest, days =>
    if days < total then (locateMonth 1 lengths days).map fun (month, day) => ⟨year, month, day⟩
    else locateYear (year + 1) rest (days - total)

/-- The lunar day of a civil date within the table. -/
def find? (g : CivilDate) : Option LunarDay :=
  let days := g.dayNumber - firstDayNumber
  if days < 0 then none else locateYear firstYear years days

def host : Host := fun g =>
  match find? g with
  | some day => .ok day
  | none => .error ("date must be in '1924-08-01'-'2077-11-16', got '" ++ g.text ++ "'")

/-- A host calendar that answers no date. -/
def hostDown : Host := fun _ => .error "host down"

end HijriRecurrence.UmmAlQura
