import HijriRecurrence.Error
import HijriRecurrence.Text.Case
import HijriRecurrence.Text.Digit

/-!
# Reading and writing weekdays

A weekday token is a two-letter code after an optional ordinal of one or two digits with an optional
sign, such as FR, 1FR or -1FR.  Case and blanks around it do not matter.  Callers may also give a
weekday by its number from 0 to 6, or a weekday that they have made themselves; the number of such a
one is not looked at until it is written.
-/

namespace HijriRecurrence.Weekday

open Text

def dayOfCode? (code : List Char) : Option (Fin 7) :=
  (List.finRange 7).find? fun day => (weekdayCodes.getD day.val "").toList = code

/-- One or two digits after an optional sign. -/
def readOrdinal? (text : List Char) : Option Int :=
  let digits? (digits : List Char) : Option Nat :=
    if digits.length = 1 ∨ digits.length = 2 then allDigits? digits else none
  match text with
  | '-' :: digits => (digits? digits).map fun n => -(n : Int)
  | '+' :: digits => (digits? digits).map Int.ofNat
  | digits => (digits? digits).map Int.ofNat

/-- Ordinal and day of a token in capitals. -/
def tokenParts? (text : List Char) : Option (Option Int × Fin 7) := do
  if text.length < 2 then none
  let day ← dayOfCode? (text.drop (text.length - 2))
  match text.take (text.length - 2) with
  | [] => return (none, day)
  | ordinal => return (some (← readOrdinal? ordinal), day)

/-- The weekday of a token; the value that gave it is shown when it is refused. -/
def ofToken (given : Value) (text : List Char) : Except Error Weekday :=
  match tokenParts? (upper (trim text)) with
  | none => .error (.badWeekdayText given)
  | some (some 0, _) => .error (.zeroOrdinal (String.ofList text))
  | some (ordinal, day) => .ok ⟨day.val, ordinal⟩

def ofText (text : String) : Except Error Weekday := ofToken (.str text) text.toList

/-- The weekday of a number from 0 to 6. -/
def ofNumber? (n : Int) : Option Weekday := if 0 ≤ n ∧ n ≤ 6 then some ⟨n, none⟩ else none

/-- The weekday that a value stands for: itself, a token, or a number. -/
def ofValue (value : Value) : Except Error Weekday :=
  match value with
  | .weekday w => .ok w
  | .str s => ofToken value s.toList
  | .skip s => ofToken value s.name.toList
  | .int n =>
    match ofNumber? n with
    | some w => .ok w
    | none => .error (.badWeekday value)
  | _ => .error (.badWeekday value)

/-- A text that is made of the codes or names of weekdays, if all of these have one. -/
def written {α : Type} (numbers : List Int) (text : α) : Except Error α :=
  match numbers.find? fun n => !hasWeekdayName n with
  | some n => .error (.noWeekday n)
  | none => .ok text

def token (w : Weekday) : Except Error String := written [w.number] (String.ofList w.tokenChars)

def describe (w : Weekday) (locale : Locale) : Except Error String :=
  written [w.number] (w.words locale)

end HijriRecurrence.Weekday
