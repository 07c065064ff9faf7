import HijriRecurrence.Lunar.DayIndex

/-!
# Day numbers of any quantities

The rules that number days are sums and quotients rounded down, so they also number a day that is
given by fractions, and the number is then a fraction too (`dayNumberOfQuantities`).  The way back
is stricter: a fraction names no civil date, but it is told when it would lie before the first one.
-/

namespace HijriRecurrence

/-- Day number of a year, a month and a day that may be fractions. -/
def dayNumberOfQuantities (year month day : Quantity) : Except Error Quantity := do
  let left ← (Quantity.whole 14).minus month
  let a ← left.quotient 12
  let y ← year.plus (.whole 4800)
  let y ← y.minus a
  let later ← a.times 12
  let m ← month.plus later
  let m ← m.minus (.whole 3)
  let monthDays ← m.times 153
  let monthDays ← monthDays.plus (.whole 2)
  let monthDays ← monthDays.quotient 5
  let n ← day.plus monthDays
  let n ← n.plus (← y.times 365)
  let n ← n.plus (← y.quotient 4)
  let n ← n.minus (← y.quotient 100)
  let n ← n.plus (← y.quotient 400)
  n.minus (.whole 32045)

/-- The civil year of a day number that may be a fraction. -/
def civilYearOf (n : Rat) : Int :=
  let a := n + 32044
  let b := ((4 * a + 3) / 146097).floor
  let c := a - ((146097 * b / 4 : Int) : Rat)
  let d := ((4 * c + 3) / 1461).floor
  let e := c - ((1461 * d / 4 : Int) : Rat)
  let m := ((5 * e + 2) / 153).floor
  100 * b + d - 4800 + m / 10

def civilOfGiven (n : Value) : Except Error CivilDate :=
  match n.countable? with
  | some k =>
    (civilOfDayNumber k).mapError fun
      | .civilBeforeYearOne _ => .civilBeforeYearOne n
      | e => e
  | none => do
    let q ← (Quantity.ofValue n).amount
    if civilYearOf q < 1 then throw (.civilBeforeYearOne n) else throw .notNumber

/-- The date of the civil calendar that has the numbers of a value: a civil date has its own, and a
lunar date is taken by its numbers. -/
def civilNumbers (value : Value) : Except Error CivilDate :=
  match value with
  | .civil g => .ok g
  | .civilTime g => .ok g.toCivilDate
  | .lunar d => .ok ⟨d.year, d.month, d.day⟩
  | _ => .error .lacksPart

namespace DayIndex

/-- The part of a day that an hour, a minute and a second of any kind make. -/
def fractionOf (hour minute second : Quantity) : Except Error Rat := do
  let seconds ← hour.times 3600
  let seconds ← seconds.plus (← minute.times 60)
  let seconds ← seconds.plus second
  match seconds.whole? with
  | some n => fraction n
  | none =>
    let q ← seconds.amount
    if Binary64.overflow ≤ q ∨ q ≤ -Binary64.overflow then return q
    return Binary64.round53 (q / secondsPerDay)

/-- The index of a value that has the numbers of a civil date, with its time if it has one. -/
def ofCivilNumbers (value : Value) : Except Error Rat := do
  let g ← civilNumbers value
  match value with
  | .civilTime time => ofCivilTime time
  | _ => ofCivil g

end DayIndex

end HijriRecurrence
