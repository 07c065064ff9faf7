import HijriRecurrence.Error
import HijriRecurrence.Number.Binary64

/-!
# Quantities

The length of a month, a position in a year and a number of days are whole numbers wherever the
library finds them itself.  Callers may put other values in their place, fractions among them, and
such a value is carried along as it is until it has to be compared, added or counted.

* `atMost` compares by amount, so that a fraction lies between whole numbers;
* `plus` and `minus` are exact on whole numbers and rounded to 53 bits where a fraction takes part;
* what is no number can be neither compared nor added.

On whole numbers all of this is integer arithmetic (`whole_atMost_whole`, `whole_plus_whole`).
-/

namespace HijriRecurrence

namespace Binary64

/-- A number rounded to 53 bits, when that is within the finite range. -/
def finite (q : Rat) : Except Error Rat :=
  let r := round53 q
  if r < overflow ∧ -overflow < r then .ok r else .error .numberTooLarge

end Binary64

/-- A whole number, or what a caller put in the place of one. -/
inductive Quantity where
  | whole (n : Int)
  | given (value : Value)
deriving Repr

namespace Quantity

def ofValue : Value → Quantity
  | .int n => whole n
  | v => given v

def value : Quantity → Value
  | whole n => .int n
  | given v => v

/-- The whole number that a quantity counts as, a truth value being 0 or 1. -/
def whole? : Quantity → Option Int
  | whole n => some n
  | given v => v.countable?

def amount : Quantity → Except Error Rat
  | whole n => .ok n
  | given v =>
    match v.amount? with
    | some q => .ok q
    | none => .error .notNumber

/-- The amount of a quantity rounded to 53 bits. -/
def rounded (a : Quantity) : Except Error Rat :=
  match a.whole? with
  | some n => Binary64.finite n
  | none => a.amount

/-! ### Order -/

def atMost : Quantity → Quantity → Except Error Bool
  | whole m, whole n => .ok (decide (m ≤ n))
  | a, b => do
    let p ← a.amount
    let q ← b.amount
    return decide (p ≤ q)

/-- Whether one quantity is less than another; what is no number is neither less nor greater. -/
def before (a b : Quantity) : Bool :=
  match b.atMost a with
  | .ok holds => !holds
  | .error _ => false

/-- Whether a quantity is a position within a length, the first one being 1. -/
def isWithin (position length : Quantity) : Except Error Bool := do
  if ← (whole 1).atMost position then position.atMost length else return false

def equals : Quantity → Int → Bool
  | whole m, n => m == n
  | given v, n => v.same (.int n)

/-! ### Arithmetic -/

/-- Works out a quantity from two others: exactly from whole numbers, and otherwise rounded to 53
bits. -/
def combine (exact : Int → Int → Int) (inexact : Rat → Rat → Rat) (a b : Quantity) :
    Except Error Quantity :=
  match a.whole?, b.whole? with
  | some m, some n => .ok (whole (exact m n))
  | _, _ => do
    let p ← a.rounded
    let q ← b.rounded
    return given (.float (Binary64.saturate (inexact p q)))

def plus (a b : Quantity) : Except Error Quantity := combine (· + ·) (· + ·) a b

def minus (a b : Quantity) : Except Error Quantity := combine (· - ·) (· - ·) a b

def times (a : Quantity) (factor : Int) : Except Error Quantity :=
  combine (· * ·) (· * ·) a (whole factor)

/-- The quotient of a quantity by a positive whole number, rounded down. -/
def quotient (a : Quantity) (divisor : Int) : Except Error Quantity :=
  combine (· / ·) (fun p q => ((p / q).floor : Rat)) a (whole divisor)

/-- The position that an offset from the end of a length stands for, the last one being -1. -/
def fromEnd (length : Quantity) (offset : Int) : Except Error Quantity := do
  let position ← length.plus (whole offset)
  position.plus (whole 1)

/-- The remainder of a quantity after whole weeks.  Infinity has none. -/
def inWeek : Quantity → Except Error Quantity
  | whole n => .ok (whole (n % 7))
  | given v => do
    let q ← (given v).amount
    if Binary64.overflow ≤ q ∨ q ≤ -Binary64.overflow then throw .notCivil
    return given (.float (Binary64.round53 (q - 7 * (q / 7).floor)))

/-- The number of steps that a quantity counts: only what counts as a whole number counts any. -/
def count (a : Quantity) : Except Error Int :=
  match a.whole? with
  | some n => .ok n
  | none => .error .notNumber

/-- The day of a month that a quantity names: it has to be a whole number. -/
def day : Quantity → Except Error Int
  | whole n => .ok n
  | given v => .error (.notInteger "day" v)

/-- The greatest number of days of which a seventh, rounded, lies on the same side of every whole
number as the exact one. -/
def exactWeeks : Nat := Nat.pow 2 50

/-- Number of weeks that have begun within some days. -/
def weeks : Quantity → Except Error Int
  | whole n =>
    if n.natAbs ≤ exactWeeks then .ok ((n + 6) / 7)
    else (Binary64.finite (n / 7)).map Rat.ceil
  | given v => do
    let q ← (given v).amount
    let q ← Binary64.finite q
    return (← Binary64.finite (q / 7)).ceil

/-! ### Whole numbers -/

@[simp] theorem whole_atMost_whole (m n : Int) :
    (whole m).atMost (whole n) = .ok (decide (m ≤ n)) := rfl

@[simp] theorem whole_before_whole (m n : Int) : (whole m).before (whole n) = decide (m < n) := by
  show (!decide (n ≤ m)) = decide (m < n)
  rw [← decide_not]
  exact decide_eq_decide.mpr Int.not_le

@[simp] theorem isWithin_whole (position length : Int) :
    (whole position).isWithin (whole length) =
      .ok (decide (1 ≤ position ∧ position ≤ length)) := by
  by_cases h : 1 ≤ position <;> simp [isWithin, h, bind, Except.bind, pure, Except.pure]

@[simp] theorem equals_whole (m n : Int) : (whole m).equals n = (m == n) := rfl

@[simp] theorem whole_plus_whole (m n : Int) :
    (whole m).plus (whole n) = .ok (whole (m + n)) := rfl

@[simp] theorem whole_minus_whole (m n : Int) :
    (whole m).minus (whole n) = .ok (whole (m - n)) := rfl

@[simp] theorem fromEnd_whole (length offset : Int) :
    (whole length).fromEnd offset = .ok (whole (length + offset + 1)) := rfl

@[simp] theorem count_whole (n : Int) : (whole n).count = .ok n := rfl

@[simp] theorem day_whole (n : Int) : (whole n).day = .ok n := rfl

end Quantity

end HijriRecurrence
