import HijriRecurrence.Value

/-!
# Keys of month lengths

A length is kept under the year and the month that it belongs to.  Callers may name these by other
values, and any value that may be a key can stand in the place of both.  Equal values are one key:
a fraction that is whole, or a truth value, names the same month as the integer that it equals
(`beq_eq_same`).
-/

namespace HijriRecurrence

/-- A year and a month, or what a caller put in the place of them. -/
inductive MonthKey where
  | pair (year month : Int)
  | given (value : Value)
deriving Repr

namespace MonthKey

def ofValue : Value → MonthKey
  | .tuple [.int year, .int month] => pair year month
  | v => given v

def value : MonthKey → Value
  | pair year month => .tuple [.int year, .int month]
  | given v => v

def same : MonthKey → MonthKey → Bool
  | pair y m, pair year month => y == year && m == month
  | a, b => a.value.same b.value

instance : BEq MonthKey := ⟨same⟩

@[simp] theorem pair_beq_pair (y m year month : Int) :
    (pair y m == pair year month) = (y == year && m == month) := rfl

/-- Keys are equal when they are equal values. -/
theorem beq_eq_same (a b : MonthKey) : (a == b) = a.value.same b.value := by
  cases a with
  | given v => cases b <;> rfl
  | pair y m =>
    cases b with
    | given v => rfl
    | pair year month =>
      rw [pair_beq_pair, Bool.eq_iff_iff]
      simp [value, Value.same, Value.marks, Value.itemMarks]

instance : EquivBEq MonthKey where
  rfl := by simp [beq_eq_same]
  symm h := by
    rw [beq_eq_same] at h ⊢
    rwa [Value.same_comm]
  trans h k := by
    rw [beq_eq_same] at h k ⊢
    exact Value.same_trans h k

end MonthKey

end HijriRecurrence
