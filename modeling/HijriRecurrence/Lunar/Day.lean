import HijriRecurrence.Text.Integer

/-!
# Lunar days

A lunar day is a year, a month and a day of the Hijri calendar.  Days are ordered by year, then
month, then day.  Whether a triple names a day at all depends on the calendar variant, so the type
holds any three integers.
-/

namespace HijriRecurrence

open Text

/-- A year, month and day of the Hijri calendar. -/
structure LunarDay where
  year : Int
  month : Int
  day : Int
deriving DecidableEq, Repr

namespace LunarDay

/-- Earlier in year, or in month of the same year, or in day of the same month. -/
protected def lt (a b : LunarDay) : Prop :=
  a.year < b.year ∨
    (a.year = b.year ∧ (a.month < b.month ∨ (a.month = b.month ∧ a.day < b.day)))

instance : LT LunarDay := ⟨LunarDay.lt⟩

instance (a b : LunarDay) : Decidable (a < b) := by
  change Decidable (LunarDay.lt a b)
  unfold LunarDay.lt
  infer_instance

instance : LE LunarDay := ⟨fun a b => ¬b < a⟩

instance (a b : LunarDay) : Decidable (a ≤ b) :=
  inferInstanceAs (Decidable (¬b < a))

theorem lt_def (a b : LunarDay) :
    a < b ↔ a.year < b.year ∨
      (a.year = b.year ∧ (a.month < b.month ∨ (a.month = b.month ∧ a.day < b.day))) :=
  Iff.rfl

theorem le_def (a b : LunarDay) : a ≤ b ↔ ¬b < a := Iff.rfl

theorem ext_fields {a b : LunarDay} (hy : a.year = b.year) (hm : a.month = b.month)
    (hd : a.day = b.day) : a = b := by
  cases a; cases b; simp_all

protected theorem lt_irrefl (a : LunarDay) : ¬a < a := by
  rw [lt_def]; omega

protected theorem lt_trans {a b c : LunarDay} (h : a < b) (k : b < c) : a < c := by
  rw [lt_def] at *; omega

protected theorem lt_trichotomy (a b : LunarDay) : a < b ∨ a = b ∨ b < a := by
  by_cases h : a < b
  · exact Or.inl h
  · by_cases k : b < a
    · exact Or.inr (Or.inr k)
    · refine Or.inr (Or.inl (ext_fields ?_ ?_ ?_)) <;> rw [lt_def] at h k <;> omega

/-- The day as year, month and day of fixed width, such as 1446-09-01. -/
def text (d : LunarDay) : String :=
  String.ofList (padded 4 d.year ++ '-' :: padded 2 d.month ++ '-' :: padded 2 d.day)

/-- Months from the second day to the first, whatever the days of the month. -/
def diffMonths (a b : LunarDay) : Int := (a.year - b.year) * 12 + (a.month - b.month)

/-- Years from the second day to the first, whatever the months. -/
def diffYears (a b : LunarDay) : Int := a.year - b.year

def sameYear (a b : LunarDay) : Bool := a.year == b.year

def sameMonth (a b : LunarDay) : Bool := a.year == b.year && a.month == b.month

/-- Puts a day into an increasing list, in the place of itself if the list has it. -/
def insertInto (d : LunarDay) : List LunarDay → List LunarDay
  | [] => [d]
  | e :: rest =>
    if d < e then d :: e :: rest else if e < d then e :: insertInto d rest else d :: rest

/-- The days of a list in increasing order, each once. -/
def sorted (days : List LunarDay) : List LunarDay := days.foldr insertInto []

theorem mem_insertInto {x d : LunarDay} {days : List LunarDay} :
    x ∈ d.insertInto days ↔ x = d ∨ x ∈ days := by
  induction days with
  | nil => simp [insertInto]
  | cons e rest ih =>
    simp only [insertInto]
    split
    · simp
    · rename_i hlt
      split
      · simp only [List.mem_cons, ih]
        constructor
        · rintro (h | h | h) <;> simp [h]
        · rintro (h | h | h) <;> simp [h]
      · rename_i hgt
        have heq : d = e := by
          rcases LunarDay.lt_trichotomy d e with h | h | h
          · exact absurd h hlt
          · exact h
          · exact absurd h hgt
        subst heq
        simp

/-- Sorting neither loses nor adds a day. -/
theorem mem_sorted {x : LunarDay} {days : List LunarDay} : x ∈ sorted days ↔ x ∈ days := by
  induction days with
  | nil => simp [sorted]
  | cons d rest ih =>
    show x ∈ d.insertInto (sorted rest) ↔ x ∈ d :: rest
    rw [mem_insertInto, ih, List.mem_cons]

end LunarDay

end HijriRecurrence
