import HijriRecurrence.Proofs.Tabular.MonthDays

/-!
# Days and day numbers correspond

Numbering a day is one sum; finding the day of a number is a division, a scan of years and a loop
over months.  The two undo each other, and between them they pair the days of the calendar, in
their order, with all integers from 1948440 on.

* `nextDay` — the day that follows a day, by the calendar alone;
* `nextDay_le_iff` — no day lies between a day and the one that follows it;
* `dayNumberOf_nextDay` — the day that follows has the number that follows;
* `dayNumber_correspondence` — both directions, their order, their successors and what each refuses.
-/

namespace HijriRecurrence.Tabular

/-! ### The day that follows -/

/-- The day after a day: the next one of the month, and after the last one the first of the next
month. -/
def nextDay (d : LunarDay) : LunarDay :=
  if d.day < monthDays d.year d.month then ⟨d.year, d.month, d.day + 1⟩
  else firstOfNextMonth d.year d.month

theorem isDay_nextDay {d : LunarDay} (h : IsDay d) : IsDay (nextDay d) := by
  obtain ⟨hy, hm, hm', hd, hd'⟩ := h
  unfold nextDay
  split
  · exact isDay_mk.2 (by omega)
  · exact isDay_firstOfNextMonth hy ⟨hm, hm'⟩

/-- The first of the next month has the number after the last day of the month. -/
theorem dayNumberOf_firstOfNextMonth {year month : Int} (hm : 1 ≤ month) (hm' : month ≤ 12) :
    dayNumberOf (firstOfNextMonth year month) =
      yearStart year + daysBeforeMonth month + monthDays year month := by
  unfold firstOfNextMonth
  split
  · rename_i h12
    have hlast := daysBeforeMonth_last year
    have hfirst : daysBeforeMonth 1 = 0 := by decide
    rw [dayNumberOf_mk, yearStart_succ, h12]
    omega
  · rw [dayNumberOf_mk, daysBeforeMonth_succ year month hm (by omega)]
    omega

/-- **The day that follows has the number that follows.** -/
theorem dayNumberOf_nextDay {d : LunarDay} (h : IsDay d) :
    dayNumberOf (nextDay d) = dayNumberOf d + 1 := by
  obtain ⟨-, hm, hm', -, hd'⟩ := h
  rw [dayNumberOf_eq d]
  unfold nextDay
  split
  · rw [dayNumberOf_mk]
    omega
  · rw [dayNumberOf_firstOfNextMonth hm hm']
    omega

/-- No day lies between a day and the one that follows it. -/
theorem nextDay_le_iff {d e : LunarDay} (hd : IsDay d) (he : IsDay e) :
    nextDay d ≤ e ↔ d < e := by
  rw [← dayNumberOf_le_iff (isDay_nextDay hd) he, ← dayNumberOf_lt_iff hd he,
    dayNumberOf_nextDay hd]
  exact Int.add_one_le_iff

/-! ### What is refused -/

/-- The numbers before the first day's belong to no day. -/
theorem ofDayNumber_of_lt {n : Int} (h : n < epoch) :
    ofDayNumber n = .error (.beforeFirstDay (.int n)) := by
  have hneg : n - epoch < 0 := by omega
  simp only [ofDayNumber, hneg, if_true]

theorem ofDayNumber_eq_error_iff {n : Int} :
    (∃ e, ofDayNumber n = .error e) ↔ n < epoch := by
  constructor
  · intro hfails
    obtain ⟨e, he⟩ := hfails
    apply Int.lt_of_not_ge
    intro hle
    rw [ofDayNumber_eq_dayAt hle] at he
    cases he
  · intro h
    exact ⟨_, ofDayNumber_of_lt h⟩

theorem dayNumber_eq_error_iff {d : LunarDay} :
    (∃ e, dayNumber d = .error e) ↔ ¬IsDay d := by
  constructor
  · intro hfails h
    obtain ⟨e, he⟩ := hfails
    rw [dayNumber_of_isDay h] at he
    cases he
  · intro h
    cases hn : dayNumber d with
    | error e => exact ⟨e, rfl⟩
    | ok n => exact absurd (dayNumber_eq_ok.1 hn).1 h

/-! ### The correspondence -/

/-- **Days and the integers from 1948440 on correspond.**  A triple of the calendar has a number
from there on, the number leads back to it, and the day that follows has the number that follows; a
number from there on has a triple of the calendar, and that leads back to the number; the earlier of
two days has the smaller number; no day lies between a day and the one that follows; and nothing
else is refused than a triple that names no day and a number before 1948440. -/
theorem dayNumber_correspondence :
    (∀ d, IsDay d → ∃ n, 1948440 ≤ n ∧ dayNumber d = .ok n ∧ ofDayNumber n = .ok d ∧
      dayNumber (nextDay d) = .ok (n + 1)) ∧
    (∀ n, 1948440 ≤ n → ∃ d, IsDay d ∧ ofDayNumber n = .ok d ∧ dayNumber d = .ok n) ∧
    (∀ a b m n, dayNumber a = .ok m → dayNumber b = .ok n → (a < b ↔ m < n)) ∧
    (∀ d e, IsDay d → IsDay e → (nextDay d ≤ e ↔ d < e)) ∧
    (∀ d, (∃ e, dayNumber d = .error e) ↔ ¬IsDay d) ∧
    (∀ n, (∃ e, ofDayNumber n = .error e) ↔ n < 1948440) := by
  refine ⟨?_, ?_, ?_, fun d e => nextDay_le_iff, fun d => dayNumber_eq_error_iff,
    fun n => ofDayNumber_eq_error_iff⟩
  · intro d h
    have hle := epoch_le_dayNumberOf h
    refine ⟨dayNumberOf d, hle, dayNumber_of_isDay h, ?_, ?_⟩
    · rw [ofDayNumber_eq_dayAt hle, dayAt_dayNumberOf h]
    · rw [dayNumber_of_isDay (isDay_nextDay h), dayNumberOf_nextDay h]
  · intro n hle
    obtain ⟨d, hd, hday, hn⟩ := ofDayNumber_spec hle
    exact ⟨d, hday, hd, dayNumber_eq_ok.2 ⟨hday, hn⟩⟩
  · intro a b m n ha hb
    obtain ⟨hda, rfl⟩ := dayNumber_eq_ok.1 ha
    obtain ⟨hdb, rfl⟩ := dayNumber_eq_ok.1 hb
    exact (dayNumberOf_lt_iff hda hdb).symm

/-- The last day of a cycle of thirty years, and the first day of the next cycle after it. -/
theorem dayNumber_correspondence_lastOfCycle :
    IsDay ⟨30, 12, 29⟩ ∧ nextDay ⟨30, 12, 29⟩ = ⟨31, 1, 1⟩ ∧
      dayNumber ⟨30, 12, 29⟩ = .ok 1959070 ∧ ofDayNumber 1959070 = .ok ⟨30, 12, 29⟩ ∧
      dayNumber ⟨31, 1, 1⟩ = .ok 1959071 ∧ (⟨30, 12, 29⟩ : LunarDay) < ⟨31, 1, 1⟩ := by
  have hday : IsDay ⟨30, 12, 29⟩ := by decide
  have hnext : nextDay ⟨30, 12, 29⟩ = ⟨31, 1, 1⟩ := by decide
  have hnumber : dayNumber ⟨30, 12, 29⟩ = .ok 1959070 :=
    dayNumber_eq_ok.2 ⟨hday, by decide⟩
  obtain ⟨hof, -, hlt, -⟩ := dayNumber_correspondence
  obtain ⟨n, -, hn, hback, hsucc⟩ := hof _ hday
  obtain rfl : 1959070 = n := Except.ok.inj (hnumber.symm.trans hn)
  rw [hnext] at hsucc
  exact ⟨hday, hnext, hnumber, hback, hsucc, (hlt _ _ _ _ hnumber hsucc).2 (by decide)⟩

end HijriRecurrence.Tabular
