import HijriRecurrence.Proofs.Tabular.Position

/-!
# Shifts by days

A shift by days goes through the rounded day index.  What the rules need of it is one thing: that
the day it finds has the number that is larger by exactly so many (`LunarDate.ShiftsExactly`).  It
is then the day of that number, in the date's own calendar (`exists_of_shiftsExactly`).

A shift by no days gives back the date and is exact whatever the index.
-/

namespace HijriRecurrence.LunarDate

variable {ctx : Context} {answers : Answers} {d : LunarDate} {days : Int}

/-- A shift of a tabular date by some days finds the day whose number is larger by exactly so
many. -/
def ShiftsExactly (ctx : Context) (answers : Answers) (d : LunarDate) (days : Int) : Prop :=
  ∃ e, (d.addDays ctx (.whole days)).outcome answers = .ok e ∧
    Tabular.dayNumber e.toLunarDay = .ok (Tabular.dayNumberOf d.toLunarDay + days)

theorem addDays_zero : d.addDays ctx (.whole 0) = pure d := by
  unfold addDays
  simp

theorem shiftsExactly_zero (h : d.IsTabular) : ShiftsExactly ctx answers d 0 := by
  refine ⟨d, by rw [addDays_zero]; rfl, ?_⟩
  rw [Tabular.dayNumber_of_isDay h.isDay, Int.add_zero]

/-- A shifted date is built and stays in its calendar. -/
theorem built_of_addDays {e : LunarDate} (hd : d.Built ctx answers)
    (h : (d.addDays ctx (.whole days)).outcome answers = .ok e) :
    e.Built ctx answers ∧ e.variant = d.variant := by
  by_cases hzero : days = 0
  · rw [hzero, addDays_zero] at h
    obtain rfl : d = e := by simpa using h
    exact ⟨hd, rfl⟩
  · rw [addDays, if_neg (by simpa using hzero)] at h
    obtain ⟨index, -, h⟩ := Calculation.outcome_bind_eq_ok.1 h
    obtain ⟨shifted, -, h⟩ := Calculation.outcome_bind_eq_ok.1 h
    obtain ⟨cal, -, h⟩ := Calculation.outcome_bind_eq_ok.1 h
    unfold DayIndex.toLunar at h
    obtain ⟨day, -, h⟩ := Calculation.outcome_bind_eq_ok.1 h
    obtain ⟨rfl, hbuilt⟩ := build_eq_ok.1 h
    exact ⟨hbuilt, rfl⟩

/-- An exact shift finds the day of the larger number. -/
theorem exists_of_shiftsExactly (hd : d.Built ctx answers) (hv : d.variant = .tabular)
    (h : ShiftsExactly ctx answers d days) :
    ∃ e, (d.addDays ctx (.whole days)).outcome answers = .ok e ∧ e.Built ctx answers ∧
      e.variant = .tabular ∧
        e.toLunarDay = Tabular.dayAt (Tabular.dayNumberOf d.toLunarDay + days) := by
  obtain ⟨e, he, hn⟩ := h
  obtain ⟨hday, hnum⟩ := Tabular.dayNumber_eq_ok.1 hn
  obtain ⟨hbuilt, hvar⟩ := built_of_addDays hd he
  refine ⟨e, he, hbuilt, hvar.trans hv, ?_⟩
  rw [← hnum, Tabular.dayAt_dayNumberOf hday]

end HijriRecurrence.LunarDate
