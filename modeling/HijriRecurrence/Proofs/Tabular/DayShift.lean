import HijriRecurrence.Proofs.Number.Rounding
import HijriRecurrence.Proofs.Tabular.Shift

/-!
# Shifts by days are exact

A shift by days works out the index of a second of a day, adds the days, and takes the result apart
again.  Each step rounds.  As long as day numbers stay below `2 ^ 32`, all roundings together move
the index by less than a third of a second, so the day and the second of the day come out as they
should.

* `split_of_marks` — an index near a second of a day is taken apart into that day and second;
* `outcome_addDays` — a date shifted by some days is the date on the day of the larger number;
* `shiftsExactly_of_range` — so such shifts are exact.
-/

namespace HijriRecurrence

open Binary64

namespace DayIndex

/-- Day numbers below this bound leave enough bits for the second of the day. -/
def numberBound : ℤ := 2 ^ 32

/-- An index is near a second of a day, and at midnight on the point. -/
structure Marks (index : ℚ) (n seconds : ℤ) (error : ℚ) : Prop where
  near : |index - (n - 1 / 2 + seconds / 86400)| ≤ error
  midnight : seconds = 0 → index = n - 1 / 2

variable {index error : ℚ} {n seconds days : ℤ}

theorem finite_of_abs_le {q : ℚ} {k : ℤ} (h : |q| ≤ pow2 k) (hk : -1022 ≤ k) (hk' : k ≤ 1022) :
    finite q = .ok (round53 q) := by
  have hmove := abs_le.1 (abs_round53_sub_le h hk)
  have hq := abs_le.1 h
  have hunit : pow2 (k - 53) ≤ pow2 k := pow2_le_pow2.2 (by omega)
  have hdouble : pow2 (k + 1) = 2 * pow2 k := by
    rw [pow2_eq_zpow, pow2_eq_zpow, zpow_add_one₀ (by norm_num), mul_comm]
  have hover : pow2 (k + 1) < overflow := pow2_lt_pow2.2 (by omega)
  unfold finite
  dsimp only
  rw [if_pos]
  constructor
  · linarith
  · linarith

theorem finite_intCast (hn : -2 ^ 52 < n ∧ n < 2 ^ 52) : finite (n : ℚ) = .ok (n : ℚ) := by
  have hle : |(n : ℚ)| ≤ pow2 (52 : ℕ) := by
    rw [abs_le, pow2_natCast]
    have hlow : ((-2 ^ 52 : ℤ) : ℚ) ≤ n := Int.cast_le.2 hn.1.le
    rw [Int.cast_neg] at hlow
    exact ⟨hlow, Int.cast_le.2 hn.2.le⟩
  rw [finite_of_abs_le hle (by norm_num) (by norm_num), round53_intCast hn]

/-- Indices of that size move by a millionth at most. -/
theorem abs_round53_sub_le_index {q : ℚ} (h : |q| ≤ 2 ^ 33) : |round53 q - q| ≤ 1 / 2 ^ 20 := by
  have hbound : (2 : ℚ) ^ 33 = pow2 33 := by norm_num [pow2_eq_zpow]
  have hmove := abs_round53_sub_le (hbound ▸ h) (by norm_num)
  rwa [show pow2 (33 - 53) = 1 / 2 ^ 20 by norm_num [pow2_eq_zpow]] at hmove

/-- Fractions move by much less. -/
theorem abs_round53_sub_le_fraction {q : ℚ} (h : |q| ≤ 1) : |round53 q - q| ≤ 1 / 2 ^ 53 := by
  have hbound : (1 : ℚ) = pow2 0 := by norm_num [pow2_eq_zpow]
  have hmove := abs_round53_sub_le (hbound ▸ h) (by norm_num)
  rwa [show pow2 (0 - 53) = 1 / 2 ^ 53 by norm_num [pow2_eq_zpow]] at hmove

theorem finite_index {q : ℚ} (h : |q| ≤ 2 ^ 33) : finite q = .ok (round53 q) := by
  have hbound : (2 : ℚ) ^ 33 = pow2 33 := by norm_num [pow2_eq_zpow]
  exact finite_of_abs_le (hbound ▸ h) (by norm_num) (by norm_num)

/-- Midnights do not move. -/
theorem round53_midnight (hn : 0 ≤ n ∧ n < numberBound) :
    round53 ((n : ℚ) - 1 / 2) = n - 1 / 2 := by
  obtain ⟨hn0, hn1⟩ := hn
  unfold numberBound at hn1
  have hhalf := round53_half (n := 2 * n - 1) (by omega)
  push_cast at hhalf
  rwa [show (2 * (n : ℚ) - 1) / 2 = n - 1 / 2 by ring] at hhalf

/-- A day number and the part of a day that some seconds make, as numbers. -/
theorem cast_bounds (hn : 0 ≤ n ∧ n < numberBound) (hs : 0 ≤ seconds ∧ seconds < 86400) :
    (0 : ℚ) ≤ n ∧ (n : ℚ) ≤ 2 ^ 32 ∧ (0 : ℚ) ≤ seconds ∧ (seconds : ℚ) ≤ 86399 := by
  unfold numberBound at hn
  refine ⟨Int.cast_nonneg hn.1, ?_, Int.cast_nonneg hs.1, ?_⟩
  · exact_mod_cast hn.2.le
  · exact_mod_cast (show seconds ≤ 86399 by omega)

/-- The index of a second of a day. -/
theorem ofDayNumber_spec (hn : 0 ≤ n ∧ n < numberBound) (hs : 0 ≤ seconds ∧ seconds < 86400) :
    ∃ index, ofDayNumber n seconds = .ok index ∧ Marks index n seconds (1 / 2 ^ 19) := by
  obtain ⟨hn0, hn1, hs0, hs1⟩ := cast_bounds hn hs
  have hnumber : finite (n : ℚ) = .ok (n : ℚ) := by
    unfold numberBound at hn
    exact finite_intCast (by omega)
  have hpart : |(seconds : ℚ) / 86400| ≤ 1 := by
    rw [abs_le]
    constructor <;> linarith
  have hfraction : fraction seconds = .ok (round53 ((seconds : ℚ) / 86400)) := by
    unfold fraction
    exact finite_index (hpart.trans (by norm_num))
  have hfractionMove := abs_le.1 (abs_round53_sub_le_fraction hpart)
  have hindexMove := abs_le.1 (abs_round53_sub_le_index
    (q := n - 1 / 2 + round53 ((seconds : ℚ) / 86400)) (by
      rw [abs_le]
      constructor <;> linarith))
  refine ⟨round53 (n - 1 / 2 + round53 ((seconds : ℚ) / 86400)), ?_, ?_, ?_⟩
  · rw [ofDayNumber, hnumber, hfraction]
    show Except.ok (round53 (round53 ((n : ℚ) - 1 / 2) + _)) = _
    rw [round53_midnight hn]
  · rw [abs_le]
    constructor <;> linarith
  · rintro rfl
    have hzero : round53 (((0 : ℤ) : ℚ) / 86400) = 0 := by
      have := round53_intCast (n := 0) (by norm_num)
      simpa using this
    rw [hzero, add_zero, round53_midnight hn]

/-- Adding days to an index. -/
theorem shift_spec (h : Marks index n seconds (1 / 2 ^ 19)) (hs : 0 ≤ seconds ∧ seconds < 86400)
    (hn : 0 ≤ n ∧ n < numberBound) (hdays : 0 ≤ n + days ∧ n + days < numberBound) :
    ∃ shifted, shift index (.whole days) = .ok shifted ∧
      Marks shifted (n + days : ℤ) seconds (1 / 2 ^ 18) := by
  obtain ⟨hn0, hn1, hs0, hs1⟩ := cast_bounds hdays hs
  have hrounded : (Quantity.whole days).rounded = .ok (days : ℚ) := by
    unfold numberBound at hn hdays
    exact finite_intCast (by omega)
  have hnear := abs_le.1 h.near
  push_cast at hn0 hn1
  have hbound : |index + days| ≤ 2 ^ 33 := by
    rw [abs_le]
    constructor <;> linarith
  have hmove := abs_le.1 (abs_round53_sub_le_index hbound)
  refine ⟨round53 (index + days), ?_, ?_, ?_⟩
  · rw [shift, hrounded]
    exact finite_index hbound
  · push_cast
    rw [abs_le]
    constructor <;> linarith
  · intro hzero
    rw [h.midnight hzero, show (n : ℚ) - 1 / 2 + days = (n + days : ℤ) - 1 / 2 by push_cast; ring,
      round53_midnight hdays]

/-- Marks within a smaller error are marks within a larger one. -/
theorem Marks.mono {wider : ℚ} (h : Marks index n seconds error) (hle : error ≤ wider) :
    Marks index n seconds wider :=
  ⟨h.near.trans hle, h.midnight⟩

/-- Moved to midnight, an index near a second of a day lies within the day. -/
theorem round53_of_marks (h : Marks index n seconds (1 / 2 ^ 18)) (hn : 0 ≤ n ∧ n < numberBound)
    (hs : 0 ≤ seconds ∧ seconds < 86400) :
    |round53 (index + 1 / 2) - (n + seconds / 86400)| ≤ 5 / 2 ^ 20 ∧
      0 ≤ round53 (index + 1 / 2) - n ∧ round53 (index + 1 / 2) - n < 1 := by
  obtain ⟨hn0, hn1, hs0, hs1⟩ := cast_bounds hn hs
  have hnear := abs_le.1 h.near
  have hbound : |index + 1 / 2| ≤ 2 ^ 33 := by
    rw [abs_le]
    constructor <;> linarith
  have hmove := abs_le.1 (abs_round53_sub_le_index hbound)
  refine ⟨?_, ?_, by linarith⟩
  · rw [abs_le]
    constructor <;> linarith
  · rcases Int.lt_or_eq_of_le hs.1 with hpos | hzero
    · have hone : (1 : ℚ) ≤ seconds := by exact_mod_cast hpos
      linarith
    · -- at midnight nothing has moved
      rw [h.midnight hzero.symm, sub_add_cancel, round53_intCast, sub_self]
      unfold numberBound at hn
      omega

/-- The day of an index near a second of it. -/
theorem floor_of_marks (h : Marks index n seconds (1 / 2 ^ 18)) (hn : 0 ≤ n ∧ n < numberBound)
    (hs : 0 ≤ seconds ∧ seconds < 86400) : (round53 (index + 1 / 2)).floor = n := by
  obtain ⟨-, hpart, hpart'⟩ := round53_of_marks h hn hs
  have hle := Rat.floor_le (round53 (index + 1 / 2))
  have hlt := Rat.lt_floor_add_one (round53 (index + 1 / 2))
  push_cast at hlt
  have hlow : (n : ℚ) < (round53 (index + 1 / 2)).floor + 1 := by linarith
  have hhigh : ((round53 (index + 1 / 2)).floor : ℚ) < n + 1 := by linarith
  have hlow' : n < (round53 (index + 1 / 2)).floor + 1 := by exact_mod_cast hlow
  have hhigh' : (round53 (index + 1 / 2)).floor < n + 1 := by exact_mod_cast hhigh
  omega

/-- **An index near a second of a day is taken apart into that day and second.** -/
theorem split_of_marks (h : Marks index n seconds (1 / 2 ^ 18)) (hn : 0 ≤ n ∧ n < numberBound)
    (hs : 0 ≤ seconds ∧ seconds < 86400) : split index = (n, seconds) := by
  obtain ⟨hnear, hpart0, hpart1⟩ := round53_of_marks h hn hs
  have hnear := abs_le.1 hnear
  have hpart : |round53 (index + 1 / 2) - n| ≤ 1 := by
    rw [abs_le]
    constructor <;> linarith
  have hpartMove := abs_le.1 (abs_round53_sub_le_fraction hpart)
  have hproduct : |round53 (round53 (index + 1 / 2) - n) * 86400| ≤ 2 ^ 33 := by
    rw [abs_le]
    constructor <;> linarith
  have hproductMove := abs_le.1 (abs_round53_sub_le_index hproduct)
  have hseconds : nearest (round53 (round53 (round53 (index + 1 / 2) - n) * 86400)) = seconds := by
    refine nearest_eq_of_abs_lt ?_
    rw [abs_lt]
    constructor <;> linarith
  simp only [split, secondsPerDay, floor_of_marks h hn hs]
  rw [show ((86400 : ℤ) : ℚ) = 86400 by norm_num, hseconds, if_neg (by omega)]

end DayIndex

namespace LunarDate

variable {ctx : Context} {answers : Answers} {d : LunarDate} {days : ℤ}

theorem secondOfDay_range (h : d.InRange) : 0 ≤ d.secondOfDay ∧ d.secondOfDay < 86400 := by
  have hh := h.hour
  have hm := h.minute
  have hs := h.second
  unfold secondOfDay
  omega

/-- The second of a day gives back the time of day. -/
theorem onDay_of_secondOfDay (h : d.InRange) (day : LunarDay) :
    { day with
      hour := d.secondOfDay / 3600, minute := d.secondOfDay % 3600 / 60,
      second := d.secondOfDay % 60, variant := d.variant } = d.onDay day := by
  have hm := h.minute
  have hs := h.second
  have hhour : d.secondOfDay / 3600 = d.hour := by
    unfold secondOfDay
    omega
  have hminute : d.secondOfDay % 3600 / 60 = d.minute := by
    unfold secondOfDay
    omega
  have hsecond : d.secondOfDay % 60 = d.second := by
    unfold secondOfDay
    omega
  rw [hhour, hminute, hsecond]
  rfl

/-- The index of a date is near the second of its day. -/
theorem exists_ofLunar (hd : d.Built ctx answers) (hv : d.variant = .tabular)
    (hn : Tabular.dayNumberOf d.toLunarDay < DayIndex.numberBound) :
    ∃ index, (DayIndex.ofLunar ctx d).outcome answers = .ok index ∧
      DayIndex.Marks index (Tabular.dayNumberOf d.toLunarDay) d.secondOfDay (1 / 2 ^ 19) := by
  have hday := (hd.isTabular hv).isDay
  have hepoch := Tabular.epoch_le_dayNumberOf hday
  have hpos : 0 ≤ Tabular.epoch := by decide
  obtain ⟨index, hindex, hmarks⟩ :=
    DayIndex.ofDayNumber_spec ⟨by omega, hn⟩ (secondOfDay_range hd.inRange)
  refine ⟨index, ?_, hmarks⟩
  rw [DayIndex.ofLunar, calendar_of_tabular hv, pure_bind, Calculation.outcome_liftM]
  rw [DayIndex.ofLunarIn,
    show Tabular.calendar.dayNumber d.toLunarDay = _ from Tabular.dayNumber_of_isDay hday]
  exact hindex

/-- An index near a date's second of some day leads to the date on that day, whether the calendar is
named or not. -/
theorem outcome_toLunar {index : ℚ} {n : ℤ} {name : Option CalendarName}
    (hd : d.Built ctx answers) (hv : d.variant = .tabular)
    (hmarks : DayIndex.Marks index n d.secondOfDay (1 / 2 ^ 18))
    (hn : Tabular.epoch ≤ n ∧ n < DayIndex.numberBound)
    (hname : (name.filter (·.isGiven)).getD (.known .tabular) = .known .tabular) :
    (DayIndex.toLunar ctx index Tabular.calendar name).outcome answers =
      .ok (d.onDay (Tabular.dayAt n)) := by
  have hr := hd.inRange
  have hpos : 0 ≤ Tabular.epoch := by decide
  have hsplit := DayIndex.split_of_marks hmarks ⟨by omega, hn.2⟩ (secondOfDay_range hr)
  have hfound : Tabular.calendar.ofDayNumber n = .ok (Tabular.dayAt n) :=
    Tabular.ofDayNumber_eq_dayAt hn.1
  have hbuilt := hd.onDay hv (Tabular.isDay_dayAt hn.1)
  rw [← onDay_of_secondOfDay hr, hv] at hbuilt ⊢
  rw [DayIndex.toLunar, hsplit, show Tabular.calendar.variant = .tabular from rfl, hname]
  dsimp only
  rw [Calculation.outcome_bind_ok ((Calculation.outcome_liftM _).trans hfound)]
  exact hbuilt

/-- **A shift by days leads to the day of the larger number, at the same time of day.** -/
theorem outcome_addDays (hd : d.Built ctx answers) (hv : d.variant = .tabular)
    (hn : Tabular.dayNumberOf d.toLunarDay < DayIndex.numberBound)
    (hdays : Tabular.epoch ≤ Tabular.dayNumberOf d.toLunarDay + days ∧
      Tabular.dayNumberOf d.toLunarDay + days < DayIndex.numberBound) :
    (d.addDays ctx (.whole days)).outcome answers =
      .ok (d.onDay (Tabular.dayAt (Tabular.dayNumberOf d.toLunarDay + days))) := by
  have hday := (hd.isTabular hv).isDay
  have hepoch := Tabular.epoch_le_dayNumberOf hday
  have hpos : 0 ≤ Tabular.epoch := by decide
  by_cases hzero : days = 0
  · rw [hzero, addDays_zero, Int.add_zero, Tabular.dayAt_dayNumberOf hday]
    rfl
  · obtain ⟨index, hindex, hmarks⟩ := exists_ofLunar hd hv hn
    obtain ⟨shifted, hshifted, hmarks'⟩ := DayIndex.shift_spec hmarks
      (secondOfDay_range hd.inRange) ⟨by omega, hn⟩ ⟨by omega, hdays.2⟩
    rw [addDays, if_neg (by simpa using hzero), Calculation.outcome_bind_ok hindex,
      Calculation.outcome_bind_ok ((Calculation.outcome_liftM _).trans hshifted),
      calendar_of_tabular hv, pure_bind]
    exact outcome_toLunar hd hv hmarks' hdays (by rw [hv]; rfl)

/-- So shifts by days are exact. -/
theorem shiftsExactly_of_range (hd : d.Built ctx answers) (hv : d.variant = .tabular)
    (hn : Tabular.dayNumberOf d.toLunarDay < DayIndex.numberBound)
    (hdays : Tabular.epoch ≤ Tabular.dayNumberOf d.toLunarDay + days ∧
      Tabular.dayNumberOf d.toLunarDay + days < DayIndex.numberBound) :
    d.ShiftsExactly ctx answers days := by
  refine ⟨_, outcome_addDays hd hv hn hdays, ?_⟩
  rw [onDay_toLunarDay, Tabular.dayNumber_of_isDay (Tabular.isDay_dayAt hdays.1),
    Tabular.dayNumberOf_dayAt hdays.1]

end LunarDate

end HijriRecurrence
