import HijriRecurrence.Proofs.Civil.Position
import HijriRecurrence.Proofs.Tabular.Correspondence
import HijriRecurrence.Proofs.Tabular.DayShift

/-!
# Dates and their index

The index of a date is a rounded number that holds both its day and its time of day.  For the days
that a civil date can name, nothing is lost by it: the date comes back from its index, a shift by
days is exact and undone by the difference, and the weekday of the index is that of the date and of
its civil date.  A shift that leads before the first day is out of range, even where it is too long
for the index to be exact.

* `toLunar_of_ofLunar` — a date is found again from its index;
* `split_of_shift_neg` — a long shift back is rounded, but stays before the first day;
* `outOfRange_addDays` — so a shift before the first day is out of range;
* `exists_weekdays` — the weekday by index, by number and by civil date;
* `dayIndex_laws` — all of it, for a date of the tabular calendar.
-/

namespace HijriRecurrence

open Binary64

namespace DayIndex

variable {index : ℚ} {n seconds days : ℤ}

/-- The day of an index is the whole day below it, or the one after when the seconds round up. -/
theorem split_fst_le (index : ℚ) : (split index).1 ≤ (round53 (index + 1 / 2)).floor + 1 := by
  unfold split
  dsimp only
  split
  · exact Int.le_refl _
  · omega

/-- **A shift that leads before day 0 stays before day 6,** however long it is and however far it is
rounded. -/
theorem split_of_shift_neg (h : Marks index n seconds (1 / 2 ^ 19)) (hn : 0 ≤ n ∧ n < numberBound)
    (hs : 0 ≤ seconds ∧ seconds < 86400) (hdays : -2 ^ 52 ≤ days) (hneg : n + days < 0) :
    ∃ shifted, shift index (.whole days) = .ok shifted ∧ (split shifted).1 < 6 := by
  obtain ⟨hn0, hn1, hs0, hs1⟩ := cast_bounds hn hs
  have hnear := abs_le.1 h.near
  have hsum : (n : ℚ) + days ≤ -1 := by exact_mod_cast (show n + days ≤ -1 by omega)
  have hlow : (-2 ^ 52 : ℚ) ≤ days := by exact_mod_cast hdays
  have hunit (k : ℤ) : pow2 k = 2 ^ k := pow2_eq_zpow k
  -- the days lose half a day at most, the sum one day, and the move to midnight two days
  have hdaysBound : |(days : ℚ)| ≤ pow2 52 := by
    rw [hunit, abs_le]
    constructor <;> norm_num <;> linarith
  have hrounded : (Quantity.whole days).rounded = .ok (round53 days) :=
    finite_of_abs_le hdaysBound (by norm_num) (by norm_num)
  have hdaysMove := abs_le.1 (abs_round53_sub_le hdaysBound (by norm_num))
  rw [show pow2 (52 - 53) = 1 / 2 by norm_num [hunit]] at hdaysMove
  have hsumBound : |index + round53 days| ≤ pow2 53 := by
    rw [hunit, abs_le]
    constructor <;> norm_num <;> linarith
  have hsumMove := abs_le.1 (abs_round53_sub_le hsumBound (by norm_num))
  rw [show pow2 (53 - 53) = 1 by norm_num [hunit]] at hsumMove
  have hmidnightBound : |round53 (index + round53 days) + 1 / 2| ≤ pow2 54 := by
    rw [hunit, abs_le] at hsumBound ⊢
    norm_num at hsumBound
    constructor <;> norm_num <;> linarith
  have hmidnightMove := abs_le.1 (abs_round53_sub_le hmidnightBound (by norm_num))
  rw [show pow2 (54 - 53) = 2 by norm_num [hunit]] at hmidnightMove
  refine ⟨round53 (index + round53 days), ?_, ?_⟩
  · rw [shift, hrounded]
    exact finite_of_abs_le hsumBound (by norm_num) (by norm_num)
  · have hfloor : (round53 (round53 (index + round53 days) + 1 / 2)).floor < 5 := by
      rw [Rat.floor_lt_iff]
      push_cast
      linarith
    have hsplit := split_fst_le (round53 (index + round53 days))
    omega

end DayIndex

namespace LunarDate

variable {ctx : Context} {answers : Answers} {a d : LunarDate} {n : ℤ}

/-- **A date is found again from its index.** -/
theorem toLunar_of_ofLunar (hd : d.Built ctx answers) (hv : d.variant = .tabular)
    (hn : Tabular.dayNumberOf d.toLunarDay < DayIndex.numberBound) :
    ∃ index, (DayIndex.ofLunar ctx d).outcome answers = .ok index ∧
      (DayIndex.toLunar ctx index Tabular.calendar none).outcome answers = .ok d := by
  have hday := (hd.isTabular hv).isDay
  obtain ⟨index, hindex, hmarks⟩ := exists_ofLunar hd hv hn
  refine ⟨index, hindex, ?_⟩
  rw [outcome_toLunar hd hv (hmarks.mono (by norm_num))
    ⟨Tabular.epoch_le_dayNumberOf hday, hn⟩ rfl, Tabular.dayAt_dayNumberOf hday]
  rfl

/-- **A shift to before the first day is out of range.** -/
theorem outOfRange_addDays (hd : d.Built ctx answers) (hv : d.variant = .tabular)
    (hn : Tabular.dayNumberOf d.toLunarDay < DayIndex.numberBound) (hlow : -2 ^ 52 ≤ n)
    (hbefore : Tabular.dayNumberOf d.toLunarDay + n < Tabular.epoch) :
    ∃ e, (d.addDays ctx (.whole n)).outcome answers = .error e ∧ e.kind = .outOfRange := by
  have hs := secondOfDay_range hd.inRange
  have hepoch := Tabular.epoch_le_dayNumberOf (hd.isTabular hv).isDay
  have hpos : 6 ≤ Tabular.epoch ∧ Tabular.epoch < DayIndex.numberBound := by decide
  obtain ⟨index, hindex, hmarks⟩ := exists_ofLunar hd hv hn
  have hsplit : ∃ shifted, DayIndex.shift index (.whole n) = .ok shifted ∧
      (DayIndex.split shifted).1 < Tabular.epoch := by
    by_cases hneg : Tabular.dayNumberOf d.toLunarDay + n < 0
    · obtain ⟨shifted, hshifted, hlt⟩ :=
        DayIndex.split_of_shift_neg hmarks ⟨by omega, hn⟩ hs hlow hneg
      exact ⟨shifted, hshifted, by omega⟩
    · -- from day 0 on the shift is exact
      have hrange : 0 ≤ Tabular.dayNumberOf d.toLunarDay + n ∧
          Tabular.dayNumberOf d.toLunarDay + n < DayIndex.numberBound := by omega
      obtain ⟨shifted, hshifted, hmarks'⟩ :=
        DayIndex.shift_spec hmarks hs ⟨by omega, hn⟩ hrange
      refine ⟨shifted, hshifted, ?_⟩
      rw [DayIndex.split_of_marks hmarks' hrange hs]
      exact hbefore
  obtain ⟨shifted, hshifted, hlt⟩ := hsplit
  have hrefused : Tabular.calendar.ofDayNumber (DayIndex.split shifted).1 =
      .error (.beforeFirstDay (.int (DayIndex.split shifted).1)) := Tabular.ofDayNumber_of_lt hlt
  refine ⟨.beforeFirstDay (.int (DayIndex.split shifted).1), ?_, rfl⟩
  rw [addDays, if_neg (by simp; omega), Calculation.outcome_bind_ok hindex,
    Calculation.outcome_bind_ok ((Calculation.outcome_liftM _).trans hshifted),
    calendar_of_tabular hv, pure_bind, DayIndex.toLunar]
  dsimp only
  rw [hrefused]
  rfl

/-- **One weekday, three ways:** by the index of a date, by its number and by its civil date. -/
theorem exists_weekdays (hd : d.Built ctx answers) (hv : d.variant = .tabular)
    (hn : Tabular.dayNumberOf d.toLunarDay ≤ civilEpoch + lastCivilOrdinal) :
    ∃ weekday g, (DayIndex.weekday ctx d).outcome answers = .ok weekday ∧
      (d.weekday ctx).outcome answers = .ok weekday ∧
      (d.toCivil ctx).outcome answers = .ok g ∧ g.weekday = weekday := by
  have htab := hd.isTabular hv
  have hepoch := Tabular.epoch_le_dayNumberOf htab.isDay
  have hpos : civilEpoch < Tabular.epoch ∧ 0 ≤ Tabular.epoch ∧
      civilEpoch + lastCivilOrdinal < DayIndex.numberBound := by decide
  obtain ⟨index, hindex, hmarks⟩ := exists_ofLunar hd hv (by omega)
  obtain ⟨g, hg, hcivil⟩ := exists_civilOfDayNumber (n := Tabular.dayNumberOf d.toLunarDay)
    (by omega) hn
  refine ⟨Tabular.dayNumberOf d.toLunarDay % 7, g, ?_, outcome_weekday htab, ?_, ?_⟩
  · rw [DayIndex.weekday, Calculation.outcome_bind_ok hindex,
      DayIndex.floor_of_marks (hmarks.mono (by norm_num)) ⟨by omega, by omega⟩
        (secondOfDay_range hd.inRange)]
    rfl
  · rw [toCivil, calendar_of_tabular hv, pure_bind, Calculation.outcome_liftM]
    show Tabular.toCivil d.toLunarDay = .ok g
    rw [Tabular.toCivil, Tabular.dayNumber_of_isDay htab.isDay]
    exact hcivil
  · have hposition := CivilDate.dayNumber_eq_position hg
    rw [(civilOfDayNumber_eq_ok.1 hcivil).2] at hposition
    rw [hposition, CivilDate.weekday, civilEpoch]
    omega

/-- **Dates and their index.**  A tabular date up to day number 5373484 is found again from its index,
to the second.  A shift by days to a number from 1948440 to 5373484 leads to the date of that number
at the same time of day, the difference of the two dates is the shift, and a shift by the difference
to another date leads to that date.  A shift of at most 2 ^ 52 days to a number before 1948440 is out
of range.  The weekday of the index is that of the date and of its civil date. -/
theorem dayIndex_laws {number : ℤ} (hd : d.Built ctx answers) (hv : d.variant = .tabular)
    (hnumber : (d.dayNumber ctx).outcome answers = .ok number) (hn : number ≤ 5373484) :
    (∃ index, (DayIndex.ofLunar ctx d).outcome answers = .ok index ∧
      (DayIndex.toLunar ctx index Tabular.calendar none).outcome answers = .ok d) ∧
    (∀ n, 1948440 ≤ number + n → number + n ≤ 5373484 →
      ∃ e, (d.addDays ctx (.whole n)).outcome answers = .ok e ∧ e.Built ctx answers ∧
        (e.dayNumber ctx).outcome answers = .ok (number + n) ∧
        (e.hour = d.hour ∧ e.minute = d.minute ∧ e.second = d.second) ∧
        e.variant = d.variant ∧ (diffDays ctx e d).outcome answers = .ok n) ∧
    (∀ a : LunarDate, a.Built ctx answers → a.variant = .tabular →
      ∀ other, (a.dayNumber ctx).outcome answers = .ok other → other ≤ 5373484 →
        ∃ n, (diffDays ctx a d).outcome answers = .ok n ∧
          (d.addDays ctx (.whole n)).outcome answers = .ok (d.onDay a.toLunarDay)) ∧
    (∀ n, -2 ^ 52 ≤ n → n ≤ 2 ^ 52 → number + n < 1948440 →
      ∃ e, (d.addDays ctx (.whole n)).outcome answers = .error e ∧ e.kind = .outOfRange) ∧
    ∃ weekday g, (DayIndex.weekday ctx d).outcome answers = .ok weekday ∧
      (d.weekday ctx).outcome answers = .ok weekday ∧
      (d.toCivil ctx).outcome answers = .ok g ∧ g.weekday = weekday := by
  have htab := hd.isTabular hv
  have hbound : (5373484 : ℤ) < DayIndex.numberBound := by decide
  rw [outcome_dayNumber htab] at hnumber
  obtain rfl := Except.ok.inj hnumber
  have hsmall : Tabular.dayNumberOf d.toLunarDay < DayIndex.numberBound := by omega
  refine ⟨toLunar_of_ofLunar hd hv hsmall, ?_, ?_, ?_, exists_weekdays hd hv hn⟩
  · intro n hlow hhigh
    have hday := Tabular.isDay_dayAt hlow
    have hbuilt := hd.onDay hv hday
    have hshifted := hbuilt.isTabular hv
    refine ⟨_, outcome_addDays hd hv hsmall ⟨hlow, by omega⟩, hbuilt, ?_, ⟨rfl, rfl, rfl⟩, rfl, ?_⟩
    · rw [outcome_dayNumber hshifted, onDay_toLunarDay, Tabular.dayNumberOf_dayAt hlow]
    · rw [outcome_diffDays hshifted htab, onDay_toLunarDay, Tabular.dayNumberOf_dayAt hlow,
        add_sub_cancel_left]
  · intro a ha hav other hother hle
    have hatab := ha.isTabular hav
    rw [outcome_dayNumber hatab] at hother
    obtain rfl := Except.ok.inj hother
    refine ⟨_, outcome_diffDays hatab htab, ?_⟩
    have hback : Tabular.dayNumberOf d.toLunarDay +
        (Tabular.dayNumberOf a.toLunarDay - Tabular.dayNumberOf d.toLunarDay) =
        Tabular.dayNumberOf a.toLunarDay := by omega
    rw [outcome_addDays hd hv hsmall (by
      rw [hback]
      exact ⟨Tabular.epoch_le_dayNumberOf hatab.isDay, by omega⟩), hback,
      Tabular.dayAt_dayNumberOf hatab.isDay]
  · intro n hlow _ hbefore
    exact outOfRange_addDays hd hv hsmall hlow hbefore

/-- The last second of the last day of 9999, when the index leaves the fewest bits for the time. -/
def lastSecond : LunarDate :=
  { year := 9666, month := 4, day := 2, hour := 23, minute := 59, second := 59, variant := .tabular }

def firstMidnight : LunarDate := { year := 1, month := 1, day := 1, variant := .tabular }

theorem dayIndex_laws_lastSecond :
    lastSecond.Built .hostless .unknown ∧ lastSecond.variant = .tabular ∧
    (lastSecond.dayNumber .hostless).outcome .unknown = .ok 5373484 ∧
    firstMidnight.Built .hostless .unknown ∧ firstMidnight.variant = .tabular ∧
    (firstMidnight.dayNumber .hostless).outcome .unknown = .ok 1948440 ∧
    (∃ index, (DayIndex.ofLunar .hostless lastSecond).outcome .unknown = .ok index ∧
      (DayIndex.toLunar .hostless index Tabular.calendar none).outcome .unknown =
        .ok lastSecond) ∧
    (∃ e, (lastSecond.addDays .hostless (.whole (-3425044))).outcome .unknown = .ok e ∧
      (e.dayNumber .hostless).outcome .unknown = .ok 1948440 ∧ e.second = 59) ∧
    (∃ n, (diffDays .hostless firstMidnight lastSecond).outcome .unknown = .ok n ∧
      (lastSecond.addDays .hostless (.whole n)).outcome .unknown =
        .ok (lastSecond.onDay ⟨1, 1, 1⟩)) ∧
    (∃ e, (lastSecond.addDays .hostless (.whole (-2 ^ 52))).outcome .unknown = .error e ∧
      e.kind = .outOfRange) ∧
    ∃ weekday g, (DayIndex.weekday .hostless lastSecond).outcome .unknown = .ok weekday ∧
      (lastSecond.toCivil .hostless).outcome .unknown = .ok g ∧ g.weekday = weekday := by
  have hlast : lastSecond.Built .hostless .unknown := rfl
  have hlastNumber : (lastSecond.dayNumber .hostless).outcome .unknown = .ok 5373484 := rfl
  have hfirst : firstMidnight.Built .hostless .unknown := rfl
  have hfirstNumber : (firstMidnight.dayNumber .hostless).outcome .unknown = .ok 1948440 := rfl
  obtain ⟨hindex, hshift, hdiff, hrange, weekday, g, hweekday, -, hcivil, hg⟩ :=
    dayIndex_laws hlast rfl hlastNumber (by decide)
  obtain ⟨e, he, -, hnumber, ⟨-, -, hsecond⟩, -, -⟩ := hshift (-3425044) (by decide) (by decide)
  exact ⟨hlast, rfl, hlastNumber, hfirst, rfl, hfirstNumber, hindex, ⟨e, he, hnumber, hsecond⟩,
    hdiff firstMidnight hfirst rfl 1948440 hfirstNumber (by decide),
    hrange (-2 ^ 52) (by decide) (by decide) (by decide), weekday, g, hweekday, hcivil, hg⟩

end LunarDate

end HijriRecurrence
