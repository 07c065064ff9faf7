import HijriRecurrence.Proofs.Rule.MonthMembership

/-!
# Which days a rule of days or weeks passes along

A rule of days or weeks counts days from its first date on.  Whether it passes along a day can be
told from the difference in days and from the day itself.  A daily rule takes the days that are a
multiple of the interval away; a weekly rule takes those in weeks that are, a week starting on the
weekday of the first date (`mem_occurrences_iff_of_days`).

The weeks from the cursors on are seven days long and follow each other without a gap, so each day
is in one of them (`mem_proposedDays_of_weekly`).
-/

namespace HijriRecurrence.RuleOptions

open Tabular

variable {ctx : Context} {answers : Answers} {o : RuleOptions} {v : LunarDay}

/-- Days from the first date of a rule to a day. -/
def daysBetween (o : RuleOptions) (d : LunarDay) : Int :=
  Tabular.dayNumberOf d - Tabular.dayNumberOf o.start.toLunarDay

theorem daysBetween_nonneg (ho : o.Normalized ctx answers) (hv : o.variant = .tabular)
    (hday : IsDay v) (h : o.start.toLunarDay ≤ v) : 0 ≤ o.daysBetween v := by
  have hle := (dayNumberOf_le_iff (ho.isDay_start hv) hday).2 h
  unfold daysBetween
  omega

/-- A daily rule allows a day by its month, its number in the month and its weekday. -/
theorem allowsDay_iff (ho : o.Normalized ctx answers) (hday : IsDay v) :
    o.allowsDay v = true ↔
      (o.months = [] ∨ v.month ∈ o.months) ∧
      (o.allMonthDays = [] ∨ v.day ∈ o.allMonthDays ∨
        v.day - Tabular.monthDays v.year v.month - 1 ∈ o.allMonthDays) ∧
      (o.weekdays = [] ∨ weekdayOf v ∈ o.weekdayNumbers) := by
  obtain ⟨-, -, -, hd, hd'⟩ := hday
  -- a day is positive and an offset from the end negative, so neither is in the other's list
  have hfront : v.day ∉ o.monthDaysFromEnd := by
    intro hmem
    have := (ho.monthDaysFromEnd _ hmem).2
    omega
  have hback : v.day - Tabular.monthDays v.year v.month - 1 ∉ o.monthDays := by
    intro hmem
    have := (ho.monthDays _ hmem).1
    omega
  simp only [allowsDay, allMonthDays, onWeekday,
    Bool.and_eq_true, Bool.or_eq_true, List.isEmpty_iff, List.contains_iff_mem,
    List.append_eq_nil_iff, List.mem_append, hfront, hback, or_false, false_or, allowsMonth_iff,
    and_assoc, or_assoc]

/-- The day of a daily period. -/
theorem mem_proposedDays_of_daily (ho : o.Normalized ctx answers) (hv : o.variant = .tabular)
    (hfreq : o.frequency = .daily) (hday : IsDay v) {period : Int} (hk : 0 ≤ period) :
    v ∈ o.proposedDays (o.cursorDay period) ↔
      period * o.interval = o.daysBetween v ∧ o.allowsDay v = true := by
  have hc := isDay_cursorDay ho hv hk
  have hnum := dayNumberOf_cursorDay ho hv hk (by simp [hfreq]) (by simp [hfreq])
  have hequal : v = o.cursorDay period ↔ period * o.interval = o.daysBetween v := by
    unfold daysBetween
    simp only [daysTo, hfreq] at hnum
    constructor
    · intro h
      rw [← h] at hnum
      omega
    · exact fun h => dayNumberOf_injective hday hc (by omega)
  rw [proposedDays, hfreq, ← hequal]
  dsimp only
  constructor
  · intro hmem
    split at hmem
    · rename_i hallows
      obtain rfl := List.mem_singleton.1 hmem
      exact ⟨rfl, hallows⟩
    · exact absurd hmem List.not_mem_nil
  · rintro ⟨heq, hallows⟩
    rw [← heq, if_pos hallows]
    exact List.mem_singleton_self v

/-- A week from a cursor on is seven days long, and each weekday comes once in it. -/
theorem mem_daysInWeek_iff {cursor : LunarDay} (hc : IsDay cursor) (hday : IsDay v) :
    v ∈ o.daysInWeek cursor ↔
      (Tabular.dayNumberOf cursor ≤ Tabular.dayNumberOf v ∧
        Tabular.dayNumberOf v < Tabular.dayNumberOf cursor + 7) ∧
      (o.months = [] ∨ v.month ∈ o.months) ∧
      if o.weekdays = [] then weekdayOf v = weekdayOf cursor
      else weekdayOf v ∈ o.weekdayNumbers := by
  have hepoch := epoch_le_dayNumberOf hc
  have hat : ∀ i, 0 ≤ i → (dayAt (Tabular.dayNumberOf cursor + i) = v ↔
      Tabular.dayNumberOf v = Tabular.dayNumberOf cursor + i) := by
    intro i hi
    constructor
    · rintro rfl
      exact dayNumberOf_dayAt (by omega)
    · intro h
      rw [← h, dayAt_dayNumberOf hday]
  rw [daysInWeek, List.mem_filter, allowsMonth_iff, and_left_comm]
  refine and_comm.trans (and_congr_right fun _ => ?_)
  by_cases hplain : o.weekdays = []
  · -- the cursor alone, the only day of the week with its weekday
    have hself : v = cursor ↔ Tabular.dayNumberOf v = Tabular.dayNumberOf cursor :=
      ⟨congrArg Tabular.dayNumberOf, dayNumberOf_injective hday hc⟩
    rw [if_pos (by simp [hplain]), if_pos hplain, List.mem_singleton, hself]
    unfold weekdayOf
    omega
  · rw [if_neg (by simp [hplain]), if_neg hplain, List.mem_map]
    constructor
    · rintro ⟨i, hi, hday⟩
      obtain ⟨hrange, hw⟩ := List.mem_filter.1 hi
      simp only [List.mem_cons, List.not_mem_nil, or_false] at hrange
      have hv := (hat i (by omega)).1 hday
      have hsame : weekdayOf v = (weekdayOf cursor + i) % 7 := by
        unfold weekdayOf
        omega
      rw [List.contains_iff_mem, ← hsame] at hw
      exact ⟨by omega, hw⟩
    · rintro ⟨hweek, hw⟩
      have hsame : weekdayOf v =
          (weekdayOf cursor + (Tabular.dayNumberOf v - Tabular.dayNumberOf cursor)) % 7 := by
        unfold weekdayOf
        omega
      refine ⟨Tabular.dayNumberOf v - Tabular.dayNumberOf cursor,
        List.mem_filter.2 ⟨?_, ?_⟩, (hat _ (by omega)).2 (by omega)⟩
      · simp only [List.mem_cons, List.not_mem_nil, or_false]
        omega
      · rw [List.contains_iff_mem, ← hsame]
        exact hw

/-- **The weeks of the periods tile the days.** -/
theorem mem_proposedDays_of_weekly (ho : o.Normalized ctx answers) (hv : o.variant = .tabular)
    (hfreq : o.frequency = .weekly) (hday : IsDay v) {period : Int} (hk : 0 ≤ period) :
    v ∈ o.proposedDays (o.cursorDay period) ↔
      period * o.interval = o.daysBetween v / 7 ∧ (o.months = [] ∨ v.month ∈ o.months) ∧
        if o.weekdays = [] then weekdayOf v = weekdayOf o.start.toLunarDay
        else weekdayOf v ∈ o.weekdayNumbers := by
  have hnum := dayNumberOf_cursorDay ho hv hk (by simp [hfreq]) (by simp [hfreq])
  simp only [daysTo, hfreq] at hnum
  have hweekday : weekdayOf (o.cursorDay period) = weekdayOf o.start.toLunarDay := by
    unfold weekdayOf
    omega
  rw [proposedDays, hfreq]
  dsimp only
  rw [mem_daysInWeek_iff (isDay_cursorDay ho hv hk) hday, hweekday]
  refine and_congr_left fun _ => ?_
  unfold daysBetween
  omega

/-- **Whether a rule of days or weeks passes along a day can be told from the day alone.**  The day
is one that exists, within the dates of the rule and the limit on its periods. -/
theorem mem_occurrences_iff_of_days (ho : o.Normalized ctx answers) (hv : o.variant = .tabular)
    (hx : o.CountsDaysExactly ctx answers) (hpos : o.positions = []) (hcount : o.count = none)
    {v : LunarDate} (hday : v.IsTabular) (hstart : o.start.toLunarDay ≤ v.toLunarDay)
    (hlast : ∀ last ∈ o.last, v.toLunarDay ≤ last.toLunarDay) :
    ∃ days, (LunarDate.diffDays ctx v o.start).outcome answers = .ok days ∧
      (o.frequency = .daily → days / o.interval < o.periodLimit →
        ((∃ d ∈ (o.occurrences ctx).items answers, d.toLunarDay = v.toLunarDay) ↔
          o.interval ∣ days ∧ (o.months = [] ∨ v.month ∈ o.months) ∧
            (o.allMonthDays = [] ∨ v.day ∈ o.allMonthDays ∨
              v.day - Tabular.monthDays v.year v.month - 1 ∈ o.allMonthDays) ∧
            (o.weekdays = [] ∨ weekdayOf v.toLunarDay ∈ o.weekdayNumbers))) ∧
      (o.frequency = .weekly → days / 7 / o.interval < o.periodLimit →
        ((∃ d ∈ (o.occurrences ctx).items answers, d.toLunarDay = v.toLunarDay) ↔
          o.interval ∣ days / 7 ∧ (o.months = [] ∨ v.month ∈ o.months) ∧
            if o.weekdays = [] then weekdayOf v.toLunarDay = weekdayOf o.start.toLunarDay
            else weekdayOf v.toLunarDay ∈ o.weekdayNumbers)) := by
  have hnonneg := daysBetween_nonneg ho hv hday.isDay hstart
  have hstartDay := ho.start.isTabular (ho.start_variant.trans hv)
  refine ⟨o.daysBetween v.toLunarDay, LunarDate.outcome_diffDays hday hstartDay, ?_, ?_⟩
  · intro hfreq hlimit
    rw [← allowsDay_iff ho hday.isDay]
    exact mem_occurrences_iff_dvd ho hv hx hcount hpos hstart hlast hnonneg hlimit
      fun period hk => mem_proposedDays_of_daily ho hv hfreq hday.isDay hk
  · intro hfreq hlimit
    exact mem_occurrences_iff_dvd ho hv hx hcount hpos hstart hlast (by omega) hlimit
      fun period hk => mem_proposedDays_of_weekly ho hv hfreq hday.isDay hk

/-- Tuesday and Saturday of every other week, weeks starting on a Monday at the end of Sha'ban. -/
def twiceAFortnight : RuleOptions where
  frequency := .weekly
  start := { year := 1446, month := 8, day := 25, variant := .tabular }
  interval := 2
  weekdays := [⟨1, none⟩, ⟨5, none⟩]
  variant := .tabular

/-- The Saturday of the first week falls into the next month. -/
theorem mem_occurrences_twiceAFortnight :
    twiceAFortnight.Normalized .hostless .unknown ∧
    twiceAFortnight.CountsDaysExactly .hostless .unknown ∧
    LunarDate.IsTabular { year := 1446, month := 9, day := 1, variant := .tabular } ∧
    ∃ d ∈ (twiceAFortnight.occurrences .hostless).items .unknown,
      d.toLunarDay = ⟨1446, 9, 1⟩ := by
  have ho : twiceAFortnight.Normalized .hostless .unknown := normalized_of_inBounds (by decide)
  have hx : twiceAFortnight.CountsDaysExactly .hostless .unknown :=
    countsDaysExactly_of_range ho rfl (by decide)
  have hday : LunarDate.IsTabular { year := 1446, month := 9, day := 1, variant := .tabular } :=
    ⟨rfl, by decide⟩
  obtain ⟨days, hdays, -, hweekly⟩ := mem_occurrences_iff_of_days ho rfl hx rfl rfl hday
    (by decide) (by decide)
  rw [LunarDate.outcome_diffDays hday ⟨rfl, by decide⟩] at hdays
  obtain rfl := Except.ok.inj hdays
  exact ⟨ho, hx, hday, (hweekly rfl (by decide)).2 (by decide)⟩

end HijriRecurrence.RuleOptions
