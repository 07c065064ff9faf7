import HijriRecurrence.Proofs.Rule.DayMembership
import HijriRecurrence.Proofs.Rule.LastDate

/-!
# Month days, by the month and by the day

A rule that gives month days can be walked in two ways.  By the month it goes to the days named; by
the day it looks at every day and keeps those named.  The two differ in what they read.  By the
month a rule goes by the first of its parts that applies, and days counted from the end of the month
are idle beside days counted from its start; by the day both count.  Without the idle days
(`withoutIdleDays`) the two have the same days.

* `hasDay_monthly_iff_listed`, `hasDay_daily_iff` — the days of either walk, told from the day;
* `yields_monthly_of_daily` — what the two yield.
-/

namespace HijriRecurrence.RuleOptions

open Tabular

variable {ctx : Context} {answers : Answers} {o : RuleOptions} {d : LunarDay}

/-- The rule without the month days that are idle by the month: those counted from its end, beside
any that are counted from its start. -/
def withoutIdleDays (o : RuleOptions) : RuleOptions :=
  { o with monthDaysFromEnd := if o.monthDays.isEmpty then o.monthDaysFromEnd else [] }

/-- Month days that are all counted from one side are not idle. -/
theorem withoutIdleDays_eq_self (h : o.monthDays = [] ∨ o.monthDaysFromEnd = []) :
    o.withoutIdleDays = o := by
  have hsame : (if o.monthDays.isEmpty then o.monthDaysFromEnd else []) = o.monthDaysFromEnd := by
    rcases h with hfront | hback
    · rw [if_pos (List.isEmpty_iff.2 hfront)]
    · rw [hback, ite_self]
  rw [withoutIdleDays, hsame]

theorem normalized_withoutIdleDays (ho : o.Normalized ctx answers) :
    o.withoutIdleDays.Normalized ctx answers := by
  refine { ho with monthDaysFromEnd := fun n hn => ho.monthDaysFromEnd n ?_ }
  unfold withoutIdleDays at hn
  dsimp only at hn
  split at hn
  · exact hn
  · exact absurd hn List.not_mem_nil

/-! ### The walk by the month -/

/-- A day is named by its number in the month, from the side from which the rule counts. -/
def Lists (o : RuleOptions) (d : LunarDay) : Prop :=
  d.day ∈ o.withoutIdleDays.monthDays ∨
    d.day - Tabular.monthDays d.year d.month - 1 ∈ o.withoutIdleDays.monthDaysFromEnd

/-- The days proposed in a month are those that it lists. -/
theorem mem_daysInMonth_iff_lists (hskip : o.skip = .omit) (hgiven : o.allMonthDays ≠ [])
    (hd : IsDay d) {year month usualDay : Int} :
    d ∈ o.daysInMonth year month usualDay ↔ d.year = year ∧ d.month = month ∧ o.Lists d := by
  unfold daysInMonth Lists withoutIdleDays
  by_cases hfront : o.monthDays = []
  · have hback : o.monthDaysFromEnd ≠ [] := by
      simpa [allMonthDays, hfront] using hgiven
    rw [if_neg (by simp [hfront]), if_pos (by simpa using hback), List.mem_filterMap]
    simp only [hfront, List.isEmpty_nil, if_true, List.not_mem_nil, false_or]
    constructor
    · rintro ⟨offset, hmem, hday⟩
      obtain ⟨hyear, hmonth, rfl⟩ := (fromEnd_eq_some_iff hd).1 hday
      exact ⟨hyear, hmonth, hmem⟩
    · rintro ⟨hyear, hmonth, hmem⟩
      exact ⟨_, hmem, (fromEnd_eq_some_iff hd).2 ⟨hyear, hmonth, rfl⟩⟩
  · have hempty : o.monthDays.isEmpty = false := by simpa using hfront
    rw [hempty, if_pos (Bool.not_false), hskip, List.mem_filterMap]
    simp only [Bool.false_eq_true, if_false, List.not_mem_nil, or_false]
    constructor
    · rintro ⟨day, hmem, hday⟩
      obtain ⟨hyear, hmonth, rfl⟩ := (resolve_omit_eq_some_iff hd).1 hday
      exact ⟨hyear, hmonth, hmem⟩
    · rintro ⟨hyear, hmonth, hmem⟩
      exact ⟨d.day, hmem, (resolve_omit_eq_some_iff hd).2 ⟨hyear, hmonth, rfl⟩⟩

/-- **By the month, a rule has the days that its months list.** -/
theorem hasDay_monthly_iff_listed (ho : o.Normalized ctx answers) (hv : o.variant = .tabular)
    (hi : o.interval = 1) (hpos : o.positions = []) (hskip : o.skip = .omit)
    (hgiven : o.allMonthDays ≠ []) (hd : IsDay d) :
    (o.every .monthly).HasDay d ↔ (o.allowsMonth d.month = true ∧ o.Lists d) ∧
      o.start.toLunarDay ≤ d ∧ ∀ last ∈ o.last, d ≤ last.toLunarDay := by
  obtain ⟨-, hsm, hsm', -, -⟩ := ho.isDay_start hv
  obtain ⟨-, hm, hm', -, -⟩ := id hd
  -- the number of a period names its month
  have hproposed : ∀ period, d ∈ (o.every .monthly).daysOfPeriod
        ((o.every .monthly).cursorDay period) ↔
      period = d.diffMonths o.start.toLunarDay ∧ o.allowsMonth d.month = true ∧ o.Lists d := by
    intro period
    obtain ⟨index, hindex⟩ :
      ∃ index, LunarDate.monthIndex o.start.toLunarDay + period = index := ⟨_, rfl⟩
    have hmonth : d.year = index / 12 + 1 ∧ d.month = index % 12 + 1 ↔
        period = d.diffMonths o.start.toLunarDay := by
      rw [← hindex, LunarDay.diffMonths, LunarDate.monthIndex]
      omega
    rw [mem_daysOfPeriod_every_monthly hi hpos hindex,
      mem_daysInMonth_iff_lists hskip hgiven hd, ← hmonth]
    constructor
    · rintro ⟨hallows, hyear, hmonth, hlists⟩
      exact ⟨⟨hyear, hmonth⟩, hmonth ▸ hallows, hlists⟩
    · rintro ⟨⟨hyear, hmonth⟩, hallows, hlists⟩
      exact ⟨hmonth ▸ hallows, hyear, hmonth, hlists⟩
  refine and_congr_left fun hwithin => ?_
  constructor
  · rintro ⟨period, -, hmem⟩
    exact ((hproposed period).1 hmem).2
  · intro hlisted
    have hstart : o.start.toLunarDay ≤ d := hwithin.1
    rw [LunarDay.le_def, LunarDay.lt_def] at hstart
    refine ⟨d.diffMonths o.start.toLunarDay, ?_, (hproposed _).2 ⟨rfl, hlisted⟩⟩
    unfold LunarDay.diffMonths
    omega

/-! ### The walk by the day -/

/-- **By the day, a rule has the days that it allows.** -/
theorem hasDay_daily_iff (ho : o.Normalized ctx answers) (hv : o.variant = .tabular)
    (hi : o.interval = 1) (hpos : o.positions = []) (hd : IsDay d) :
    (o.every .daily).HasDay d ↔ o.allowsDay d = true ∧
      o.start.toLunarDay ≤ d ∧ ∀ last ∈ o.last, d ≤ last.toLunarDay := by
  have hproposed : ∀ period, 0 ≤ period →
      (d ∈ (o.every .daily).daysOfPeriod ((o.every .daily).cursorDay period) ↔
        period = o.daysBetween d ∧ o.allowsDay d = true) := by
    intro period hk
    rw [mem_daysOfPeriod (o := o.every .daily) hpos,
      mem_proposedDays_of_daily (normalized_every ho .daily) hv rfl hd hk]
    show period * o.interval = o.daysBetween d ∧ _ ↔ _
    rw [hi, Int.mul_one]
    rfl
  refine and_congr_left fun hwithin => ?_
  constructor
  · rintro ⟨period, hk, hmem⟩
    exact ((hproposed period hk).1 hmem).2
  · intro hallows
    have hk := daysBetween_nonneg ho hv hd hwithin.1
    exact ⟨o.daysBetween d, hk, (hproposed _ hk).2 ⟨rfl, hallows⟩⟩

/-- By the day, the last date ends a walk when the cursor is past it. -/
theorem endsByLast_daily_iff (ho : o.Normalized ctx answers) (hv : o.variant = .tabular)
    (hx : (o.every .daily).CountsDaysExactly ctx answers) :
    (o.every .daily).EndsByLast ctx answers ↔ ∃ period, 0 ≤ period ∧ period < o.periodLimit ∧
      o.isWithin ((o.every .daily).cursorDay period) = false := by
  have hod := normalized_every ho .daily
  constructor
  · intro h
    obtain ⟨period, hk, hlimit, hpast | ⟨e, he, hpast⟩⟩ := h.exists_past hod hv hx
    · exact ⟨period, hk, hlimit, hpast⟩
    · -- a period of one day proposes no other day
      have hcursor := (span_of_mem_proposedDays hod (isDay_cursorDay hod hv hk)
        (mem_proposedDays_of_mem he)).2
      obtain rfl : (o.every .daily).cursorDay period = e :=
        LunarDay.le_antisymm hcursor.1 hcursor.2
      exact ⟨period, hk, hlimit, hpast⟩
  · rintro ⟨period, hk, hlimit, hpast⟩
    obtain ⟨cursor, hcursor, -, -, hday⟩ := outcome_cursor hod hv hk (hx.cursor _ hk hlimit)
    refine ⟨period, hk, hlimit, Or.inl ⟨cursor, hcursor, ?_⟩⟩
    rw [periodStart_eq, hday, isPast_ofDay, Bool.not_eq_true']
    exact hpast

/-- Idle days have no part in the walk from day to day. -/
theorem countsDaysExactly_withoutIdleDays (hx : (o.every .daily).CountsDaysExactly ctx answers) :
    (o.withoutIdleDays.every .daily).CountsDaysExactly ctx answers where
  cursor := hx.cursor
  week _ _ _ _ _ hweek :=
    absurd (show Frequency.daily = .weekly from hweek) (by decide)

/-! ### The two walks -/

/-- Without idle days a rule allows the days that it lists in its months. -/
theorem allowsDay_withoutIdleDays (hgiven : o.allMonthDays ≠ []) (hweekdays : o.weekdays = []) :
    o.withoutIdleDays.allowsDay d = true ↔ o.allowsMonth d.month = true ∧ o.Lists d := by
  have hkept : (o.withoutIdleDays.monthDays.isEmpty &&
      o.withoutIdleDays.monthDaysFromEnd.isEmpty) = false := by
    unfold withoutIdleDays
    by_cases hfront : o.monthDays = []
    · simpa [allMonthDays, hfront] using hgiven
    · simp [hfront]
  have hplain : o.withoutIdleDays.weekdays.isEmpty = true := List.isEmpty_iff.2 hweekdays
  rw [allowsDay, hkept, hplain, Bool.false_or, Bool.true_or, Bool.and_true, Bool.and_eq_true,
    Bool.or_eq_true, List.contains_iff_mem, List.contains_iff_mem]
  rfl

/-- **By the month and by the day, month days yield the same dates,** but for the idle ones: by the
month a rule yields what it yields by the day without them.  A list of month days that are all
counted from one side has none. -/
theorem yields_monthly_of_daily (ho : o.Normalized ctx answers) (hv : o.variant = .tabular)
    (hi : o.interval = 1) (hcount : o.count = none) (hpos : o.positions = [])
    (hskip : o.skip = .omit) (hweekdays : o.weekdays = []) (hgiven : o.allMonthDays ≠ [])
    (hx : (o.every .daily).CountsDaysExactly ctx answers)
    (hmonthly : (o.every .monthly).EndsByLast ctx answers)
    (hdaily : (o.every .daily).EndsByLast ctx answers) :
    ∃ dates, ((o.every .monthly).occurrences ctx).Yields answers dates ∧
      ((o.withoutIdleDays.every .daily).occurrences ctx).Yields answers dates ∧
      (o.monthDays = [] ∨ o.monthDaysFromEnd = [] →
        ((o.every .daily).occurrences ctx).Yields answers dates) := by
  have hkept := normalized_withoutIdleDays ho
  have hom := normalized_every ho .monthly
  have hod := normalized_every hkept .daily
  have hxk := countsDaysExactly_withoutIdleDays hx
  have hends : (o.withoutIdleDays.every .daily).EndsByLast ctx answers :=
    (endsByLast_daily_iff hkept hv hxk).2 ((endsByLast_daily_iff ho hv hx).1 hdaily)
  obtain ⟨days, hdays, hhas, hyields⟩ := exists_yields_of_hasDay hom hv
    (countsDaysExactly_of_months hom hv (Or.inr rfl)) hcount hmonthly
  obtain ⟨others, hothers, hhas', hyields'⟩ := exists_yields_of_hasDay hod hv hxk hcount hends
  have hsame : others = days := by
    refine LunarDay.eq_of_mem_iff hothers hdays fun d => ?_
    rw [hhas, hhas']
    have hiff : IsDay d → ((o.withoutIdleDays.every .daily).HasDay d ↔
        (o.every .monthly).HasDay d) := by
      intro hd
      rw [hasDay_daily_iff hkept hv hi hpos hd, allowsDay_withoutIdleDays hgiven hweekdays,
        hasDay_monthly_iff_listed ho hv hi hpos hskip hgiven hd]
      rfl
    exact ⟨fun h => (hiff (h.isDay hod hv)).1 h, fun h => (hiff (h.isDay hom hv)).2 h⟩
  rw [hsame] at hyields'
  refine ⟨days.map o.occurrenceOn, hyields, hyields', fun hside => ?_⟩
  rw [withoutIdleDays_eq_self hside] at hyields'
  exact hyields'

/-- The last days and the thirtieth from the end of Sha'ban and Ramadan 1446, of which the first
month has none, from the middle of Sha'ban on. -/
def fromTheEnd : RuleOptions where
  frequency := .monthly
  start := { year := 1446, month := 8, day := 15, variant := .tabular }
  last := some { year := 1446, month := 9, day := 30, variant := .tabular }
  months := [8, 9]
  monthDaysFromEnd := [-1, -30]
  variant := .tabular

/-- Days counted from the end alone are the same by the month and by the day. -/
theorem yields_monthly_of_daily_fromTheEnd :
    fromTheEnd.Normalized .hostless .unknown ∧ fromTheEnd.allMonthDays ≠ [] ∧
    (fromTheEnd.every .daily).CountsDaysExactly .hostless .unknown ∧
    (fromTheEnd.every .monthly).EndsByLast .hostless .unknown ∧
    (fromTheEnd.every .daily).EndsByLast .hostless .unknown ∧
    ∃ dates, ((fromTheEnd.every .monthly).occurrences .hostless).Yields .unknown dates ∧
      ((fromTheEnd.every .daily).occurrences .hostless).Yields .unknown dates := by
  have ho : fromTheEnd.Normalized .hostless .unknown := normalized_of_inBounds (by decide)
  have hx : (fromTheEnd.every .daily).CountsDaysExactly .hostless .unknown :=
    countsDaysExactly_of_range (normalized_every ho .daily) rfl (by decide)
  have hmonthly : (fromTheEnd.every .monthly).EndsByLast .hostless .unknown :=
    ⟨2, by decide, by decide, Or.inl ⟨_, rfl, by decide⟩⟩
  have hdaily : (fromTheEnd.every .daily).EndsByLast .hostless .unknown :=
    (endsByLast_daily_iff ho rfl hx).2 ⟨45, by decide, by decide, by decide⟩
  obtain ⟨dates, hdates, -, hsame⟩ := yields_monthly_of_daily ho rfl rfl rfl rfl rfl rfl (by decide)
    hx hmonthly hdaily
  exact ⟨ho, by decide, hx, hmonthly, hdaily, dates, hdates, hsame (Or.inl rfl)⟩

/-- The first and the last day of Ramadan 1446, from its first day to its last. -/
def endsOfRamadan : RuleOptions where
  frequency := .monthly
  start := { year := 1446, month := 9, day := 1, variant := .tabular }
  last := some { year := 1446, month := 9, day := 30, variant := .tabular }
  monthDays := [1]
  monthDaysFromEnd := [-1]
  variant := .tabular

/-- By the month the last day is idle beside the first, by the day it is not. -/
theorem monthly_ne_daily_endsOfRamadan :
    endsOfRamadan.Normalized .hostless .unknown ∧ endsOfRamadan.variant = .tabular ∧
    endsOfRamadan.interval = 1 ∧ endsOfRamadan.count = none ∧ endsOfRamadan.positions = [] ∧
    endsOfRamadan.skip = .omit ∧ endsOfRamadan.allWeekdays = [] ∧
    endsOfRamadan.allMonthDays ≠ [] ∧
    (endsOfRamadan.every .monthly).EndsByLast .hostless .unknown ∧
    (endsOfRamadan.every .daily).EndsByLast .hostless .unknown ∧
    (((endsOfRamadan.every .monthly).occurrences .hostless).items .unknown).map (·.toLunarDay) =
      [⟨1446, 9, 1⟩] ∧
    (((endsOfRamadan.every .daily).occurrences .hostless).items .unknown).map (·.toLunarDay) =
      [⟨1446, 9, 1⟩, ⟨1446, 9, 30⟩] := by
  have ho : endsOfRamadan.Normalized .hostless .unknown := normalized_of_inBounds (by decide)
  have hx : (endsOfRamadan.every .daily).CountsDaysExactly .hostless .unknown :=
    countsDaysExactly_of_range (normalized_every ho .daily) rfl (by decide)
  have hmonthly : (endsOfRamadan.every .monthly).EndsByLast .hostless .unknown :=
    ⟨1, by decide, by decide, Or.inl ⟨_, rfl, by decide⟩⟩
  have hdaily : (endsOfRamadan.every .daily).EndsByLast .hostless .unknown :=
    (endsByLast_daily_iff ho rfl hx).2 ⟨30, by decide, by decide, by decide⟩
  refine ⟨ho, rfl, rfl, rfl, rfl, rfl, rfl, by decide, hmonthly, hdaily, ?_, ?_⟩
  · decide +kernel
  · decide +kernel

end HijriRecurrence.RuleOptions
