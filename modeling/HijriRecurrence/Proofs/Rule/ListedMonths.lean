import HijriRecurrence.Proofs.Rule.DayParts
import HijriRecurrence.Proofs.Rule.LastDate

/-!
# Listed months, by the year and by the month

A rule that lists months and names the days in them can be walked in two ways.  By the year it goes
through the listed months of one year after the other; by the month it goes through all months and
passes over those that are not listed.  The two propose the same days, with one exception: by the
year the months before the first date count too, in its year, and a day that the last of them lacks
may be pushed forward onto the first date itself (`PushesOntoStart`).

* `hasDay_yearly_iff`, `hasDay_monthly_iff` — the days of either walk, by the month that lists them;
* `hasDay_yearly_iff_monthly` — what the walk by the year has beyond the walk by the month;
* `yields_yearly_of_monthly` — what the two yield.
-/

namespace HijriRecurrence

namespace Tabular

/-- A request for a day of a month stands for that day, or for what the policy puts in the place of
a day that the month lacks. -/
theorem resolve_eq_some_iff {year month day : Int} {skip : Skip} {d : LunarDay} :
    resolve year month day skip = some d ↔ 1 ≤ day ∧
      (day ≤ monthDays year month ∧ d = ⟨year, month, day⟩ ∨
        monthDays year month < day ∧
          (skip = .backward ∧ d = ⟨year, month, monthDays year month⟩ ∨
            skip = .forward ∧ d = firstOfNextMonth year month)) := by
  unfold resolve
  by_cases hpos : day < 1
  · rw [if_pos hpos]
    refine ⟨fun h => absurd h (by simp), fun h => ?_⟩
    omega
  · rw [if_neg hpos]
    by_cases hfit : day ≤ monthDays year month
    · rw [if_pos hfit, Option.some_inj]
      constructor
      · rintro rfl
        exact ⟨by omega, Or.inl ⟨hfit, rfl⟩⟩
      · rintro ⟨-, ⟨-, rfl⟩ | ⟨hlacks, -⟩⟩
        · rfl
        · omega
    · rw [if_neg hfit]
      have hlacks : monthDays year month < day := by omega
      have hday : 1 ≤ day := by omega
      cases skip <;> simp [hfit, hlacks, hday, eq_comm]

theorem firstOfNextMonth_ne (year month : Int) :
    firstOfNextMonth year month ≠ ⟨year, month, 1⟩ := by
  unfold firstOfNextMonth
  split
  · intro h
    have hyear : year + 1 = year := congrArg LunarDay.year h
    omega
  · intro h
    have hmonth : month + 1 = month := congrArg LunarDay.month h
    omega

end Tabular

namespace RuleOptions

open Tabular

variable {ctx : Context} {answers : Answers} {o : RuleOptions} {d : LunarDay}

/-! ### Days listed in a month -/

/-- A rule names the days of its months by one of its parts. -/
def NamesDays (o : RuleOptions) : Prop := ∃ part, part ≠ DayPart.yearDays ∧ o.gives part = true

/-- A month is one of the rule's, and the rule proposes a day in it. -/
def ListsDay (o : RuleOptions) (year month : Int) (d : LunarDay) : Prop :=
  month ∈ o.months ∧ d ∈ o.daysInMonth year month 1

/-- Where days are named, the usual day has no effect. -/
theorem daysInMonth_usualDay (h : o.NamesDays) (year month usualDay : Int) :
    o.daysInMonth year month usualDay = o.daysInMonth year month 1 := by
  obtain ⟨part, hpart, hgives⟩ := h
  unfold daysInMonth
  cases part with
  | monthDays | monthDaysFromEnd | nthWeekdays | weekdays =>
    rw [gives] at hgives
    rw [if_pos hgives, if_pos hgives]
  | yearDays => exact absurd rfl hpart

/-- A listed day lies in the month that lists it, or it is the first one after it. -/
theorem ListsDay.isDay (ho : o.Normalized ctx answers) {year month : Int} (hy : 1 ≤ year)
    (h : o.ListsDay year month d) :
    IsDay d ∧ (d.year = year ∧ d.month = month ∨ d = firstOfNextMonth year month) :=
  isDay_of_mem_daysInMonth (fun n hn => (ho.monthDaysFromEnd n hn).2) hy (ho.months _ h.1)
    (Int.le_refl 1) h.2

/-- Only a day that a month lacks is pushed out of it. -/
theorem exists_lacking_of_listsDay (ho : o.Normalized ctx answers) {year month : Int}
    (hy : 1 ≤ year) (h : o.ListsDay year month d) (hne : d.month ≠ month) :
    o.skip = .forward ∧ ∃ n ∈ o.monthDays, Tabular.monthDays year month < n := by
  obtain ⟨hmonth, hmem⟩ := h
  have hm := ho.months month hmonth
  unfold daysInMonth at hmem
  split at hmem
  · obtain ⟨n, hn, hresolve⟩ := List.mem_filterMap.1 hmem
    obtain ⟨-, ⟨-, rfl⟩ | ⟨hlacks, ⟨-, rfl⟩ | ⟨hskip, -⟩⟩⟩ := resolve_eq_some_iff.1 hresolve
    · exact absurd rfl hne
    · exact absurd rfl hne
    · exact ⟨hskip, n, hn, hlacks⟩
  · split at hmem
    · obtain ⟨n, hn, hfromEnd⟩ := List.mem_filterMap.1 hmem
      unfold fromEnd at hfromEnd
      split at hfromEnd
      · rw [← Option.some.inj hfromEnd] at hne
        exact absurd rfl hne
      · exact absurd hfromEnd (by simp)
    · split at hmem
      · obtain ⟨w, -, hw⟩ := List.mem_filterMap.1 hmem
        exact absurd (isDay_of_nthWeekday hy hm hw).2.2 hne
      · split at hmem
        · exact absurd ((mem_daysOfMonth hy hm).1 (List.mem_filter.1 hmem).1).2.2 hne
        · rw [List.mem_singleton.1 hmem] at hne
          exact absurd rfl hne

/-- A day that a month lacks is pushed onto the first day after it. -/
theorem listsDay_firstOfNextMonth {year month n : Int} (hmonth : month ∈ o.months)
    (hskip : o.skip = .forward) (hn : n ∈ o.monthDays)
    (hlacks : Tabular.monthDays year month < n) :
    o.ListsDay year month (firstOfNextMonth year month) := by
  have hlength := (monthDays_bounds year month).1
  have hgiven : (!o.monthDays.isEmpty) = true := by
    simpa using List.ne_nil_of_mem hn
  refine ⟨hmonth, ?_⟩
  rw [daysInMonth, if_pos hgiven, List.mem_filterMap]
  exact ⟨n, hn, resolve_eq_some_iff.2 ⟨by omega, Or.inr ⟨hlacks, Or.inr ⟨hskip, rfl⟩⟩⟩⟩

/-- In a month of a rule that gives month days its first day is listed by itself alone. -/
theorem listsDay_first_iff (hgiven : o.monthDays ≠ []) {year month : Int} :
    o.ListsDay year month ⟨year, month, 1⟩ ↔ month ∈ o.months ∧ 1 ∈ o.monthDays := by
  have hlength := (monthDays_bounds year month).1
  rw [ListsDay, daysInMonth, if_pos (by simpa using hgiven), List.mem_filterMap]
  refine and_congr_right fun _ => ?_
  constructor
  · rintro ⟨n, hn, hresolve⟩
    obtain ⟨-, ⟨-, heq⟩ | ⟨hlacks, ⟨-, heq⟩ | ⟨-, heq⟩⟩⟩ := resolve_eq_some_iff.1 hresolve
    · obtain rfl : 1 = n := congrArg LunarDay.day heq
      exact hn
    · have hone : 1 = Tabular.monthDays year month := congrArg LunarDay.day heq
      omega
    · exact absurd heq (firstOfNextMonth_ne year month).symm
  · intro hone
    exact ⟨1, hone, resolve_eq_some_iff.2 ⟨by omega, Or.inl ⟨by omega, rfl⟩⟩⟩

/-! ### The two walks -/

/-- By the year, a rule has the days that its months list from the year of the first date on. -/
theorem hasDay_yearly_iff (hi : o.interval = 1) (hpos : o.positions = []) (hmonths : o.months ≠ [])
    (hnames : o.NamesDays) :
    (o.every .yearly).HasDay d ↔
      (∃ year month, o.start.year ≤ year ∧ o.ListsDay year month d) ∧
        o.start.toLunarDay ≤ d ∧ ∀ last ∈ o.last, d ≤ last.toLunarDay := by
  have hproposed : ∀ period, d ∈ (o.every .yearly).daysOfPeriod ((o.every .yearly).cursorDay period)
      ↔ ∃ month, o.ListsDay (o.start.year + period) month d := by
    intro period
    have hcursor : (o.every .yearly).cursorDay period =
        clamp (o.start.year + period * o.interval) o.start.month o.start.day := rfl
    rw [mem_daysOfPeriod (o := o.every .yearly) hpos, hcursor, hi, Int.mul_one]
    show d ∈ o.daysInYear _ ↔ _
    rw [daysInYear_of_months hmonths, List.mem_flatMap]
    simp only [daysInMonth_usualDay hnames]
    rfl
  refine and_congr_left fun _ => ?_
  constructor
  · rintro ⟨period, hk, hd⟩
    obtain ⟨month, hlists⟩ := (hproposed period).1 hd
    exact ⟨_, month, by omega, hlists⟩
  · rintro ⟨year, month, hyear, hlists⟩
    refine ⟨year - o.start.year, by omega, (hproposed _).2 ⟨month, ?_⟩⟩
    rwa [show o.start.year + (year - o.start.year) = year by omega]

/-- By the month, a rule has the days that its months list from the month of the first date on. -/
theorem hasDay_monthly_iff (ho : o.Normalized ctx answers) (hv : o.variant = .tabular)
    (hi : o.interval = 1) (hpos : o.positions = []) (hmonths : o.months ≠ [])
    (hnames : o.NamesDays) :
    (o.every .monthly).HasDay d ↔
      (∃ year month,
        (o.start.year < year ∨ o.start.year = year ∧ o.start.month ≤ month) ∧
          o.ListsDay year month d) ∧
        o.start.toLunarDay ≤ d ∧ ∀ last ∈ o.last, d ≤ last.toLunarDay := by
  obtain ⟨-, hm, hm', -, -⟩ := ho.isDay_start hv
  have hproposed : ∀ period,
      d ∈ (o.every .monthly).daysOfPeriod ((o.every .monthly).cursorDay period) ↔
        o.ListsDay ((LunarDate.monthIndex o.start.toLunarDay + period) / 12 + 1)
          ((LunarDate.monthIndex o.start.toLunarDay + period) % 12 + 1) d := by
    intro period
    rw [mem_daysOfPeriod_every_monthly hi hpos rfl, daysInMonth_usualDay hnames, ListsDay,
      allowsMonth, Bool.or_eq_true, List.contains_iff_mem, or_iff_right (by simpa using hmonths)]
  unfold LunarDate.monthIndex at hproposed
  refine and_congr_left fun _ => ?_
  constructor
  · rintro ⟨period, hk, hd⟩
    exact ⟨_, _, by omega, (hproposed period).1 hd⟩
  · rintro ⟨year, month, hfrom, hlists⟩
    have hrange := ho.months _ hlists.1
    refine ⟨(year - o.start.year) * 12 + (month - o.start.month), by omega, (hproposed _).2 ?_⟩
    have hyear : ((o.start.year - 1) * 12 + (o.start.month - 1) +
        ((year - o.start.year) * 12 + (month - o.start.month))) / 12 + 1 = year := by omega
    have hmonth : ((o.start.year - 1) * 12 + (o.start.month - 1) +
        ((year - o.start.year) * 12 + (month - o.start.month))) % 12 + 1 = month := by omega
    rwa [hyear, hmonth]

/-- The last month before the first date pushes a day onto it that the rule would not have on its
own account. -/
structure PushesOntoStart (o : RuleOptions) : Prop where
  skip : o.skip = .forward
  start_day : o.start.day = 1
  month : o.start.month - 1 ∈ o.months
  lacks : ∃ n ∈ o.monthDays, Tabular.monthDays o.start.year (o.start.month - 1) < n
  not_listed : ¬(o.start.month ∈ o.months ∧ 1 ∈ o.monthDays)
  within : ∀ last ∈ o.last, o.start.toLunarDay ≤ last.toLunarDay

/-- A day that a month before the first date lists is the first date, if it is not before it. -/
theorem ListsDay.eq_start (ho : o.Normalized ctx answers) (hv : o.variant = .tabular)
    {month : Int} (hbefore : month < o.start.month) (h : o.ListsDay o.start.year month d)
    (hstart : o.start.toLunarDay ≤ d) :
    d = o.start.toLunarDay ∧ o.start.day = 1 ∧ o.start.month = month + 1 := by
  obtain ⟨hy, -, hm, hd, -⟩ := ho.isDay_start hv
  obtain ⟨-, hwhere⟩ := h.isDay ho hy
  rw [LunarDay.le_def, LunarDay.lt_def] at hstart
  rcases hwhere with ⟨hyear, hmonth⟩ | rfl
  · omega
  · rw [firstOfNextMonth, if_neg (show ¬month = 12 by omega)] at hstart ⊢
    dsimp only at hstart
    have hmonth : month + 1 = o.start.month := by omega
    have hday : 1 = o.start.day := by omega
    exact ⟨LunarDay.ext_fields rfl hmonth hday, hday.symm, hmonth.symm⟩

/-- By the month, a rule does not have a first date that is only pushed onto. -/
theorem PushesOntoStart.not_hasDay_monthly (ho : o.Normalized ctx answers)
    (hv : o.variant = .tabular) (hi : o.interval = 1) (hpos : o.positions = [])
    (hmonths : o.months ≠ []) (hnames : o.NamesDays) (h : o.PushesOntoStart) :
    ¬(o.every .monthly).HasDay o.start.toLunarDay := by
  rw [hasDay_monthly_iff ho hv hi hpos hmonths hnames]
  rintro ⟨⟨year, month, hfrom, hlists⟩, -, -⟩
  obtain ⟨hy, hm, hm', -, -⟩ := ho.isDay_start hv
  obtain ⟨n, hn, -⟩ := h.lacks
  obtain ⟨-, ⟨hyear, hmonth⟩ | hnext⟩ := hlists.isDay ho (by omega)
  · obtain rfl : o.start.year = year := hyear
    obtain rfl : o.start.month = month := hmonth
    have hfirst : o.start.toLunarDay = ⟨o.start.year, o.start.month, 1⟩ :=
      LunarDay.ext_fields rfl rfl h.start_day
    rw [hfirst, listsDay_first_iff (List.ne_nil_of_mem hn)] at hlists
    exact h.not_listed hlists
  · -- the month after one that is not before the first date is not the first date's
    unfold firstOfNextMonth at hnext
    split at hnext
    · have hyear : o.start.year = year + 1 := congrArg LunarDay.year hnext
      omega
    · have hyear : o.start.year = year := congrArg LunarDay.year hnext
      have hmonth : o.start.month = month + 1 := congrArg LunarDay.month hnext
      omega

/-- **The walk by the year has the days of the walk by the month, and at most the first date
besides.** -/
theorem hasDay_yearly_iff_monthly (ho : o.Normalized ctx answers) (hv : o.variant = .tabular)
    (hi : o.interval = 1) (hpos : o.positions = []) (hmonths : o.months ≠ [])
    (hnames : o.NamesDays) :
    (o.every .yearly).HasDay d ↔
      (o.every .monthly).HasDay d ∨ d = o.start.toLunarDay ∧ o.PushesOntoStart := by
  obtain ⟨hy, hm, hm', -, -⟩ := ho.isDay_start hv
  rw [hasDay_yearly_iff hi hpos hmonths hnames, hasDay_monthly_iff ho hv hi hpos hmonths hnames]
  constructor
  · rintro ⟨⟨year, month, hyear, hlists⟩, hstart, hlast⟩
    by_cases hfrom : o.start.year < year ∨ o.start.year = year ∧ o.start.month ≤ month
    · exact Or.inl ⟨⟨year, month, hfrom, hlists⟩, hstart, hlast⟩
    · -- a month before the first date in its year: the day is pushed out of it
      obtain rfl : o.start.year = year := by omega
      obtain ⟨rfl, hone, hnext⟩ := hlists.eq_start ho hv (by omega) hstart
      obtain ⟨hskip, hlacks⟩ := exists_lacking_of_listsDay ho hy hlists
        (show o.start.month ≠ month by omega)
      obtain rfl : month = o.start.month - 1 := by omega
      have hfirst : o.start.toLunarDay = ⟨o.start.year, o.start.month, 1⟩ :=
        LunarDay.ext_fields rfl rfl hone
      by_cases hlisted : o.start.month ∈ o.months ∧ 1 ∈ o.monthDays
      · refine Or.inl ⟨⟨o.start.year, o.start.month, by omega, ?_⟩, hstart, hlast⟩
        rw [hfirst]
        exact (listsDay_first_iff (List.ne_nil_of_mem hlisted.2)).2 hlisted
      · exact Or.inr ⟨rfl, hskip, hone, hlists.1, hlacks, hlisted, hlast⟩
  · rintro (⟨⟨year, month, hfrom, hlists⟩, hstart, hlast⟩ | ⟨rfl, h⟩)
    · exact ⟨⟨year, month, by omega, hlists⟩, hstart, hlast⟩
    · obtain ⟨n, hn, hlacks⟩ := h.lacks
      have hnext : firstOfNextMonth o.start.year (o.start.month - 1) = o.start.toLunarDay := by
        rw [firstOfNextMonth, if_neg (show ¬o.start.month - 1 = 12 by omega)]
        exact LunarDay.ext_fields rfl (by dsimp only; omega) h.start_day.symm
      refine ⟨⟨o.start.year, o.start.month - 1, Int.le_refl _, ?_⟩, LunarDay.le_refl _, h.within⟩
      have hlists := listsDay_firstOfNextMonth h.month h.skip hn hlacks
      rwa [hnext] at hlists

/-- **By the year and by the month, listed months yield the same dates.**  The one exception is a
first date that a day of the month before is pushed onto: by the year it comes first, by the month
it is left out. -/
theorem yields_yearly_of_monthly (ho : o.Normalized ctx answers) (hv : o.variant = .tabular)
    (hi : o.interval = 1) (hcount : o.count = none) (hpos : o.positions = [])
    (hmonths : o.months ≠ []) (hnames : o.NamesDays)
    (hyearly : (o.every .yearly).EndsByLast ctx answers)
    (hmonthly : (o.every .monthly).EndsByLast ctx answers) :
    ∃ dates, ((o.every .monthly).occurrences ctx).Yields answers dates ∧
      (¬o.PushesOntoStart → ((o.every .yearly).occurrences ctx).Yields answers dates) ∧
      (o.PushesOntoStart → o.start ∉ dates ∧
        ((o.every .yearly).occurrences ctx).Yields answers (o.start :: dates)) := by
  have hoy := normalized_every ho .yearly
  have hom := normalized_every ho .monthly
  obtain ⟨days, hdays, hhas, hyields⟩ := exists_yields_of_hasDay hom hv
    (countsDaysExactly_of_months hom hv (Or.inr rfl)) hcount hmonthly
  obtain ⟨others, hothers, hhas', hyields'⟩ := exists_yields_of_hasDay hoy hv
    (countsDaysExactly_of_months hoy hv (Or.inl rfl)) hcount hyearly
  have hiff : ∀ d, d ∈ others ↔ d ∈ days ∨ d = o.start.toLunarDay ∧ o.PushesOntoStart := by
    intro d
    rw [hhas', hhas, hasDay_yearly_iff_monthly ho hv hi hpos hmonths hnames]
  refine ⟨days.map o.occurrenceOn, hyields, fun hnot => ?_, fun hpushes => ?_⟩
  · have hsame : others = days := LunarDay.eq_of_mem_iff hothers hdays fun d => by
      rw [hiff, or_iff_left fun h => hnot h.2]
    rwa [hsame] at hyields'
  · have hnot : o.start.toLunarDay ∉ days := fun hmem =>
      hpushes.not_hasDay_monthly ho hv hi hpos hmonths hnames ((hhas _).1 hmem)
    have hfirst : (o.start.toLunarDay :: days).Pairwise (· < ·) := by
      refine List.pairwise_cons.2 ⟨fun d hd => ?_, hdays⟩
      rcases LunarDay.lt_or_eq_of_le ((hhas d).1 hd).2.1 with hlt | heq
      · exact hlt
      · exact absurd (heq ▸ hd) hnot
    have hsame : others = o.start.toLunarDay :: days :=
      LunarDay.eq_of_mem_iff hothers hfirst fun d => by
        rw [hiff, List.mem_cons, and_iff_left hpushes, or_comm]
    refine ⟨fun hmem => ?_, ?_⟩
    · obtain ⟨d, hd, heq⟩ := List.mem_map.1 hmem
      exact hnot (show o.start.toLunarDay ∈ days from heq ▸ hd)
    · rw [hsame, List.map_cons, occurrenceOn_every, occurrenceOn_start ho] at hyields'
      exact hyields'

/-- The thirtieth of Safar, which this month lacks, pushed forward, for a year from the day on which
it lands. -/
def afterSafar : RuleOptions where
  frequency := .yearly
  start := { year := 1446, month := 3, day := 1, variant := .tabular }
  last := some { year := 1447, month := 3, day := 1, variant := .tabular }
  months := [2]
  monthDays := [30]
  skip := .forward
  variant := .tabular

/-- A year and a month start after the last date. -/
theorem endsByLast_afterSafar :
    (afterSafar.every .yearly).EndsByLast .hostless .unknown ∧
      (afterSafar.every .monthly).EndsByLast .hostless .unknown := by
  constructor
  · refine ⟨2, by decide, by decide, Or.inl ⟨_, rfl, ?_⟩⟩
    decide
  · refine ⟨13, by decide, by decide, Or.inl ⟨_, rfl, ?_⟩⟩
    decide

/-- The first date is pushed onto, so the two walks differ in it. -/
theorem yields_yearly_of_monthly_afterSafar :
    afterSafar.Normalized .hostless .unknown ∧ afterSafar.NamesDays ∧
    (afterSafar.every .yearly).EndsByLast .hostless .unknown ∧
    (afterSafar.every .monthly).EndsByLast .hostless .unknown ∧ afterSafar.PushesOntoStart ∧
    ∃ dates, ((afterSafar.every .monthly).occurrences .hostless).Yields .unknown dates ∧
      ((afterSafar.every .yearly).occurrences .hostless).Yields .unknown
        (afterSafar.start :: dates) := by
  have ho : afterSafar.Normalized .hostless .unknown := normalized_of_inBounds (by decide)
  have hnames : afterSafar.NamesDays := ⟨.monthDays, by decide, rfl⟩
  have hpushes : afterSafar.PushesOntoStart :=
    { skip := rfl, start_day := rfl, month := by decide, lacks := ⟨30, by decide, by decide⟩
      not_listed := by decide, within := by decide }
  obtain ⟨hyearly, hmonthly⟩ := endsByLast_afterSafar
  obtain ⟨dates, hdates, -, hpushed⟩ := yields_yearly_of_monthly ho rfl rfl rfl rfl (by decide)
    hnames hyearly hmonthly
  exact ⟨ho, hnames, hyearly, hmonthly, hpushes, dates, hdates, (hpushed hpushes).2⟩

/-- The walk by the year and the walk by the month do not always agree. -/
theorem yearly_ne_monthly_afterSafar :
    afterSafar.Normalized .hostless .unknown ∧ afterSafar.variant = .tabular ∧
    afterSafar.interval = 1 ∧ afterSafar.count = none ∧ afterSafar.positions = [] ∧
    afterSafar.months ≠ [] ∧ afterSafar.NamesDays ∧
    (afterSafar.every .yearly).EndsByLast .hostless .unknown ∧
    (afterSafar.every .monthly).EndsByLast .hostless .unknown ∧
    (((afterSafar.every .yearly).occurrences .hostless).items .unknown).map (·.toLunarDay) =
      [⟨1446, 3, 1⟩, ⟨1447, 3, 1⟩] ∧
    (((afterSafar.every .monthly).occurrences .hostless).items .unknown).map (·.toLunarDay) =
      [⟨1447, 3, 1⟩] := by
  obtain ⟨hyearly, hmonthly⟩ := endsByLast_afterSafar
  refine ⟨normalized_of_inBounds (by decide), rfl, rfl, rfl, rfl, by decide,
    ⟨.monthDays, by decide, rfl⟩, hyearly, hmonthly, ?_, ?_⟩
  · decide +kernel
  · decide +kernel

end RuleOptions

end HijriRecurrence
