import HijriRecurrence.Proofs.Rule.DayParts
import HijriRecurrence.Proofs.Rule.Enumeration

/-!
# Which days a rule of months or years passes along

A rule of months or years that names its days by one part alone walks from period to period and
through the months of each.  Whether it passes along a day can be told from that day alone:
its month, or year, has to be a multiple of the interval away from the first date, its month has to
be one of the rule's, and the day has to match the part (`mem_occurrences_iff_of_months`).
-/

namespace HijriRecurrence.RuleOptions

open Tabular

variable {ctx : Context} {answers : Answers} {o : RuleOptions} {part : DayPart} {v : LunarDay}

/-- A rule of months or years that takes all days of its periods that one part names.  Positions in
the year stand for themselves in a yearly rule; any other part needs months there. -/
structure NamesDaysBy (o : RuleOptions) (part : DayPart) : Prop where
  positions : o.positions = []
  count : o.count = none
  skip : o.skip = .omit
  only : ∀ other, o.gives other = true ↔ other = part
  period : o.frequency = .monthly ∧ part ≠ .yearDays ∨
    o.frequency = .yearly ∧ (part = .yearDays ↔ o.months = [])

/-- Months from the first date of a rule to a day; years in a yearly rule. -/
def stepsTo (o : RuleOptions) (d : LunarDay) : Int :=
  match o.frequency with
  | .yearly => d.diffYears o.start.toLunarDay
  | _ => d.diffMonths o.start.toLunarDay

/-- Later days are no fewer steps away. -/
theorem stepsTo_nonneg (ho : o.Normalized ctx answers) (hv : o.variant = .tabular)
    (hday : IsDay v) (h : o.start.toLunarDay ≤ v) : 0 ≤ o.stepsTo v := by
  obtain ⟨-, hm, hm', -, -⟩ := hday
  obtain ⟨-, hsm, hsm', -, -⟩ := ho.isDay_start hv
  rw [LunarDay.le_def, LunarDay.lt_def] at h
  unfold stepsTo LunarDay.diffYears LunarDay.diffMonths
  split <;> omega

/-- A period of a yearly rule has the year that is as many steps away. -/
theorem year_eq_cursor_iff (hfreq : o.frequency = .yearly) (d : LunarDay) (period : Int) :
    d.year = (o.cursorDay period).year ↔ period * o.interval = o.stepsTo d := by
  rw [cursorDay, stepsTo, LunarDay.diffYears, hfreq]
  simp only [clamp]
  omega

/-- A period of a monthly rule has the month that is as many steps away. -/
theorem month_eq_cursor_iff (hfreq : o.frequency = .monthly) {d : LunarDay}
    (hm : 1 ≤ d.month ∧ d.month ≤ 12) (period : Int) :
    d.year = (o.cursorDay period).year ∧ d.month = (o.cursorDay period).month ↔
      period * o.interval = o.stepsTo d := by
  rw [cursorDay, stepsTo, LunarDay.diffMonths, LunarDate.monthIndex, hfreq]
  simp only [clamp]
  omega

theorem allowsMonth_iff {month : Int} :
    o.allowsMonth month = true ↔ o.months = [] ∨ month ∈ o.months := by
  rw [allowsMonth, Bool.or_eq_true, List.isEmpty_iff, List.contains_iff_mem]

/-- The days of a year. -/
theorem mem_proposedDays_of_yearly (ho : o.Normalized ctx answers) (hv : o.variant = .tabular)
    (h : o.NamesDaysBy part) (hfreq : o.frequency = .yearly) (hday : IsDay v) {period : Int}
    (hk : 0 ≤ period) :
    v ∈ o.proposedDays (o.cursorDay period) ↔ period * o.interval = o.stepsTo v ∧
      (o.months = [] ∨ v.month ∈ o.months) ∧ o.MatchesPart v part := by
  have hc := isDay_cursorDay ho hv hk
  have hyear := year_eq_cursor_iff hfreq v period
  have hpart : part = .yearDays ↔ o.months = [] := by
    rcases h.period with ⟨hmonthly, -⟩ | ⟨-, hpart⟩
    · exact absurd (hmonthly.symm.trans hfreq) (by decide)
    · exact hpart
  rw [proposedDays, hfreq, ← hyear]
  dsimp only
  by_cases hmonths : o.months = []
  · obtain rfl := hpart.2 hmonths
    have hnone : ∀ other, other ≠ .yearDays → o.gives other = false := by
      intro other hother
      exact Bool.eq_false_iff.2 fun hgives => hother ((h.only other).1 hgives)
    have hdays : (!o.monthDays.isEmpty) = false := hnone .monthDays (by decide)
    have hfromEnd : (!o.monthDaysFromEnd.isEmpty) = false := hnone .monthDaysFromEnd (by decide)
    have hweekdays : o.weekdays.isEmpty = true := by
      simpa [gives] using hnone .weekdays (by decide)
    have hyearDays : (!o.yearDays.isEmpty) = true := (h.only .yearDays).2 rfl
    rw [daysInYear, usualDaysOfYear, hmonths, hdays, hfromEnd, hyearDays, hweekdays]
    simp only [List.isEmpty_nil, Bool.not_true, Bool.false_eq_true, if_false, Bool.or_self,
      if_true, true_or, true_and]
    exact mem_yearDays_iff hday
  · rw [daysInYear_of_months hmonths, List.mem_flatMap]
    constructor
    · rintro ⟨month, hmonth, hmem⟩
      obtain ⟨hyear, rfl, hmatch⟩ := (mem_daysInMonth_iff h.skip h.only (mt hpart.1 hmonths) hc.1
        (ho.months month hmonth) hday).1 hmem
      exact ⟨hyear, Or.inr hmonth, hmatch⟩
    · rintro ⟨hyear, hmonth, hmatch⟩
      have hmem := hmonth.resolve_left hmonths
      exact ⟨v.month, hmem, (mem_daysInMonth_iff h.skip h.only (mt hpart.1 hmonths) hc.1
        (ho.months _ hmem) hday).2 ⟨hyear, rfl, hmatch⟩⟩

/-- The days of a month. -/
theorem mem_proposedDays_of_monthly (ho : o.Normalized ctx answers) (hv : o.variant = .tabular)
    (h : o.NamesDaysBy part) (hfreq : o.frequency = .monthly) (hday : IsDay v) {period : Int}
    (hk : 0 ≤ period) :
    v ∈ o.proposedDays (o.cursorDay period) ↔ period * o.interval = o.stepsTo v ∧
      (o.months = [] ∨ v.month ∈ o.months) ∧ o.MatchesPart v part := by
  have hc := isDay_cursorDay ho hv hk
  have hmonth := month_eq_cursor_iff hfreq ⟨hday.2.1, hday.2.2.1⟩ period
  have hpart : part ≠ .yearDays := by
    rcases h.period with ⟨-, hpart⟩ | ⟨hyearly, -⟩
    · exact hpart
    · exact absurd (hfreq.symm.trans hyearly) (by decide)
  have hdays : v ∈ o.daysInMonth (o.cursorDay period).year (o.cursorDay period).month
      (o.cursorDay period).day ↔ _ :=
    mem_daysInMonth_iff h.skip h.only hpart hc.1 ⟨hc.2.1, hc.2.2.1⟩ hday
  rw [proposedDays, hfreq, ← hmonth]
  dsimp only
  rw [List.mem_ite_nil_right, allowsMonth_iff, hdays]
  constructor
  · intro ⟨hallows, hyear, hmonth, hmatch⟩
    exact ⟨⟨hyear, hmonth⟩, hmonth ▸ hallows, hmatch⟩
  · intro ⟨⟨hyear, hmonth⟩, hallows, hmatch⟩
    exact ⟨hmonth ▸ hallows, hyear, hmonth, hmatch⟩

/-- **Whether a rule of months or years passes along a day can be told from the day alone.**  The
day is one that exists, within the dates of the rule and the limit on its periods. -/
theorem mem_occurrences_iff_of_months (ho : o.Normalized ctx answers) (hv : o.variant = .tabular)
    (h : o.NamesDaysBy part) (hday : IsDay v) (hstart : o.start.toLunarDay ≤ v)
    (hlast : ∀ last ∈ o.last, v ≤ last.toLunarDay)
    (hlimit : o.stepsTo v / o.interval < o.periodLimit) :
    (∃ d ∈ (o.occurrences ctx).items answers, d.toLunarDay = v) ↔
      o.interval ∣ o.stepsTo v ∧ (o.months = [] ∨ v.month ∈ o.months) ∧ o.MatchesPart v part := by
  have hfreq : o.frequency = .yearly ∨ o.frequency = .monthly :=
    h.period.elim (fun hm => Or.inr hm.1) (fun hy => Or.inl hy.1)
  have hx := countsDaysExactly_of_months ho hv hfreq
  have hproposed : ∀ period, 0 ≤ period → (v ∈ o.proposedDays (o.cursorDay period) ↔
      period * o.interval = o.stepsTo v ∧
        (o.months = [] ∨ v.month ∈ o.months) ∧ o.MatchesPart v part) := by
    intro period hk
    rcases hfreq with hyearly | hmonthly
    · exact mem_proposedDays_of_yearly ho hv h hyearly hday hk
    · exact mem_proposedDays_of_monthly ho hv h hmonthly hday hk
  exact mem_occurrences_iff_dvd ho hv hx h.count h.positions hstart hlast
    (stepsTo_nonneg ho hv hday hstart) hlimit hproposed

/-- The last Sunday and the fifth Wednesday of the first and the last month, every third year. -/
def lastSundays : RuleOptions where
  frequency := .yearly
  start := { year := 1442, month := 1, day := 1, variant := .tabular }
  interval := 3
  months := [1, 12]
  nthWeekdays := [⟨6, some (-1)⟩, ⟨2, some 5⟩]
  variant := .tabular

/-- The thirtieth day that only leap years have can be a last Sunday. -/
theorem mem_occurrences_lastSundays :
    lastSundays.Normalized .hostless .unknown ∧ lastSundays.NamesDaysBy .nthWeekdays ∧
    IsDay ⟨1445, 12, 30⟩ ∧ lastSundays.start.toLunarDay ≤ ⟨1445, 12, 30⟩ ∧
    lastSundays.stepsTo ⟨1445, 12, 30⟩ / lastSundays.interval < lastSundays.periodLimit ∧
    ∃ d ∈ (lastSundays.occurrences .hostless).items .unknown,
      d.toLunarDay = ⟨1445, 12, 30⟩ := by
  have ho : lastSundays.Normalized .hostless .unknown := normalized_of_inBounds (by decide)
  have hnames : lastSundays.NamesDaysBy .nthWeekdays :=
    { positions := rfl, count := rfl, skip := rfl
      only := fun other => by cases other <;> decide
      period := Or.inr ⟨rfl, by decide⟩ }
  refine ⟨ho, hnames, by decide, by decide, by decide, ?_⟩
  refine (mem_occurrences_iff_of_months ho rfl hnames (by decide) (by decide)
    (by decide) (by decide)).2 ⟨by decide, by decide, ?_⟩
  exact ⟨⟨6, some (-1)⟩, by decide, by decide, -1, rfl, Or.inr (by decide)⟩

end HijriRecurrence.RuleOptions
