import HijriRecurrence.Proofs.Rule.ListedMonths
import HijriRecurrence.Proofs.Rule.MonthMembership

/-!
# The skip policies compared

A rule may ask for a day of the month that some months lack.  The policy says what such a month has
in its place: nothing, its last day, or the first day of the month after it (`Tabular.standIn`).
However many days a month lacks, one day stands in for all of them, and it may be a day that the
rule has anyway, in this month or the next.

* `Tabular.exists_resolve_iff` — the days of one month under a policy: those asked for that the
  month has, and the day in the place of the others;
* `Visits` — the months that a rule looks at;
* `yields_under_each_skip` — what the three policies yield, compared as whole runs.
-/

namespace HijriRecurrence

/-! ### One month -/

namespace Tabular

variable {year month : Int} {d : LunarDay}

/-- The day that a policy puts in the place of days that a month lacks. -/
def standIn (year month : Int) : Skip → Option LunarDay
  | .omit => none
  | .backward => some ⟨year, month, monthDays year month⟩
  | .forward => some (firstOfNextMonth year month)

/-- A month has a day that is asked for. -/
def AsksFor (days : List Int) (year month : Int) (d : LunarDay) : Prop :=
  d.year = year ∧ d.month = month ∧ d.day ∈ days ∧ d.day ≤ monthDays year month

/-- Some day that is asked for is beyond the end of a month just when the greatest one is. -/
theorem exists_lacking_iff {days : List Int} {longest : Int} (h : days.max? = some longest) :
    (∃ n ∈ days, monthDays year month < n) ↔ monthDays year month < longest := by
  obtain ⟨hmem, hle⟩ := List.max?_eq_some_iff.1 h
  constructor
  · intro ⟨n, hn, hlacks⟩
    exact Int.lt_of_lt_of_le hlacks (hle n hn)
  · intro hlacks
    exact ⟨longest, hmem, hlacks⟩

/-- **The days of a month under a policy:** those asked for that the month has, and, if it lacks
any, the day in their place. -/
theorem exists_resolve_iff {days : List Int} (hdays : ∀ n ∈ days, 1 ≤ n) {longest : Int}
    (h : days.max? = some longest) {skip : Skip} :
    (∃ n ∈ days, resolve year month n skip = some d) ↔
      AsksFor days year month d ∨
        monthDays year month < longest ∧ standIn year month skip = some d := by
  rw [← exists_lacking_iff h]
  constructor
  · intro ⟨n, hn, hresolve⟩
    obtain ⟨-, ⟨hfits, rfl⟩ | ⟨hlacks, ⟨rfl, rfl⟩ | ⟨rfl, rfl⟩⟩⟩ := resolve_eq_some_iff.1 hresolve
    · exact .inl ⟨rfl, rfl, hn, hfits⟩
    · exact .inr ⟨⟨n, hn, hlacks⟩, rfl⟩
    · exact .inr ⟨⟨n, hn, hlacks⟩, rfl⟩
  · rintro (⟨rfl, rfl, hn, hfits⟩ | ⟨⟨n, hn, hlacks⟩, hstand⟩)
    · exact ⟨d.day, hn, resolve_eq_some_iff.2 ⟨hdays _ hn, .inl ⟨hfits, rfl⟩⟩⟩
    · refine ⟨n, hn, resolve_eq_some_iff.2 ⟨hdays n hn, .inr ⟨hlacks, ?_⟩⟩⟩
      cases skip with
      | «omit» => cases hstand
      | backward => exact .inl ⟨rfl, (Option.some.inj hstand).symm⟩
      | forward => exact .inr ⟨rfl, (Option.some.inj hstand).symm⟩

end Tabular

namespace RuleOptions

open Tabular

variable {ctx : Context} {answers : Answers} {o : RuleOptions} {d : LunarDay}

/-! ### The months of a rule -/

/-- A rule of months or years looks at a month: the month is one of the rule's, and some period
within the limit is its month, or its year. -/
def Visits (o : RuleOptions) (year month : Int) : Prop :=
  (1 ≤ month ∧ month ≤ 12) ∧ (o.months = [] ∨ month ∈ o.months) ∧
    ∃ period, 0 ≤ period ∧ period < o.periodLimit ∧
      period * o.interval = o.stepsTo ⟨year, month, 1⟩

/-- A day is within the dates of a rule. -/
def Admits (o : RuleOptions) (d : LunarDay) : Prop :=
  o.start.toLunarDay ≤ d ∧ ∀ last ∈ o.last, d ≤ last.toLunarDay

/-- Where month days are given, they alone name the days of a month. -/
theorem mem_daysInMonth_of_monthDays (h : o.monthDays ≠ []) {year month usualDay : Int} :
    d ∈ o.daysInMonth year month usualDay ↔
      ∃ n ∈ o.monthDays, resolve year month n o.skip = some d := by
  have hgiven : (!o.monthDays.isEmpty) = true := by simpa using h
  rw [daysInMonth, if_pos hgiven, List.mem_filterMap]

/-- In a month the rule proposes its days of the month, if the month is one of its own. -/
theorem mem_proposedDays_monthly (hfreq : o.frequency = .monthly) (hdays : o.monthDays ≠ [])
    {cursor : LunarDay} :
    d ∈ o.proposedDays cursor ↔ (o.months = [] ∨ cursor.month ∈ o.months) ∧
      ∃ n ∈ o.monthDays, resolve cursor.year cursor.month n o.skip = some d := by
  rw [proposedDays, hfreq, ← allowsMonth_iff, ← mem_daysInMonth_of_monthDays hdays]
  exact List.mem_ite_nil_right

/-- In a year the rule proposes the days of each of its months. -/
theorem mem_proposedDays_yearly (hfreq : o.frequency = .yearly) (hmonths : o.months ≠ [])
    (hdays : o.monthDays ≠ []) {cursor : LunarDay} :
    d ∈ o.proposedDays cursor ↔ ∃ month ∈ o.months,
      ∃ n ∈ o.monthDays, resolve cursor.year month n o.skip = some d := by
  rw [proposedDays, hfreq]
  dsimp only
  rw [daysInYear_of_months hmonths, List.mem_flatMap]
  simp only [mem_daysInMonth_of_monthDays hdays]

/-- **The days that any period proposes are those of the months that the rule visits.** -/
theorem exists_period_iff_visits (ho : o.Normalized ctx answers) (hv : o.variant = .tabular)
    (hfreq : o.frequency = .monthly ∨ o.frequency = .yearly ∧ o.months ≠ [])
    (hdays : o.monthDays ≠ []) :
    (∃ period, 0 ≤ period ∧ period < o.periodLimit ∧ d ∈ o.proposedDays (o.cursorDay period)) ↔
      ∃ year month, o.Visits year month ∧
        ∃ n ∈ o.monthDays, resolve year month n o.skip = some d := by
  rcases hfreq with hmonthly | ⟨hyearly, hmonths⟩
  · constructor
    · intro ⟨period, hk, hlimit, hmem⟩
      obtain ⟨hallows, hresolve⟩ := (mem_proposedDays_monthly hmonthly hdays).1 hmem
      obtain ⟨-, hm, hm', -, -⟩ := isDay_cursorDay ho hv hk
      have hsteps := (month_eq_cursor_iff hmonthly (d := ⟨_, _, 1⟩) ⟨hm, hm'⟩ period).1 ⟨rfl, rfl⟩
      exact ⟨_, _, ⟨⟨hm, hm'⟩, hallows, period, hk, hlimit, hsteps⟩, hresolve⟩
    · intro ⟨year, month, ⟨hm, hallows, period, hk, hlimit, hsteps⟩, hresolve⟩
      obtain ⟨rfl, rfl⟩ : year = (o.cursorDay period).year ∧ month = (o.cursorDay period).month :=
        (month_eq_cursor_iff hmonthly (d := ⟨year, month, 1⟩) hm period).2 hsteps
      exact ⟨period, hk, hlimit, (mem_proposedDays_monthly hmonthly hdays).2 ⟨hallows, hresolve⟩⟩
  · constructor
    · intro ⟨period, hk, hlimit, hmem⟩
      obtain ⟨month, hmonth, hresolve⟩ := (mem_proposedDays_yearly hyearly hmonths hdays).1 hmem
      have hsteps := (year_eq_cursor_iff hyearly ⟨_, month, 1⟩ period).1 rfl
      exact ⟨_, month, ⟨ho.months month hmonth, .inr hmonth, period, hk, hlimit, hsteps⟩, hresolve⟩
    · intro ⟨year, month, ⟨_, hallows, period, hk, hlimit, hsteps⟩, hresolve⟩
      obtain rfl : year = (o.cursorDay period).year :=
        (year_eq_cursor_iff hyearly ⟨year, month, 1⟩ period).2 hsteps
      have hmem := hallows.resolve_left hmonths
      exact ⟨period, hk, hlimit,
        (mem_proposedDays_yearly hyearly hmonths hdays).2 ⟨month, hmem, hresolve⟩⟩

/-- A rule yields, within its dates, the days asked for that the months it visits have, and the days
in the place of those that they lack. -/
theorem exists_yields_of_visits (ho : o.Normalized ctx answers) (hv : o.variant = .tabular)
    (hfreq : o.frequency = .monthly ∨ o.frequency = .yearly ∧ o.months ≠ [])
    (hcount : o.count = none) (hpos : o.positions = []) {longest : Int}
    (hlongest : o.monthDays.max? = some longest) :
    ∃ days : List LunarDay, days.Pairwise (· < ·) ∧
      (o.occurrences ctx).Yields answers (days.map o.occurrenceOn) ∧
      ∀ d, d ∈ days ↔ o.Admits d ∧ ∃ year month, o.Visits year month ∧
        (AsksFor o.monthDays year month d ∨
          Tabular.monthDays year month < longest ∧ standIn year month o.skip = some d) := by
  have hx : o.CountsDaysExactly ctx answers :=
    countsDaysExactly_of_months ho hv (hfreq.symm.imp And.left id)
  have hgiven : o.monthDays ≠ [] := by
    intro hnil
    rw [hnil] at hlongest
    cases hlongest
  have hlimit := periodLimit_pos o
  obtain ⟨days, hdeclared, hyields⟩ := occurrences_yield ho hv hx
  rw [cutToCount, hcount] at hyields
  refine ⟨days, hdeclared.increasing, hyields, ?_⟩
  intro d
  have hmonths := exists_period_iff_visits (d := d) ho hv hfreq hgiven
  simp only [exists_resolve_iff (fun n hn => (ho.monthDays n hn).1) hlongest] at hmonths
  rw [hdeclared.mem_iff, ← hmonths, isWithin_iff, isNew_none_iff]
  constructor
  · rintro ⟨⟨period, hk, hlt, hd⟩, hlast, hstart⟩
    exact ⟨⟨hstart, hlast⟩, period, hk, by omega, (mem_daysOfPeriod hpos).1 hd⟩
  · rintro ⟨⟨hstart, hlast⟩, period, hk, hlt, hd⟩
    exact ⟨⟨period, hk, by omega, (mem_daysOfPeriod hpos).2 hd⟩, hlast, hstart⟩

/-! ### One rule under several policies -/

/-- The rule with the same parts and another policy. -/
def under (o : RuleOptions) (skip : Skip) : RuleOptions := { o with skip }

theorem normalized_under (ho : o.Normalized ctx answers) (skip : Skip) :
    (o.under skip).Normalized ctx answers := { ho with }

/-- A policy has a say only in what takes the place of the days that a month lacks. -/
theorem exists_yields_under (ho : o.Normalized ctx answers) (hv : o.variant = .tabular)
    (hfreq : o.frequency = .monthly ∨ o.frequency = .yearly ∧ o.months ≠ [])
    (hcount : o.count = none) (hpos : o.positions = []) {longest : Int}
    (hlongest : o.monthDays.max? = some longest) (skip : Skip) :
    ∃ days : List LunarDay, days.Pairwise (· < ·) ∧
      ((o.under skip).occurrences ctx).Yields answers (days.map o.occurrenceOn) ∧
      ∀ d, d ∈ days ↔
        (o.Admits d ∧ ∃ year month, o.Visits year month ∧ AsksFor o.monthDays year month d) ∨
          o.Admits d ∧ ∃ year month, o.Visits year month ∧
            Tabular.monthDays year month < longest ∧ standIn year month skip = some d := by
  obtain ⟨days, hincreasing, hyields, hmem⟩ := exists_yields_of_visits (o := o.under skip)
    (normalized_under ho skip) hv hfreq hcount hpos hlongest
  refine ⟨days, hincreasing, hyields, ?_⟩
  intro d
  rw [hmem]
  simp only [and_or_left, exists_or]
  exact Iff.rfl

/-- A day that a rule asks for is one of the month that it lies in. -/
theorem asksFor_iff :
    (∃ year month, o.Visits year month ∧ AsksFor o.monthDays year month d) ↔
      o.Visits d.year d.month ∧ d.day ∈ o.monthDays ∧
        d.day ≤ Tabular.monthDays d.year d.month := by
  constructor
  · rintro ⟨year, month, hvisits, rfl, rfl, hday⟩
    exact ⟨hvisits, hday⟩
  · intro ⟨hvisits, hday⟩
    exact ⟨d.year, d.month, hvisits, rfl, rfl, hday⟩

/-- **The skip policies compared.**  Leaving out what a month lacks, a rule yields the days asked
for that the months it visits have.  Going back it yields these and the last day of every month that
lacks some, and going forward these and the first day of the month after every such month, as far as
the days are within its dates.  No policy loses a day, and none yields a day twice. -/
theorem yields_under_each_skip (ho : o.Normalized ctx answers) (hv : o.variant = .tabular)
    (hfreq : o.frequency = .monthly ∨ o.frequency = .yearly ∧ o.months ≠ [])
    (hcount : o.count = none) (hpos : o.positions = []) {longest : Int}
    (hlongest : o.monthDays.max? = some longest) :
    ∃ omitted backward forward : List LunarDay,
      omitted.Pairwise (· < ·) ∧ backward.Pairwise (· < ·) ∧ forward.Pairwise (· < ·) ∧
      ((o.under .omit).occurrences ctx).Yields answers (omitted.map o.occurrenceOn) ∧
      ((o.under .backward).occurrences ctx).Yields answers (backward.map o.occurrenceOn) ∧
      ((o.under .forward).occurrences ctx).Yields answers (forward.map o.occurrenceOn) ∧
      (∀ d, d ∈ omitted ↔ o.Admits d ∧ o.Visits d.year d.month ∧
        d.day ∈ o.monthDays ∧ d.day ≤ Tabular.monthDays d.year d.month) ∧
      (∀ d, d ∈ backward ↔ d ∈ omitted ∨ o.Admits d ∧ ∃ year month, o.Visits year month ∧
        Tabular.monthDays year month < longest ∧
          d = ⟨year, month, Tabular.monthDays year month⟩) ∧
      ∀ d, d ∈ forward ↔ d ∈ omitted ∨ o.Admits d ∧ ∃ year month, o.Visits year month ∧
        Tabular.monthDays year month < longest ∧
          d = if month = 12 then ⟨year + 1, 1, 1⟩ else ⟨year, month + 1, 1⟩ := by
  obtain ⟨omitted, homitted, hyields, hmem⟩ :=
    exists_yields_under ho hv hfreq hcount hpos hlongest .omit
  obtain ⟨backward, hbackward, hyields', hmem'⟩ :=
    exists_yields_under ho hv hfreq hcount hpos hlongest .backward
  obtain ⟨forward, hforward, hyields'', hmem''⟩ :=
    exists_yields_under ho hv hfreq hcount hpos hlongest .forward
  have homit (d : LunarDay) : d ∈ omitted ↔ o.Admits d ∧ ∃ year month, o.Visits year month ∧
      AsksFor o.monthDays year month d := by
    rw [hmem]
    simp [standIn]
  refine ⟨omitted, backward, forward, homitted, hbackward, hforward, hyields, hyields', hyields'',
    ?_, ?_, ?_⟩
  · intro d
    rw [homit, asksFor_iff]
  · intro d
    rw [hmem', ← homit]
    simp only [standIn, Option.some_inj, eq_comm]
  · intro d
    rw [hmem'', ← homit]
    simp only [standIn, firstOfNextMonth, Option.some_inj, eq_comm]

/-- The first and the thirtieth of each month, for the last months of a year and the new year. -/
def firstsAndThirtieths : RuleOptions where
  frequency := .monthly
  start := { year := 1446, month := 10, day := 1, variant := .tabular }
  last := some { year := 1447, month := 1, day := 1, variant := .tabular }
  monthDays := [1, 30]
  variant := .tabular

theorem yields_under_each_skip_firstsAndThirtieths :
    firstsAndThirtieths.Normalized .hostless .unknown ∧
    firstsAndThirtieths.variant = .tabular ∧ firstsAndThirtieths.frequency = .monthly ∧
    firstsAndThirtieths.count = none ∧ firstsAndThirtieths.positions = [] ∧
    firstsAndThirtieths.monthDays.max? = some 30 ∧
    ∃ omitted backward forward : List LunarDay,
      omitted.Pairwise (· < ·) ∧ backward.Pairwise (· < ·) ∧ forward.Pairwise (· < ·) ∧
      ((firstsAndThirtieths.under .omit).occurrences .hostless).Yields .unknown
        (omitted.map firstsAndThirtieths.occurrenceOn) ∧
      ((firstsAndThirtieths.under .backward).occurrences .hostless).Yields .unknown
        (backward.map firstsAndThirtieths.occurrenceOn) ∧
      ((firstsAndThirtieths.under .forward).occurrences .hostless).Yields .unknown
        (forward.map firstsAndThirtieths.occurrenceOn) ∧
      (∀ d, d ∈ omitted ↔ firstsAndThirtieths.Admits d ∧
        firstsAndThirtieths.Visits d.year d.month ∧
        d.day ∈ firstsAndThirtieths.monthDays ∧ d.day ≤ Tabular.monthDays d.year d.month) ∧
      (∀ d, d ∈ backward ↔ d ∈ omitted ∨ firstsAndThirtieths.Admits d ∧
        ∃ year month, firstsAndThirtieths.Visits year month ∧ Tabular.monthDays year month < 30 ∧
          d = ⟨year, month, Tabular.monthDays year month⟩) ∧
      ∀ d, d ∈ forward ↔ d ∈ omitted ∨ firstsAndThirtieths.Admits d ∧
        ∃ year month, firstsAndThirtieths.Visits year month ∧ Tabular.monthDays year month < 30 ∧
          d = if month = 12 then ⟨year + 1, 1, 1⟩ else ⟨year, month + 1, 1⟩ := by
  have ho : firstsAndThirtieths.Normalized .hostless .unknown := normalized_of_inBounds (by decide)
  have hlongest : firstsAndThirtieths.monthDays.max? = some 30 := rfl
  exact ⟨ho, rfl, rfl, rfl, rfl, rfl, yields_under_each_skip ho rfl (.inl rfl) rfl rfl hlongest⟩

/-- The first of Dhu al-Qada and the first of Muharram are asked for, and stand in for a thirtieth
too; they come once. -/
example : ((((firstsAndThirtieths.under .forward).occurrences .hostless).items .unknown).map
    (·.toLunarDay)) =
    [⟨1446, 10, 1⟩, ⟨1446, 11, 1⟩, ⟨1446, 11, 30⟩, ⟨1446, 12, 1⟩, ⟨1447, 1, 1⟩] := by
  decide +kernel

end RuleOptions

end HijriRecurrence
