import HijriRecurrence.Proofs.Rule.Enumeration

/-!
# The usual day

A yearly or monthly rule that names no day of a month or year falls on its usual day: the day of its
first date, cut to the length of the month it lands in.  A cut made for one month should have no
effect on another.

* `day_of_mem_proposedDays` — which day such a rule proposes in a month.  A yearly rule with months
  takes the day of its cursor, which the month of the first date has cut before;
* `min_cut_eq_iff` — the cut is felt in one case: a first date on the thirtieth of the last month,
  in a year that lacks this day, and a month of thirty days;
* `usualDay_of_occurrences` — every occurrence is on the usual day but in that case, and there it is
  on the twenty-ninth;
* `yearly_ne_monthly_afterFullYear` — there the monthly rule with the same parts keeps to the
  thirtieth.
-/

namespace HijriRecurrence.RuleOptions

open Tabular

variable {ctx : Context} {answers : Answers} {o : RuleOptions}

/-- A rule that names no day of a month or year. -/
structure NamesNoDay (o : RuleOptions) : Prop where
  monthDays : o.monthDays = []
  monthDaysFromEnd : o.monthDaysFromEnd = []
  yearDays : o.yearDays = []
  weekdays : o.weekdays = []
  nthWeekdays : o.nthWeekdays = []

/-- The day that a rule cuts to the length of a month of some year. -/
def usualDay (o : RuleOptions) (year : Int) : Int :=
  if o.frequency = .yearly ∧ o.months ≠ [] then
    min o.start.day (Tabular.monthDays year o.start.month)
  else o.start.day

/-- The years and months in which a rule misses its usual day. -/
def MissesUsualDay (o : RuleOptions) (year month : Int) : Prop :=
  (o.frequency = .yearly ∧ o.months ≠ []) ∧
    (o.start.month = 12 ∧ o.start.day = 30) ∧ isLeapYear year = false ∧ month % 2 = 1

/-! ### Proposed days -/

theorem daysInMonth_of_namesNoDay (h : o.NamesNoDay) (year month usualDay : Int) :
    o.daysInMonth year month usualDay = [clamp year month usualDay] := by
  unfold daysInMonth
  rw [h.monthDays, h.monthDaysFromEnd, h.nthWeekdays, h.weekdays]
  rfl

theorem usualDaysOfYear_of_namesNoDay (h : o.NamesNoDay) (cursor : LunarDay) :
    o.usualDaysOfYear cursor = [cursor] := by
  unfold usualDaysOfYear
  rw [h.monthDays, h.monthDaysFromEnd, h.yearDays]
  rfl

/-- A day that is cut twice to one length is cut once. -/
theorem clamp_day_clamp (year month day : Int) :
    clamp year month (clamp year month day).day = clamp year month day := by
  unfold clamp
  dsimp only
  rw [Int.min_assoc, Int.min_self]

/-- **The day proposed in a month is the rule's usual one, cut to the month.** -/
theorem day_of_mem_proposedDays (h : o.NamesNoDay)
    (hf : o.frequency = .yearly ∨ o.frequency = .monthly) {period : Int} {d : LunarDay}
    (hd : d ∈ o.proposedDays (o.cursorDay period)) :
    d.day = min (o.usualDay d.year) (Tabular.monthDays d.year d.month) := by
  rcases hf with hfreq | hfreq
  · simp only [proposedDays, cursorDay, hfreq] at hd
    by_cases hmonths : o.months = []
    · -- the cursor is the only candidate
      have hwhole : d ∈ o.usualDaysOfYear
          (clamp (o.start.year + period * o.interval) o.start.month o.start.day) := by
        simpa [daysInYear, hmonths, h.weekdays] using hd
      rw [usualDaysOfYear_of_namesNoDay h, List.mem_singleton] at hwhole
      subst hwhole
      rw [usualDay, if_neg fun hyearly => hyearly.2 hmonths]
      rfl
    · -- each month takes the day of the cursor
      rw [daysInYear_of_months hmonths] at hd
      obtain ⟨month, -, hday⟩ := List.mem_flatMap.1 hd
      rw [daysInMonth_of_namesNoDay h, List.mem_singleton] at hday
      subst hday
      rw [usualDay, if_pos ⟨hfreq, hmonths⟩]
      rfl
  · simp only [proposedDays, hfreq] at hd
    split at hd
    · rw [daysInMonth_of_namesNoDay h, List.mem_singleton] at hd
      have hcut : d = o.cursorDay period := by
        rw [hd, cursorDay, hfreq]
        exact clamp_day_clamp _ _ _
      rw [hcut, usualDay, if_neg (by simp [hfreq]), cursorDay, hfreq]
      rfl
    · exact absurd hd List.not_mem_nil

/-! ### Where the cut is felt -/

/-- **A cut made for the month of a day is felt in another month of the same year** only when the
day is the thirtieth of a last month, the year lacks it, and the other month has thirty days. -/
theorem min_cut_eq_iff {s : LunarDay} (hs : IsDay s) (year month : Int) :
    min (min s.day (Tabular.monthDays year s.month)) (Tabular.monthDays year month) =
        min s.day (Tabular.monthDays year month) ↔
      ¬((s.month = 12 ∧ s.day = 30) ∧ isLeapYear year = false ∧ month % 2 = 1) := by
  obtain ⟨-, hm, hm', -, hd⟩ := hs
  unfold Tabular.monthDays at hd ⊢
  cases isLeapYear year <;> cases isLeapYear s.year <;> simp only [and_true, and_false, if_false,
    Bool.false_eq_true, true_and, Bool.true_eq_false, false_and, not_false_eq_true, iff_true]
    at hd ⊢ <;> split_ifs at hd ⊢ <;> omega

/-- Where the usual day is missed, it is missed by one. -/
theorem min_usualDay_of_misses {year month : Int} (h : o.MissesUsualDay year month) :
    min (o.usualDay year) (Tabular.monthDays year month) = 29 ∧
      min o.start.day (Tabular.monthDays year month) = 30 := by
  obtain ⟨hyearly, ⟨hm, hd⟩, hleap, hodd⟩ := h
  rw [usualDay, if_pos hyearly, hm, hd]
  unfold Tabular.monthDays
  rw [hleap]
  simp [hodd]

theorem min_usualDay_of_not_misses (ho : o.Normalized ctx answers) (hv : o.variant = .tabular)
    {year month : Int} (h : ¬o.MissesUsualDay year month) :
    min (o.usualDay year) (Tabular.monthDays year month) =
      min o.start.day (Tabular.monthDays year month) := by
  unfold usualDay
  split
  next hyearly =>
    exact (min_cut_eq_iff (ho.isDay_start hv) year month).2 fun hcut => h ⟨hyearly, hcut⟩
  next => rfl

/-! ### Occurrences -/

/-- The count only leaves days out. -/
theorem mem_of_mem_cutToCount {days : List LunarDay} {d : LunarDay} (h : d ∈ o.cutToCount days) :
    d ∈ days := by
  rw [← cutAfter_zero] at h
  exact mem_of_mem_cutAfter h

/-- **A yearly or monthly rule that names no day keeps to the usual day,** but for a yearly rule
with months whose first date is the thirtieth of a last month: in a year without that day it falls
on the twenty-ninth of the months that have a thirtieth. -/
theorem usualDay_of_occurrences (ho : o.Normalized ctx answers) (hv : o.variant = .tabular)
    (hf : o.frequency = .yearly ∨ o.frequency = .monthly) (h : o.NamesNoDay) :
    ∃ dates, (o.occurrences ctx).Yields answers dates ∧
      ∀ d ∈ dates,
        (o.MissesUsualDay d.year d.month →
          d.day = 29 ∧ min o.start.day (Tabular.monthDays d.year d.month) = 30) ∧
        (¬o.MissesUsualDay d.year d.month →
          d.day = min o.start.day (Tabular.monthDays d.year d.month)) := by
  obtain ⟨days, hdeclared, hyields⟩ :=
    occurrences_yield ho hv (countsDaysExactly_of_months ho hv hf)
  refine ⟨_, hyields, fun d hd => ?_⟩
  obtain ⟨day, hday, rfl⟩ := List.mem_map.1 hd
  obtain ⟨⟨period, -, -, hmem⟩, -⟩ := (hdeclared.mem_iff day).1 (mem_of_mem_cutToCount hday)
  have hcut := day_of_mem_proposedDays h hf (mem_proposedDays_of_mem hmem)
  constructor
  · intro hmisses
    obtain ⟨hshort, hfull⟩ := min_usualDay_of_misses hmisses
    exact ⟨hcut.trans hshort, hfull⟩
  · intro hkeeps
    exact hcut.trans (min_usualDay_of_not_misses ho hv hkeeps)

/-- Three days in the first two months of a year, from the thirtieth of a last month on. -/
def afterFullYear (frequency : Frequency) : RuleOptions where
  frequency := frequency
  start := { year := 1445, month := 12, day := 30, variant := .tabular }
  count := some 3
  months := [1, 2]
  variant := .tabular

theorem namesNoDay_afterFullYear (frequency : Frequency) :
    (afterFullYear frequency).NamesNoDay := ⟨rfl, rfl, rfl, rfl, rfl⟩

theorem usualDay_of_occurrences_afterFullYear :
    (afterFullYear .yearly).Normalized .hostless .unknown ∧ (afterFullYear .yearly).NamesNoDay ∧
    (afterFullYear .yearly).MissesUsualDay 1446 1 ∧
    ¬(afterFullYear .yearly).MissesUsualDay 1446 2 ∧
    ∃ dates, ((afterFullYear .yearly).occurrences .hostless).Yields .unknown dates ∧
      ∀ d ∈ dates, d.year = 1446 ∧ d.month = 1 → d.day = 29 := by
  have ho : (afterFullYear .yearly).Normalized .hostless .unknown :=
    normalized_of_inBounds (by decide)
  have hmisses : (afterFullYear .yearly).MissesUsualDay 1446 1 :=
    ⟨⟨rfl, by decide⟩, ⟨rfl, rfl⟩, by decide, by decide⟩
  obtain ⟨dates, hyields, hdays⟩ :=
    usualDay_of_occurrences ho rfl (Or.inl rfl) (namesNoDay_afterFullYear .yearly)
  refine ⟨ho, namesNoDay_afterFullYear .yearly, hmisses, ?_, dates, hyields, ?_⟩
  · exact fun hsafar => absurd hsafar.2.2.2 (by decide)
  · rintro d hd ⟨hyear, hmonth⟩
    refine ((hdays d hd).1 ?_).1
    rw [hyear, hmonth]
    exact hmisses

/-- The yearly rule falls on the twenty-ninth of a month of thirty days, in which the monthly rule
with the same parts keeps to the thirtieth. -/
theorem yearly_ne_monthly_afterFullYear :
    (afterFullYear .yearly).Normalized .hostless .unknown ∧ (afterFullYear .yearly).NamesNoDay ∧
    (afterFullYear .yearly).start.day = 30 ∧ Tabular.monthDays 1446 1 = 30 ∧
    (((afterFullYear .yearly).occurrences .hostless).items .unknown).map (·.toLunarDay) =
      [⟨1446, 1, 29⟩, ⟨1446, 2, 29⟩, ⟨1447, 1, 30⟩] ∧
    (((afterFullYear .monthly).occurrences .hostless).items .unknown).map (·.toLunarDay) =
      [⟨1446, 1, 30⟩, ⟨1446, 2, 29⟩, ⟨1447, 1, 30⟩] := by
  refine ⟨normalized_of_inBounds (by decide), namesNoDay_afterFullYear .yearly, rfl, by decide,
    ?_, ?_⟩
  · decide +kernel
  · decide +kernel

end HijriRecurrence.RuleOptions
