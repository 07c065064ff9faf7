import HijriRecurrence.Proofs.Rule.Enumeration

/-!
# Rules that end by their last date

The walk of a rule is bounded twice: by its last date and by the limit on its periods.  Where the
last date ends the walk (`EndsByLast`), the limit takes nothing away: the rule yields the days that
any period at all proposes, however late, within the dates of the rule (`exists_yields_of_hasDay`).

So what two such rules yield can be compared day by day (`HasDay`), without a word on their walks.
-/

namespace HijriRecurrence.RuleOptions

open Tabular

variable {ctx : Context} {answers : Answers} {o : RuleOptions}

/-- The walk of a rule ends by its last date: some period within the limit starts after it, or has
a candidate after it that is not before the first date. -/
def EndsByLast (ctx : Context) (answers : Answers) (o : RuleOptions) : Prop :=
  ∃ period, 0 ≤ period ∧ period < o.periodLimit ∧
    ((∃ cursor, (o.cursor ctx period).outcome answers = .ok cursor ∧
        o.isPast (.ofDay (o.periodStart cursor)) = true) ∨
      ∃ candidates, (o.periodCandidates ctx period).outcome answers = .ok candidates ∧
        ∃ c ∈ candidates, o.isFresh none c = true ∧ o.isPast c = true)

/-- A period of a rule, of any number, proposes a day within the dates of the rule. -/
def HasDay (o : RuleOptions) (d : LunarDay) : Prop :=
  (∃ period, 0 ≤ period ∧ d ∈ o.daysOfPeriod (o.cursorDay period)) ∧
    o.start.toLunarDay ≤ d ∧ ∀ last ∈ o.last, d ≤ last.toLunarDay

/-- What ends a walk by its last date is a day after it: the first of a period, or a proposed one. -/
theorem EndsByLast.exists_past (ho : o.Normalized ctx answers) (hv : o.variant = .tabular)
    (hx : o.CountsDaysExactly ctx answers) (h : o.EndsByLast ctx answers) :
    ∃ period, 0 ≤ period ∧ period < o.periodLimit ∧
      (o.isWithin (o.firstOfPeriod (o.cursorDay period)) = false ∨
        ∃ e ∈ o.daysOfPeriod (o.cursorDay period), o.isWithin e = false) := by
  obtain ⟨period, hk, hlimit, ⟨cursor, hcursor, hpast⟩ | ⟨found, hfound, c, hc, -, hpast⟩⟩ := h
  · obtain ⟨reached, hreached, -, -, hday⟩ := outcome_cursor ho hv hk (hx.cursor _ hk hlimit)
    obtain rfl := Except.ok.inj (hreached.symm.trans hcursor)
    rw [periodStart_eq, hday, isPast_ofDay, Bool.not_eq_true'] at hpast
    exact ⟨period, hk, hlimit, Or.inl hpast⟩
  · rw [outcome_periodCandidates ho hv hx hk hlimit] at hfound
    rw [← Except.ok.inj hfound] at hc
    obtain ⟨e, he, rfl⟩ := List.mem_map.1 hc
    rw [isPast_ofDay, Bool.not_eq_true'] at hpast
    exact ⟨period, hk, hlimit, Or.inr ⟨e, he, hpast⟩⟩

/-- **No day is proposed beyond the limit when the last date ends the walk.**  Whatever ends it is
after the last date, and later periods propose nothing earlier. -/
theorem lt_periodLimit_of_endsByLast (ho : o.Normalized ctx answers) (hv : o.variant = .tabular)
    (hx : o.CountsDaysExactly ctx answers) (h : o.EndsByLast ctx answers) {period : Int}
    {d : LunarDay} (hd : d ∈ o.daysOfPeriod (o.cursorDay period)) (hwithin : o.isWithin d = true) :
    period < o.periodLimit := by
  obtain ⟨final, hk, hlimit, hpast⟩ := h.exists_past ho hv hx
  refine Int.lt_of_le_of_lt (Int.not_lt.1 fun hlater => ?_) hlimit
  rcases hpast with hpast | ⟨e, he, hpast⟩
  · have hfirst := firstOfPeriod_le_of_mem ho hv hk (Int.le_of_lt hlater) hd
    exact not_isWithin_of_le (Bool.eq_false_iff.1 hpast) hfirst hwithin
  · have hle := le_of_mem_daysOfPeriod ho hv hk hlater he hd
    exact not_isWithin_of_le (Bool.eq_false_iff.1 hpast) hle hwithin

/-- **A rule that ends by its last date yields the days that it has.** -/
theorem exists_yields_of_hasDay (ho : o.Normalized ctx answers) (hv : o.variant = .tabular)
    (hx : o.CountsDaysExactly ctx answers) (hcount : o.count = none)
    (h : o.EndsByLast ctx answers) :
    ∃ days : List LunarDay, days.Pairwise (· < ·) ∧ (∀ d, d ∈ days ↔ o.HasDay d) ∧
      (o.occurrences ctx).Yields answers (days.map o.occurrenceOn) := by
  have hlimit := periodLimit_pos o
  obtain ⟨days, hdeclared, hyields⟩ := occurrences_yield ho hv hx
  rw [cutToCount, hcount] at hyields
  refine ⟨days, hdeclared.increasing, fun d => ?_, hyields⟩
  rw [hdeclared.mem_iff, isNew_none_iff, HasDay, ← isWithin_iff]
  constructor
  · rintro ⟨⟨k, hk, -, hd⟩, hwithin, hstart⟩
    exact ⟨⟨k, hk, hd⟩, hstart, hwithin⟩
  · rintro ⟨⟨k, hk, hd⟩, hstart, hwithin⟩
    have hlt := lt_periodLimit_of_endsByLast ho hv hx h hd hwithin
    exact ⟨⟨k, hk, by omega, hd⟩, hwithin, hstart⟩

/-- A day that a rule has exists. -/
theorem HasDay.isDay (ho : o.Normalized ctx answers) (hv : o.variant = .tabular) {d : LunarDay}
    (h : o.HasDay d) : IsDay d := by
  obtain ⟨⟨period, hk, hd⟩, -⟩ := h
  exact isDay_of_mem_daysOfPeriod ho hv hk hd

/-! ### One rule at several frequencies -/

/-- The rule with the same parts and another frequency. -/
def every (o : RuleOptions) (frequency : Frequency) : RuleOptions := { o with frequency }

theorem normalized_every (ho : o.Normalized ctx answers) (frequency : Frequency) :
    (o.every frequency).Normalized ctx answers := { ho with }

theorem occurrenceOn_every (o : RuleOptions) (frequency : Frequency) :
    (o.every frequency).occurrenceOn = o.occurrenceOn := rfl

/-- A rule of every month proposes, in each period, the days of the month that its number leads to,
where the rule allows that month. -/
theorem mem_daysOfPeriod_every_monthly (hi : o.interval = 1) (hpos : o.positions = [])
    {period index : Int} (hindex : LunarDate.monthIndex o.start.toLunarDay + period = index)
    {d : LunarDay} :
    d ∈ (o.every .monthly).daysOfPeriod ((o.every .monthly).cursorDay period) ↔
      o.allowsMonth (index % 12 + 1) = true ∧
        d ∈ o.daysInMonth (index / 12 + 1) (index % 12 + 1)
          ((o.every .monthly).cursorDay period).day := by
  have hcursor : (o.every .monthly).cursorDay period =
      clamp ((LunarDate.monthIndex o.start.toLunarDay + period * o.interval) / 12 + 1)
        ((LunarDate.monthIndex o.start.toLunarDay + period * o.interval) % 12 + 1)
        o.start.day := rfl
  rw [mem_daysOfPeriod (o := o.every .monthly) hpos, hcursor, hi, Int.mul_one, hindex]
  show d ∈ (if o.allowsMonth (index % 12 + 1) then o.daysInMonth _ _ _ else []) ↔ _
  exact List.mem_ite_nil_right

/-- The occurrence on the first day is the first date itself. -/
theorem occurrenceOn_start (ho : o.Normalized ctx answers) :
    o.occurrenceOn o.start.toLunarDay = o.start := by
  rw [occurrenceOn, ← ho.start_variant]

end HijriRecurrence.RuleOptions
