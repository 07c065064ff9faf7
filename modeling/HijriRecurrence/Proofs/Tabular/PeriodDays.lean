import HijriRecurrence.Proofs.Lunar.Order
import HijriRecurrence.Proofs.Rule.Normalized
import HijriRecurrence.Proofs.Tabular.MonthDays
import HijriRecurrence.Proofs.Tabular.Shift

/-!
# The days a rule proposes in a period

`RuleOptions.daysOfPeriod` is the list of days that a rule of the tabular calendar proposes in the
period of a cursor: the days of a year, of a month, of seven days, or the day itself, each once and
in increasing order, and those at the rule's positions when it has any.

* `outcome_periodDays` — the calculation comes to this list; in a weekly rule the week has to be
  reached by exact shifts;
* `increasing_daysOfPeriod` — the list is strictly increasing;
* `mem_daysOfPeriod` — without positions its members are the days proposed.
-/

namespace HijriRecurrence

open Tabular

namespace RuleOptions

variable {ctx : Context} {answers : Answers} {o : RuleOptions}

/-! ### Lists of days -/

/-- Whether a day falls on one of the rule's weekdays without ordinal. -/
def onWeekday (o : RuleOptions) (d : LunarDay) : Bool := o.weekdayNumbers.contains (weekdayOf d)

/-- The days that a yearly rule proposes before its weekdays are looked at, without months. -/
def usualDaysOfYear (o : RuleOptions) (cursor : LunarDay) : List LunarDay :=
  if !o.monthDays.isEmpty || !o.monthDaysFromEnd.isEmpty then
    o.daysInMonth cursor.year cursor.month cursor.day
  else if !o.yearDays.isEmpty then o.yearDays.filterMap (Tabular.yearDay cursor.year)
  else [cursor]

/-- The days that a yearly rule proposes in the year of a cursor. -/
def daysInYear (o : RuleOptions) (cursor : LunarDay) : List LunarDay :=
  if !o.months.isEmpty then
    o.months.flatMap fun month => o.daysInMonth cursor.year month cursor.day
  else if o.weekdays.isEmpty then o.usualDaysOfYear cursor
  else (o.usualDaysOfYear cursor).filter o.onWeekday

/-- The days that a weekly rule proposes in the seven days from a cursor on. -/
def daysInWeek (o : RuleOptions) (cursor : LunarDay) : List LunarDay :=
  (if o.weekdays.isEmpty then [cursor]
    else
      ([0, 1, 2, 3, 4, 5, 6].filter fun (i : Int) =>
        o.weekdayNumbers.contains ((weekdayOf cursor + i) % 7)).map
          fun i => dayAt (Tabular.dayNumberOf cursor + i)).filter fun d => o.allowsMonth d.month

/-- Whether a daily rule allows a day. -/
def allowsDay (o : RuleOptions) (d : LunarDay) : Bool :=
  o.allowsMonth d.month &&
    (o.monthDays.isEmpty && o.monthDaysFromEnd.isEmpty || o.monthDays.contains d.day ||
      o.monthDaysFromEnd.contains (d.day - Tabular.monthDays d.year d.month - 1)) &&
    (o.weekdays.isEmpty || o.onWeekday d)

def proposedDays (o : RuleOptions) (cursor : LunarDay) : List LunarDay :=
  match o.frequency with
  | .yearly => o.daysInYear cursor
  | .monthly =>
    if o.allowsMonth cursor.month then o.daysInMonth cursor.year cursor.month cursor.day else []
  | .weekly => o.daysInWeek cursor
  | .daily => if o.allowsDay cursor then [cursor] else []
  | .hourly | .minutely | .secondly => [cursor]

/-- The days at some positions of a list, in increasing order. -/
def pickDays (days : List LunarDay) (positions : List Int) : List LunarDay :=
  LunarDay.sorted (positions.filterMap fun position =>
    let index : Int := if 0 < position then position - 1 else days.length + position
    if 0 ≤ index then days[index.toNat]? else none)

def daysOfPeriod (o : RuleOptions) (cursor : LunarDay) : List LunarDay :=
  if o.positions.isEmpty then LunarDay.sorted (o.proposedDays cursor)
  else pickDays (LunarDay.sorted (o.proposedDays cursor)) o.positions

/-- A yearly rule with months goes through them one after the other. -/
theorem daysInYear_of_months (h : o.months ≠ []) (cursor : LunarDay) :
    o.daysInYear cursor =
      o.months.flatMap fun month => o.daysInMonth cursor.year month cursor.day := by
  rw [daysInYear, if_pos (by simpa using h)]

theorem increasing_daysOfPeriod (o : RuleOptions) (cursor : LunarDay) :
    (o.daysOfPeriod cursor).Pairwise (· < ·) := by
  unfold daysOfPeriod
  split
  · exact LunarDay.pairwise_sorted _
  · exact LunarDay.pairwise_sorted _

/-- Positions pick from a list. -/
theorem mem_of_mem_pickDays {days : List LunarDay} {positions : List Int} {d : LunarDay}
    (h : d ∈ pickDays days positions) : d ∈ days := by
  obtain ⟨position, -, hday⟩ := List.mem_filterMap.1 (LunarDay.mem_sorted.1 h)
  dsimp only at hday
  generalize (if 0 < position then position - 1 else (days.length : Int) + position) = index
    at hday
  split at hday
  · exact List.mem_of_getElem? hday
  · exact absurd hday (by simp)

/-- Positions pick from what is proposed. -/
theorem mem_proposedDays_of_mem {cursor d : LunarDay} (h : d ∈ o.daysOfPeriod cursor) :
    d ∈ o.proposedDays cursor := by
  unfold daysOfPeriod at h
  split at h
  · exact LunarDay.mem_sorted.1 h
  · exact LunarDay.mem_sorted.1 (mem_of_mem_pickDays h)

theorem mem_daysOfPeriod (hpos : o.positions = []) {cursor d : LunarDay} :
    d ∈ o.daysOfPeriod cursor ↔ d ∈ o.proposedDays cursor := by
  rw [daysOfPeriod, hpos]
  exact LunarDay.mem_sorted

/-! ### Outcomes -/

theorem pickPositions_ofDay (days : List LunarDay) (positions : List Int) :
    pickPositions (days.map .ofDay) positions = (pickDays days positions).map .ofDay := by
  rw [pickPositions, pickDays, ← Candidate.sorted_ofDay, List.map_filterMap]
  refine congrArg (fun pick => Candidate.sorted (positions.filterMap pick)) ?_
  funext position
  simp only [List.length_map, List.getElem?_map]
  generalize (if 0 < position then position - 1 else (days.length : Int) + position) = index
  split
  · rfl
  · rfl

theorem outcome_monthsCandidates (hv : o.variant = .tabular) {year usualDay : Int}
    (hy : 1 ≤ year) {months : List Int} (hm : ∀ m ∈ months, 1 ≤ m ∧ m ≤ 12) :
    (o.monthsCandidates ctx Tabular.calendar year usualDay months).outcome answers =
      .ok ((months.flatMap fun month => o.daysInMonth year month usualDay).map .ofDay) := by
  induction months with
  | nil => rfl
  | cons m rest ih =>
    have hrest := ih fun n hn => hm n (List.mem_cons_of_mem m hn)
    rw [monthsCandidates,
      Calculation.outcome_bind_ok (outcome_monthCandidates hv hy (hm m List.mem_cons_self)),
      Calculation.outcome_bind_ok hrest, List.flatMap_cons, List.map_append]
    rfl

/-- The candidates on the rule's weekdays are the days on them, in any calendar that knows the
weekdays. -/
theorem outcome_onWeekdays {cal : Calendar} (weekday : LunarDay → Int) {days : List LunarDay}
    (h : ∀ d ∈ days, cal.weekday d = .ok (weekday d)) :
    (o.onWeekdays cal (days.map .ofDay)).outcome answers =
      .ok ((days.filter fun d => o.weekdayNumbers.contains (weekday d)).map .ofDay) := by
  induction days with
  | nil => rfl
  | cons d rest ih =>
    have hweekday : (Candidate.ofDay d).weekday cal = .ok (weekday d) := h d List.mem_cons_self
    have hfirst : (do
        let weekday ← (Candidate.ofDay d).weekday cal
        return if o.weekdayNumbers.contains weekday then some (Candidate.ofDay d) else none :
        Calculation (Option Candidate)).outcome answers =
        .ok (if o.weekdayNumbers.contains (weekday d) then some (.ofDay d) else none) :=
      Calculation.outcome_bind_ok ((Calculation.outcome_liftM _).trans hweekday) _
    have hrest := ih fun e he => h e (List.mem_cons_of_mem d he)
    unfold onWeekdays at hrest ⊢
    rw [List.map_cons, Calculation.filterMap, Calculation.outcome_bind_ok hfirst,
      Calculation.outcome_bind_ok hrest, List.filter_cons]
    cases o.weekdayNumbers.contains (weekday d) <;> rfl

theorem isDay_of_mem_usualDaysOfYear (ho : o.Normalized ctx answers) {cursor d : LunarDay}
    (hc : IsDay cursor) (h : d ∈ o.usualDaysOfYear cursor) :
    IsDay d ∧ (d.year = cursor.year ∨ d = firstOfNextMonth cursor.year cursor.month) := by
  unfold usualDaysOfYear at h
  split at h
  · obtain ⟨hday, hwhere⟩ := isDay_of_mem_daysInMonth
      (fun n hn => (ho.monthDaysFromEnd n hn).2) hc.1 ⟨hc.2.1, hc.2.2.1⟩ hc.2.2.2.1 h
    exact ⟨hday, hwhere.imp And.left id⟩
  · split at h
    · obtain ⟨offset, -, hday⟩ := List.mem_filterMap.1 h
      exact (isDay_of_yearDay hc.1 hday).imp id Or.inl
    · obtain rfl := List.mem_singleton.1 h
      exact ⟨hc, Or.inl rfl⟩

theorem outcome_yearlyCandidates (ho : o.Normalized ctx answers) (hv : o.variant = .tabular)
    {cursor : LunarDate} (hc : IsDay cursor.toLunarDay) :
    (o.yearlyCandidates ctx Tabular.calendar cursor).outcome answers =
      .ok ((o.daysInYear cursor.toLunarDay).map .ofDay) := by
  have hfinish : ∀ days : List LunarDay, (∀ d ∈ days, IsDay d) →
      (if o.weekdays.isEmpty then pure (days.map .ofDay)
        else o.onWeekdays Tabular.calendar (days.map .ofDay)).outcome answers =
      .ok ((if o.weekdays.isEmpty then days else days.filter o.onWeekday).map .ofDay) := by
    intro days hdays
    split
    · rfl
    · exact outcome_onWeekdays weekdayOf fun d hd => Tabular.weekday_of_isDay (hdays d hd)
  have husual : ∀ d ∈ o.usualDaysOfYear cursor.toLunarDay, IsDay d := by
    intro d hd
    exact (isDay_of_mem_usualDaysOfYear ho hc hd).1
  unfold yearlyCandidates daysInYear
  unfold usualDaysOfYear at husual ⊢
  cases o.months.isEmpty with
  | false =>
    simp only [Bool.not_false, if_true]
    exact outcome_monthsCandidates hv hc.1 ho.months
  | true =>
    simp only [Bool.not_true, Bool.false_eq_true, if_false]
    by_cases hdays : (!o.monthDays.isEmpty || !o.monthDaysFromEnd.isEmpty) = true
    · simp only [hdays, if_true] at husual ⊢
      rw [Calculation.outcome_bind_ok (outcome_monthCandidates hv hc.1 ⟨hc.2.1, hc.2.2.1⟩)]
      exact hfinish _ husual
    · by_cases hyear : (!o.yearDays.isEmpty) = true
      · simp only [hdays, hyear, if_true, Bool.false_eq_true, if_false] at husual ⊢
        rw [Calculation.outcome_bind_ok
          (Calculation.outcome_filterMap fun offset _ => outcome_yearDay), ← List.map_filterMap]
        exact hfinish _ husual
      · simp only [hdays, hyear, Bool.false_eq_true, if_false] at husual ⊢
        exact hfinish _ husual

/-- The dates of a week on the rule's weekdays, when each day is reached by an exact shift. -/
theorem outcome_weekDates {cursor : LunarDate} (hc : cursor.Built ctx answers)
    (hv : cursor.variant = .tabular)
    (hweek : ∀ i, 0 ≤ i → i < 7 → cursor.ShiftsExactly ctx answers i) :
    ∃ dates, (o.weekDates ctx cursor (weekdayOf cursor.toLunarDay)).outcome answers = .ok dates ∧
      dates.map LunarDate.toLunarDay =
        ([0, 1, 2, 3, 4, 5, 6].filter fun (i : Int) =>
          o.weekdayNumbers.contains ((weekdayOf cursor.toLunarDay + i) % 7)).map
            fun i => dayAt (Tabular.dayNumberOf cursor.toLunarDay + i) := by
  rw [← List.filterMap_eq_map' (f := fun i => dayAt (Tabular.dayNumberOf cursor.toLunarDay + i)),
    List.filterMap_filter]
  refine Calculation.exists_outcome_filterMap fun i hi => ?_
  cases o.weekdayNumbers.contains ((weekdayOf cursor.toLunarDay + i) % 7) with
  | false => exact ⟨none, rfl, rfl⟩
  | true =>
    have hrange : 0 ≤ i ∧ i < 7 := by
      simp only [List.mem_cons, List.not_mem_nil, or_false] at hi
      omega
    obtain ⟨e, he, -, -, hday⟩ := LunarDate.exists_of_shiftsExactly hc hv
      (hweek i hrange.1 hrange.2)
    refine ⟨some e, ?_, congrArg some hday⟩
    rw [if_pos rfl, ← bind_pure_comp]
    exact Calculation.outcome_bind_ok he _

theorem outcome_weeklyCandidates {cursor : LunarDate} (hc : cursor.Built ctx answers)
    (hv : cursor.variant = .tabular)
    (hweek : ∀ i, 0 ≤ i → i < 7 → cursor.ShiftsExactly ctx answers i) :
    (o.weeklyCandidates ctx cursor).outcome answers =
      .ok ((o.daysInWeek cursor.toLunarDay).map .ofDay) := by
  have hfinish : ∀ (dates : List LunarDate) (days : List LunarDay),
      dates.map LunarDate.toLunarDay = days →
      ((dates.filter fun d => o.allowsMonth d.month).map fun d => Candidate.ofDay d.toLunarDay) =
        (days.filter fun d => o.allowsMonth d.month).map .ofDay := by
    rintro dates days rfl
    rw [List.filter_map, List.map_map]
    rfl
  unfold weeklyCandidates daysInWeek
  cases o.weekdays.isEmpty with
  | true => exact congrArg Except.ok (hfinish [cursor] _ rfl)
  | false =>
    simp only [Bool.false_eq_true, if_false]
    obtain ⟨dates, hdates, hview⟩ := outcome_weekDates (o := o) hc hv hweek
    rw [Calculation.outcome_bind_ok (LunarDate.outcome_weekday (hc.isTabular hv)),
      Calculation.outcome_bind_ok hdates]
    exact congrArg Except.ok (hfinish dates _ hview)

/-- Whether a day of a month is among the month days can be told from its month's length. -/
theorem allowsMonthDay_whole (length day : Int) :
    o.allowsMonthDay (.whole length) day =
      .ok (o.monthDays.contains day || o.monthDaysFromEnd.contains (day - length - 1)) := by
  have hmap : ∀ offsets : List Int,
      (offsets.mapM fun offset => (Quantity.whole length).fromEnd offset) =
        (.ok (offsets.map fun offset => .whole (length + offset + 1)) : Except Error _) := by
    intro offsets
    induction offsets with
    | nil => rfl
    | cons offset rest ih =>
      rw [List.mapM_cons, ih]
      rfl
  have hany : ∀ offsets : List Int,
      (offsets.map fun offset => Quantity.whole (length + offset + 1)).any (·.equals day) =
        offsets.contains (day - length - 1) := by
    intro offsets
    rw [List.any_map, List.contains_eq_any_beq]
    refine congrArg (fun test => List.any offsets test) (funext fun offset => ?_)
    simp only [Function.comp_apply, Quantity.equals_whole]
    rw [Bool.eq_iff_iff, beq_iff_eq, beq_iff_eq]
    omega
  rw [allowsMonthDay, hmap, ← hany]
  rfl

theorem outcome_dailyCandidates {cursor : LunarDate} (hc : cursor.IsTabular) :
    (o.dailyCandidates ctx cursor).outcome answers =
      .ok ((if o.allowsDay cursor.toLunarDay then [cursor.toLunarDay] else []).map .ofDay) := by
  have hweekday : (if !o.weekdays.isEmpty then do
        let weekday ← cursor.weekday ctx
        if !o.weekdayNumbers.contains weekday then return [] else
          return [.ofDay cursor.toLunarDay]
      else return [.ofDay cursor.toLunarDay] : Calculation (List Candidate)).outcome answers =
      .ok ((if o.weekdays.isEmpty || o.onWeekday cursor.toLunarDay then
        [cursor.toLunarDay] else []).map .ofDay) := by
    cases o.weekdays.isEmpty with
    | true => rfl
    | false =>
      simp only [Bool.not_false, if_true, Bool.false_or]
      rw [Calculation.outcome_bind_ok (LunarDate.outcome_weekday hc)]
      unfold onWeekday
      cases o.weekdayNumbers.contains (weekdayOf cursor.toLunarDay) <;> rfl
  unfold dailyCandidates allowsDay
  cases o.allowsMonth cursor.month with
  | false => rfl
  | true =>
    simp only [Bool.not_true, Bool.false_eq_true, if_false, Bool.true_and]
    by_cases hdays : (!o.monthDays.isEmpty || !o.monthDaysFromEnd.isEmpty) = true
    · rw [if_pos hdays, Calculation.outcome_bind_ok (LunarDate.outcome_daysInMonth hc),
        Calculation.outcome_bind_ok
          ((Calculation.outcome_liftM _).trans (allowsMonthDay_whole _ _))]
      have hnone : (o.monthDays.isEmpty && o.monthDaysFromEnd.isEmpty) = false := by
        rw [← Bool.not_eq_true', Bool.not_and]
        exact hdays
      rw [hnone, Bool.false_or]
      cases o.monthDays.contains cursor.day || o.monthDaysFromEnd.contains
          (cursor.day - Tabular.monthDays cursor.year cursor.month - 1) with
      | false => rfl
      | true => exact hweekday
    · have hnone : (o.monthDays.isEmpty && o.monthDaysFromEnd.isEmpty) = true := by
        rw [← Bool.not_eq_false', Bool.not_and]
        exact Bool.eq_false_iff.2 hdays
      rw [if_neg hdays, hnone, Bool.true_or, Bool.true_or, Bool.true_and]
      exact hweekday

/-- What a period needs of shifts by days: a weekly rule reaches the days of its weeks exactly. -/
def WeekIsExact (ctx : Context) (answers : Answers) (o : RuleOptions) (cursor : LunarDate) : Prop :=
  o.frequency = .weekly → ∀ i, 0 ≤ i → i < 7 → cursor.ShiftsExactly ctx answers i

theorem outcome_candidates (ho : o.Normalized ctx answers) (hv : o.variant = .tabular)
    {cursor : LunarDate} (hc : cursor.Built ctx answers) (hcv : cursor.variant = .tabular)
    (hweek : o.WeekIsExact ctx answers cursor) :
    (o.candidates ctx Tabular.calendar cursor).outcome answers =
      .ok ((LunarDay.sorted (o.proposedDays cursor.toLunarDay)).map .ofDay) := by
  have hday := (hc.isTabular hcv).isDay
  rw [← Candidate.sorted_ofDay]
  unfold candidates proposedDays
  cases hfreq : o.frequency with
  | yearly => exact Calculation.outcome_bind_ok (outcome_yearlyCandidates ho hv hday) _
  | monthly =>
    refine Calculation.outcome_bind_ok ?_ _
    unfold monthlyCandidates
    by_cases hmonth : o.allowsMonth cursor.month = true
    · simp only [hmonth, if_true]
      exact outcome_monthCandidates hv hday.1 ⟨hday.2.1, hday.2.2.1⟩
    · simp only [hmonth, Bool.false_eq_true, if_false]
      rfl
  | weekly => exact Calculation.outcome_bind_ok (outcome_weeklyCandidates hc hcv (hweek hfreq)) _
  | daily => exact Calculation.outcome_bind_ok (outcome_dailyCandidates (hc.isTabular hcv)) _
  | hourly => rfl
  | minutely => rfl
  | secondly => rfl

/-- **The candidates of a period are its days.** -/
theorem outcome_periodDays (ho : o.Normalized ctx answers) (hv : o.variant = .tabular)
    {cursor : LunarDate} (hc : cursor.Built ctx answers) (hcv : cursor.variant = .tabular)
    (hweek : o.WeekIsExact ctx answers cursor) :
    (o.periodDays ctx Tabular.calendar cursor).outcome answers =
      .ok ((o.daysOfPeriod cursor.toLunarDay).map .ofDay) := by
  rw [periodDays, daysOfPeriod, Calculation.outcome_bind_ok (outcome_candidates ho hv hc hcv hweek)]
  split
  · rfl
  · rw [pickPositions_ofDay]
    rfl

end RuleOptions

end HijriRecurrence
