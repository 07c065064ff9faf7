import HijriRecurrence.Proofs.Lunar.Built
import HijriRecurrence.Proofs.Rule.CandidateOrder
import HijriRecurrence.Proofs.Tabular.MonthDays

/-!
# Where candidates lie

Whatever the calendar answers, a period that can be worked out proposes candidates in its own place.
A yearly rule stays in the year of the cursor, but for a day that is pushed to the first day after a
month (`Candidate.LiesInYear`); a monthly rule stays in the month of the cursor in the same sense
(`Candidate.LiesIn`); the others propose the cursor, or a day up to six days later
(`IsProposedAt`).  All candidates are on numbers, because each quantity that is proposed has been
compared with another.

* `isProposedAt_of_periodDays` — the days of a period are in its place;
* `pairwise_periodDays` — they are in strictly increasing order.
-/

namespace HijriRecurrence

variable {ctx : Context} {answers : Answers} {cal : Calendar}

namespace Candidate

/-- A candidate is in a month, or on the first day after it. -/
structure LiesIn (year month : Int) (c : Candidate) : Prop where
  number : c.IsNumber
  place : c.year = year ∧ c.month = month ∨ c = .ofDay (Tabular.firstOfNextMonth year month)

/-- A candidate is in a year, or on the first day after a month of it. -/
structure LiesInYear (year : Int) (c : Candidate) : Prop where
  number : c.IsNumber
  place : c.year = year ∨ ∃ month, c = .ofDay (Tabular.firstOfNextMonth year month)

theorem LiesIn.inYear {year month : Int} {c : Candidate} (h : c.LiesIn year month) :
    c.LiesInYear year :=
  ⟨h.number, h.place.imp And.left fun hnext => ⟨month, hnext⟩⟩

/-- A quantity of days into a month is in the month, when it is a number. -/
theorem liesIn_mk {year month : Int} {day : Quantity} (h : day.IsNumber) :
    LiesIn year month ⟨year, month, day⟩ :=
  ⟨h, Or.inl ⟨rfl, rfl⟩⟩

end Candidate

/-! ### Cursors -/

/-- A date that is moved into a month is found in this month. -/
theorem LunarDate.place_of_moveTo {d : LunarDate} {year month : Int} {found : Option LunarDate}
    (h : (d.moveTo ctx year month true).outcome answers = .ok found) :
    ∃ e, found = some e ∧ e.year = year ∧ e.month = month := by
  by_cases hyear : year < 1
  · rw [moveTo, if_pos hyear] at h
    cases h
  · rw [moveTo, if_neg hyear] at h
    by_cases hsame : year = d.year ∧ month = d.month
    · rw [if_pos hsame] at h
      exact ⟨d, (Except.ok.inj h).symm, hsame.1.symm, hsame.2.symm⟩
    · rw [if_neg hsame] at h
      obtain ⟨cal, -, h⟩ := Calculation.outcome_bind_eq_ok.1 h
      obtain ⟨length, -, h⟩ := Calculation.outcome_bind_eq_ok.1 h
      obtain ⟨fits, -, h⟩ := Calculation.outcome_bind_eq_ok.1 h
      cases fits with
      | true =>
        obtain ⟨e, he, h⟩ := Calculation.outcome_bind_eq_ok.1 h
        obtain ⟨rfl, -⟩ := build_eq_ok.1 he
        exact ⟨_, (Except.ok.inj h).symm, rfl, rfl⟩
      | false =>
        obtain ⟨last, -, h⟩ := Calculation.outcome_bind_eq_ok.1 h
        obtain ⟨e, he, h⟩ := Calculation.outcome_bind_eq_ok.1 h
        obtain ⟨rfl, -⟩ := build_eq_ok.1 he
        exact ⟨_, (Except.ok.inj h).symm, rfl, rfl⟩

/-! ### Months -/

theorem liesIn_of_resolveDay {year month : Int} {day : Quantity} {skip : Skip} {c : Candidate}
    (h : (resolveDay cal year month day skip).outcome answers = .ok (some c)) :
    c.LiesIn year month := by
  obtain ⟨isDay, -, h⟩ := Calculation.outcome_bind_eq_ok.1 h
  split at h
  · cases h
  · obtain ⟨length, -, h⟩ := Calculation.outcome_bind_eq_ok.1 h
    obtain ⟨fits, hfits, h⟩ := Calculation.outcome_bind_eq_ok.1 h
    rw [Calculation.outcome_liftM] at hfits
    obtain ⟨hday, hlength⟩ := Quantity.isNumber_of_atMost hfits
    split at h
    · obtain rfl := Option.some.inj (Except.ok.inj h)
      exact Candidate.liesIn_mk hday
    · split at h
      · obtain rfl := Option.some.inj (Except.ok.inj h)
        exact Candidate.liesIn_mk hlength
      · obtain rfl := Option.some.inj (Except.ok.inj h)
        exact ⟨Candidate.isNumber_ofDay _, Or.inr rfl⟩
      · cases h

/-- A weekday of a month that is found is in the month. -/
theorem LunarDate.month_of_nthWeekday {year month weekday n : Int} {name : Option CalendarName}
    {d : LunarDate}
    (h : (nthWeekdayOfMonth ctx year month weekday n name).outcome answers = .ok (some d)) :
    d.year = year ∧ d.month = month := by
  unfold nthWeekdayOfMonth at h
  split at h
  · cases h
  · obtain ⟨variant, -, h⟩ := Calculation.outcome_bind_eq_ok.1 h
    obtain ⟨cal, -, h⟩ := Calculation.outcome_bind_eq_ok.1 h
    obtain ⟨length, -, h⟩ := Calculation.outcome_bind_eq_ok.1 h
    obtain ⟨first, -, h⟩ := Calculation.outcome_bind_eq_ok.1 h
    obtain ⟨days, -, h⟩ := Calculation.outcome_bind_eq_ok.1 h
    split at h
    · cases h
    · obtain ⟨e, he, h⟩ := Calculation.outcome_bind_eq_ok.1 h
      obtain ⟨rfl, -⟩ := build_eq_ok.1 he
      obtain rfl := Option.some.inj (Except.ok.inj h)
      exact ⟨rfl, rfl⟩

namespace RuleOptions

variable {o : RuleOptions}

theorem liesIn_of_dayFromEnd {year month offset : Int} {length : Quantity} {c : Candidate}
    (h : (dayFromEnd year month length offset).outcome answers = .ok (some c)) :
    c.LiesIn year month := by
  obtain ⟨day, -, h⟩ := Calculation.outcome_bind_eq_ok.1 h
  obtain ⟨isDay, hisDay, h⟩ := Calculation.outcome_bind_eq_ok.1 h
  rw [Calculation.outcome_liftM] at hisDay
  split at h
  · obtain rfl := Option.some.inj (Except.ok.inj h)
    exact Candidate.liesIn_mk (Quantity.isNumber_of_atMost hisDay).2
  · cases h

theorem month_of_datesOnNthWeekdays {year month : Int} {dates : List LunarDate}
    (h : (o.datesOnNthWeekdays ctx year month).outcome answers = .ok dates) :
    ∀ d ∈ dates, d.year = year ∧ d.month = month := by
  intro d hd
  obtain ⟨w, -, hw⟩ := Calculation.mem_of_outcome_filterMap h hd
  exact LunarDate.month_of_nthWeekday hw

theorem liesIn_of_daysOnWeekdays {year month : Int} {length : Quantity} {days : List Candidate}
    (h : (o.daysOnWeekdays cal year month length).outcome answers = .ok days) :
    ∀ c ∈ days, c.LiesIn year month := by
  obtain ⟨first, -, h⟩ := Calculation.outcome_bind_eq_ok.1 h
  obtain ⟨count, -, h⟩ := Calculation.outcome_bind_eq_ok.1 h
  obtain rfl := Except.ok.inj h
  intro c hc
  obtain ⟨day, -, rfl⟩ := List.mem_map.1 hc
  exact Candidate.liesIn_mk (Quantity.isNumber_whole day)

theorem liesIn_of_usualDayOf {year month usualDay : Int} {length : Quantity}
    {days : List Candidate}
    (h : (usualDayOf year month usualDay length).outcome answers = .ok days) :
    ∀ c ∈ days, c.LiesIn year month := by
  obtain ⟨fits, hfits, h⟩ := Calculation.outcome_bind_eq_ok.1 h
  rw [Calculation.outcome_liftM] at hfits
  obtain ⟨hday, hlength⟩ := Quantity.isNumber_of_atMost hfits
  obtain rfl := Except.ok.inj h
  intro c hc
  rw [List.mem_singleton.1 hc]
  cases fits
  · exact Candidate.liesIn_mk hlength
  · exact Candidate.liesIn_mk hday

theorem liesIn_of_monthCandidates {year month usualDay : Int} {days : List Candidate}
    (h : (o.monthCandidates ctx cal year month usualDay).outcome answers = .ok days) :
    ∀ c ∈ days, c.LiesIn year month := by
  rw [monthCandidates_eq] at h
  split at h
  · intro c hc
    obtain ⟨day, -, hday⟩ := Calculation.mem_of_outcome_filterMap h hc
    exact liesIn_of_resolveDay hday
  · obtain ⟨length, -, h⟩ := Calculation.outcome_bind_eq_ok.1 h
    split at h
    · intro c hc
      obtain ⟨offset, -, hday⟩ := Calculation.mem_of_outcome_filterMap h hc
      exact liesIn_of_dayFromEnd hday
    · split at h
      · obtain ⟨dates, hdates, h⟩ := Calculation.outcome_bind_eq_ok.1 h
        obtain rfl := Except.ok.inj h
        intro c hc
        obtain ⟨d, hd, rfl⟩ := List.mem_map.1 hc
        exact ⟨Candidate.isNumber_ofDay _, Or.inl (month_of_datesOnNthWeekdays hdates d hd)⟩
      · split at h
        · exact liesIn_of_daysOnWeekdays h
        · exact liesIn_of_usualDayOf h

theorem liesInYear_of_monthsCandidates {year usualDay : Int} {months : List Int}
    {days : List Candidate}
    (h : (o.monthsCandidates ctx cal year usualDay months).outcome answers = .ok days) :
    ∀ c ∈ days, c.LiesInYear year := by
  induction months generalizing days with
  | nil =>
    obtain rfl := Except.ok.inj h
    exact fun c hc => absurd hc List.not_mem_nil
  | cons month rest ih =>
    obtain ⟨first, hfirst, h⟩ := Calculation.outcome_bind_eq_ok.1 h
    obtain ⟨others, hothers, h⟩ := Calculation.outcome_bind_eq_ok.1 h
    obtain rfl := Except.ok.inj h
    exact List.forall_mem_append.2
      ⟨fun c hc => (liesIn_of_monthCandidates hfirst c hc).inYear, ih hothers⟩

/-! ### Years -/

/-- A position is found in a month by being compared with its length. -/
theorem isNumber_of_locate {year : Int} {months : List Int} {position : Quantity}
    {found : Int × Quantity}
    (h : (cal.locate year months position).outcome answers = .ok (some found)) :
    found.2.IsNumber := by
  induction months generalizing position with
  | nil => cases h
  | cons month rest ih =>
    obtain ⟨length, -, h⟩ := Calculation.outcome_bind_eq_ok.1 h
    obtain ⟨fits, hfits, h⟩ := Calculation.outcome_bind_eq_ok.1 h
    rw [Calculation.outcome_liftM] at hfits
    split at h
    · obtain rfl := Option.some.inj (Except.ok.inj h)
      exact (Quantity.isNumber_of_atMost hfits).1
    · obtain ⟨left, -, h⟩ := Calculation.outcome_bind_eq_ok.1 h
      exact ih h

theorem liesInYear_of_yearDayAt {year : Int} {length position : Quantity} {c : Candidate}
    (h : (yearDayAt cal year length position).outcome answers = .ok (some c)) :
    c.LiesInYear year := by
  obtain ⟨isWithin, -, h⟩ := Calculation.outcome_bind_eq_ok.1 h
  split at h
  · cases h
  · obtain ⟨found, hfound, h⟩ := Calculation.outcome_bind_eq_ok.1 h
    obtain ⟨place, rfl, rfl⟩ := Option.map_eq_some_iff.1 (Except.ok.inj h)
    exact ⟨isNumber_of_locate hfound, Or.inl rfl⟩

theorem liesInYear_of_yearDay {year offset : Int} {c : Candidate}
    (h : (yearDay cal year offset).outcome answers = .ok (some c)) : c.LiesInYear year := by
  rw [yearDay_eq] at h
  obtain ⟨length, -, h⟩ := Calculation.outcome_bind_eq_ok.1 h
  split at h
  · exact liesInYear_of_yearDayAt h
  · obtain ⟨position, -, h⟩ := Calculation.outcome_bind_eq_ok.1 h
    exact liesInYear_of_yearDayAt h

/-- Looking at weekdays adds no candidate. -/
theorem mem_of_onWeekdays {candidates days : List Candidate}
    (h : (o.onWeekdays cal candidates).outcome answers = .ok days) {c : Candidate}
    (hc : c ∈ days) : c ∈ candidates := by
  obtain ⟨e, he, h⟩ := Calculation.mem_of_outcome_filterMap h hc
  obtain ⟨weekday, -, h⟩ := Calculation.outcome_bind_eq_ok.1 h
  split at h
  · obtain rfl := Option.some.inj (Except.ok.inj h)
    exact he
  · cases h

theorem liesInYear_of_yearlyCandidates {cursor : LunarDate} {days : List Candidate}
    (h : (o.yearlyCandidates ctx cal cursor).outcome answers = .ok days) :
    ∀ c ∈ days, c.LiesInYear cursor.year := by
  have hfiltered : ∀ candidates : List Candidate,
      (∀ c ∈ candidates, c.LiesInYear cursor.year) →
      (if o.weekdays.isEmpty then (pure candidates : Calculation (List Candidate))
        else o.onWeekdays cal candidates).outcome answers = .ok days →
      ∀ c ∈ days, c.LiesInYear cursor.year := by
    intro candidates hall h
    split at h
    · obtain rfl := Except.ok.inj h
      exact hall
    · exact fun c hc => hall c (mem_of_onWeekdays h hc)
  unfold yearlyCandidates at h
  by_cases hmonths : (!o.months.isEmpty) = true
  · rw [if_pos hmonths] at h
    exact liesInYear_of_monthsCandidates h
  · rw [if_neg hmonths] at h
    by_cases hdays : (!o.monthDays.isEmpty || !o.monthDaysFromEnd.isEmpty) = true
    · simp only [hdays, if_true] at h
      obtain ⟨candidates, hcandidates, h⟩ := Calculation.outcome_bind_eq_ok.1 h
      exact hfiltered candidates
        (fun c hc => (liesIn_of_monthCandidates hcandidates c hc).inYear) h
    · by_cases hyear : (!o.yearDays.isEmpty) = true
      · simp only [hdays, hyear, if_true, Bool.false_eq_true, if_false] at h
        obtain ⟨candidates, hcandidates, h⟩ := Calculation.outcome_bind_eq_ok.1 h
        refine hfiltered candidates (fun c hc => ?_) h
        obtain ⟨offset, -, hday⟩ := Calculation.mem_of_outcome_filterMap hcandidates hc
        exact liesInYear_of_yearDay hday
      · simp only [hdays, hyear, Bool.false_eq_true, if_false] at h
        refine hfiltered _ (fun c hc => ?_) h
        rw [List.mem_singleton.1 hc]
        exact ⟨Candidate.isNumber_ofDay _, Or.inl rfl⟩

theorem liesIn_of_monthlyCandidates {cursor : LunarDate} {days : List Candidate}
    (h : (o.monthlyCandidates ctx cal cursor).outcome answers = .ok days) :
    ∀ c ∈ days, c.LiesIn cursor.year cursor.month := by
  unfold monthlyCandidates at h
  split at h
  · exact liesIn_of_monthCandidates h
  · obtain rfl := Except.ok.inj h
    exact fun c hc => absurd hc List.not_mem_nil

/-! ### Weeks and days -/

/-- A candidate is on the cursor, or on the date up to six days after it. -/
def LiesInWeek (ctx : Context) (answers : Answers) (cursor : LunarDate) (c : Candidate) : Prop :=
  ∃ e : LunarDate, c = .ofDay e.toLunarDay ∧ (e = cursor ∨
    ∃ i : Int, 0 ≤ i ∧ i < 7 ∧ (cursor.addDays ctx (.whole i)).outcome answers = .ok e)

theorem liesInWeek_of_weeklyCandidates {cursor : LunarDate} {days : List Candidate}
    (h : (o.weeklyCandidates ctx cursor).outcome answers = .ok days) :
    ∀ c ∈ days, LiesInWeek ctx answers cursor c := by
  unfold weeklyCandidates at h
  split at h
  · obtain rfl := Except.ok.inj h
    intro c hc
    obtain ⟨e, he, rfl⟩ := List.mem_map.1 hc
    exact ⟨e, rfl, Or.inl (List.mem_singleton.1 (List.mem_filter.1 he).1)⟩
  · obtain ⟨weekday, -, h⟩ := Calculation.outcome_bind_eq_ok.1 h
    obtain ⟨dates, hdates, h⟩ := Calculation.outcome_bind_eq_ok.1 h
    obtain rfl := Except.ok.inj h
    intro c hc
    obtain ⟨e, he, rfl⟩ := List.mem_map.1 hc
    obtain ⟨i, hi, h⟩ := Calculation.mem_of_outcome_filterMap hdates (List.mem_filter.1 he).1
    refine ⟨e, rfl, Or.inr ⟨i, ?_⟩⟩
    simp only [List.mem_cons, List.not_mem_nil, or_false] at hi
    split at h
    · rw [← bind_pure_comp] at h
      obtain ⟨found, hfound, h⟩ := Calculation.outcome_bind_eq_ok.1 h
      obtain rfl := Option.some.inj (Except.ok.inj h)
      exact ⟨by omega, by omega, hfound⟩
    · cases h

theorem eq_of_mem_dailyCandidates {cursor : LunarDate} {days : List Candidate}
    (h : (o.dailyCandidates ctx cursor).outcome answers = .ok days) :
    ∀ c ∈ days, c = .ofDay cursor.toLunarDay := by
  have hnone : (pure [] : Calculation (List Candidate)).outcome answers = .ok days →
      ∀ c ∈ days, c = .ofDay cursor.toLunarDay := by
    intro h
    obtain rfl := Except.ok.inj h
    exact fun c hc => absurd hc List.not_mem_nil
  have hcursor : (pure [.ofDay cursor.toLunarDay] : Calculation (List Candidate)).outcome answers =
      .ok days → ∀ c ∈ days, c = .ofDay cursor.toLunarDay := by
    intro h
    obtain rfl := Except.ok.inj h
    exact fun c hc => List.mem_singleton.1 hc
  have hweekday : (if !o.weekdays.isEmpty then do
        let weekday ← cursor.weekday ctx
        if !o.weekdayNumbers.contains weekday then return [] else
          return [.ofDay cursor.toLunarDay]
      else return [.ofDay cursor.toLunarDay] : Calculation (List Candidate)).outcome answers =
      .ok days → ∀ c ∈ days, c = .ofDay cursor.toLunarDay := by
    intro h
    split at h
    · obtain ⟨weekday, -, h⟩ := Calculation.outcome_bind_eq_ok.1 h
      split at h
      · exact hnone h
      · exact hcursor h
    · exact hcursor h
  unfold dailyCandidates at h
  by_cases hmonth : (!o.allowsMonth cursor.month) = true
  · rw [if_pos hmonth] at h
    exact hnone h
  · rw [if_neg hmonth] at h
    by_cases hdays : (!o.monthDays.isEmpty || !o.monthDaysFromEnd.isEmpty) = true
    · simp only [hdays, if_true] at h
      obtain ⟨length, -, h⟩ := Calculation.outcome_bind_eq_ok.1 h
      obtain ⟨isAllowed, -, h⟩ := Calculation.outcome_bind_eq_ok.1 h
      cases isAllowed with
      | false => exact hnone h
      | true => exact hweekday h
    · simp only [hdays, Bool.false_eq_true, if_false] at h
      exact hweekday h

/-! ### Periods -/

/-- Where a rule proposes candidates in the period of a cursor, by its frequency. -/
def IsProposedAt (ctx : Context) (answers : Answers) (o : RuleOptions) (cursor : LunarDate)
    (c : Candidate) : Prop :=
  match o.frequency with
  | .yearly => c.LiesInYear cursor.year
  | .monthly => c.LiesIn cursor.year cursor.month
  | .weekly => LiesInWeek ctx answers cursor c
  | .daily | .hourly | .minutely | .secondly => c = .ofDay cursor.toLunarDay

theorem IsProposedAt.number {cursor : LunarDate} {c : Candidate}
    (h : o.IsProposedAt ctx answers cursor c) : c.IsNumber := by
  unfold IsProposedAt at h
  split at h
  · exact h.number
  · exact h.number
  · obtain ⟨e, rfl, -⟩ := h
    exact Candidate.isNumber_ofDay _
  all_goals
    rw [h]
    exact Candidate.isNumber_ofDay _

/-- **What a period proposes is in its place and in increasing order, if it can be worked out at
all.** -/
theorem isProposedAt_of_candidates {cursor : LunarDate} {days : List Candidate}
    (h : (o.candidates ctx cal cursor).outcome answers = .ok days) :
    (∀ c ∈ days, o.IsProposedAt ctx answers cursor c) ∧
      days.Pairwise fun a b => a.before b = true := by
  have hsorted : ∀ candidates : List Candidate,
      (∀ c ∈ candidates, o.IsProposedAt ctx answers cursor c) →
      (pure (Candidate.sorted candidates) : Calculation _).outcome answers = .ok days →
      (∀ c ∈ days, o.IsProposedAt ctx answers cursor c) ∧
        days.Pairwise fun a b => a.before b = true := by
    intro candidates hall h
    obtain rfl := Except.ok.inj h
    exact ⟨fun c hc => hall c (Candidate.mem_of_mem_sorted hc),
      Candidate.pairwise_sorted fun c hc => (hall c hc).number⟩
  unfold candidates at h
  unfold IsProposedAt at hsorted ⊢
  cases hfrequency : o.frequency with
  | yearly =>
    simp only [hfrequency] at h hsorted ⊢
    obtain ⟨candidates, hcandidates, h⟩ := Calculation.outcome_bind_eq_ok.1 h
    exact hsorted candidates (liesInYear_of_yearlyCandidates hcandidates) h
  | monthly =>
    simp only [hfrequency] at h hsorted ⊢
    obtain ⟨candidates, hcandidates, h⟩ := Calculation.outcome_bind_eq_ok.1 h
    exact hsorted candidates (liesIn_of_monthlyCandidates hcandidates) h
  | weekly =>
    simp only [hfrequency] at h hsorted ⊢
    obtain ⟨candidates, hcandidates, h⟩ := Calculation.outcome_bind_eq_ok.1 h
    exact hsorted candidates (liesInWeek_of_weeklyCandidates hcandidates) h
  | daily =>
    simp only [hfrequency] at h hsorted ⊢
    obtain ⟨candidates, hcandidates, h⟩ := Calculation.outcome_bind_eq_ok.1 h
    exact hsorted candidates (eq_of_mem_dailyCandidates hcandidates) h
  | hourly | minutely | secondly =>
    simp only [hfrequency] at h hsorted ⊢
    exact hsorted _ (fun c hc => List.mem_singleton.1 hc) h

/-- What stands at some positions is proposed. -/
theorem mem_of_mem_positions {candidates : List Candidate} {positions : List Int} {c : Candidate}
    (hc : c ∈ positions.filterMap fun position =>
      let index : Int := if 0 < position then position - 1 else candidates.length + position
      if 0 ≤ index then candidates[index.toNat]? else none) : c ∈ candidates := by
  obtain ⟨position, -, hc⟩ := List.mem_filterMap.1 hc
  dsimp only at hc
  generalize (if 0 < position then position - 1 else candidates.length + position : Int) = index
    at hc
  split at hc
  · exact List.mem_of_getElem? hc
  · cases hc

/-- **The days of a period are in its place.** -/
theorem isProposedAt_of_periodDays {cursor : LunarDate} {days : List Candidate}
    (h : (o.periodDays ctx cal cursor).outcome answers = .ok days) :
    ∀ c ∈ days, o.IsProposedAt ctx answers cursor c := by
  obtain ⟨candidates, hcandidates, h⟩ := Calculation.outcome_bind_eq_ok.1 h
  have hall := (isProposedAt_of_candidates hcandidates).1
  obtain rfl := Except.ok.inj h
  split
  · exact hall
  · exact fun c hc => hall c (mem_of_mem_positions (Candidate.mem_of_mem_sorted hc))

/-- **The days of a period are strictly increasing.** -/
theorem pairwise_periodDays {cursor : LunarDate} {days : List Candidate}
    (h : (o.periodDays ctx cal cursor).outcome answers = .ok days) :
    days.Pairwise fun a b => a.before b = true := by
  obtain ⟨candidates, hcandidates, h⟩ := Calculation.outcome_bind_eq_ok.1 h
  obtain ⟨hall, hsorted⟩ := isProposedAt_of_candidates hcandidates
  obtain rfl := Except.ok.inj h
  split
  · exact hsorted
  · exact Candidate.pairwise_sorted fun c hc =>
      (hall c (mem_of_mem_positions hc)).number

end RuleOptions

end HijriRecurrence
