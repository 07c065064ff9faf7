import HijriRecurrence.Proofs.Rule.Walk
import HijriRecurrence.Proofs.Tabular.DayShift

/-!
# The occurrences of a rule, enumerated

`Enumerates` says which days a rule stands for, without a word on how they are found: the days that
any of its periods proposes, from the first date on and up to the last, in strictly increasing
order.  The walk of a rule of the tabular calendar never fails and yields these days, cut to the
count, each with the time of day of the first date (`occurrences_enumerate`).

The rule has to reach its periods by exact shifts.  Rules by months and years do so always, and the
others as long as their periods stay within the range in which the day index is exact
(`countsDaysExactly_of_range`).
-/

namespace HijriRecurrence

/-! ### A rule's periods within range -/

namespace RuleOptions

open Tabular

variable {ctx : Context} {answers : Answers} {o : RuleOptions}

/-- Days to a period grow with the period. -/
theorem daysTo_le_daysTo (ho : o.Normalized ctx answers) {period later : Int}
    (h : period ≤ later) : o.daysTo period ≤ o.daysTo later := by
  have hi := ho.interval
  have hle : period * o.interval ≤ later * o.interval :=
    Int.mul_le_mul_of_nonneg_right h (by omega)
  unfold daysTo
  split <;> omega

/-- **A rule counts days exactly when all its periods are within the range of exact shifts.** -/
theorem countsDaysExactly_of_range (ho : o.Normalized ctx answers) (hv : o.variant = .tabular)
    (h : Tabular.dayNumberOf o.start.toLunarDay + o.daysTo o.periodLimit + 6 <
      DayIndex.numberBound) : o.CountsDaysExactly ctx answers := by
  have hsv := ho.start_variant.trans hv
  have hepoch := epoch_le_dayNumberOf (ho.isDay_start hv)
  have hshift : ∀ period, 0 ≤ period → period < o.periodLimit →
      o.start.ShiftsExactly ctx answers (o.daysTo period) := by
    intro period hk hlimit
    have hdays := daysTo_nonneg ho hk
    have hle := daysTo_le_daysTo ho (Int.le_of_lt hlimit)
    exact LunarDate.shiftsExactly_of_range ho.start hsv (by omega) (by omega)
  refine ⟨hshift, ?_⟩
  intro period cursor hk hlimit hcursor hweek i hi hi'
  obtain ⟨found, hfound, hbuilt, hcv, hday⟩ := outcome_cursor ho hv hk (hshift period hk hlimit)
  obtain rfl : found = cursor := Except.ok.inj (hfound.symm.trans hcursor)
  have hdays := daysTo_nonneg ho hk
  have hle := daysTo_le_daysTo ho (Int.le_of_lt hlimit)
  have hnum := dayNumberOf_cursorDay ho hv hk (by simp [hweek]) (by simp [hweek])
  rw [← hday] at hnum
  exact LunarDate.shiftsExactly_of_range hbuilt hcv (by omega) (by omega)

/-! ### Days that a rule stands for -/

def periodCandidates (ctx : Context) (o : RuleOptions) (period : Int) :
    Calculation (List Candidate) := do
  let cursor ← o.cursor ctx period
  o.periodDays ctx Tabular.calendar cursor

/-- A rule proposes a day in a period. -/
def Proposes (ctx : Context) (answers : Answers) (o : RuleOptions) (period : Int)
    (d : LunarDay) : Prop :=
  ∃ candidates, (o.periodCandidates ctx period).outcome answers = .ok candidates ∧
    .ofDay d ∈ candidates

/-- The days that a rule stands for before it is cut to its count. -/
structure Enumerates (ctx : Context) (answers : Answers) (o : RuleOptions)
    (days : List LunarDay) : Prop where
  increasing : days.Pairwise (· < ·)
  mem_iff : ∀ d, d ∈ days ↔
    (∃ period, 0 ≤ period ∧ period < o.periodLimit ∧ o.Proposes ctx answers period d) ∧
      o.start.toLunarDay ≤ d ∧ ∀ last ∈ o.last, d ≤ last.toLunarDay

/-- The first days of a list, as many as the count of a rule says. -/
def cutToCount (o : RuleOptions) (days : List LunarDay) : List LunarDay :=
  match o.count with
  | none => days
  | some count => days.take count.toNat

theorem cutAfter_zero (days : List LunarDay) : o.cutAfter 0 days = o.cutToCount days := by
  unfold cutAfter cutToCount
  cases o.count with
  | none => rfl
  | some count => exact congrArg (fun n => List.take n days) (by omega)

/-- The candidates of a period whose days are reached by exact shifts. -/
theorem outcome_periodCandidates_of_shift (ho : o.Normalized ctx answers)
    (hv : o.variant = .tabular) {period : Int} (hk : 0 ≤ period)
    (hshift : o.start.ShiftsExactly ctx answers (o.daysTo period))
    (hweek : ∀ cursor, (o.cursor ctx period).outcome answers = .ok cursor →
      o.WeekIsExact ctx answers cursor) :
    (o.periodCandidates ctx period).outcome answers =
      .ok ((o.daysOfPeriod (o.cursorDay period)).map .ofDay) := by
  obtain ⟨cursor, hcursor, hbuilt, hcv, hday⟩ := outcome_cursor ho hv hk hshift
  rw [periodCandidates, Calculation.outcome_bind_ok hcursor, ← hday]
  exact outcome_periodDays ho hv hbuilt hcv (hweek cursor hcursor)

theorem outcome_periodCandidates (ho : o.Normalized ctx answers) (hv : o.variant = .tabular)
    (hx : o.CountsDaysExactly ctx answers) {period : Int} (hk : 0 ≤ period)
    (hlimit : period < o.periodLimit) :
    (o.periodCandidates ctx period).outcome answers =
      .ok ((o.daysOfPeriod (o.cursorDay period)).map .ofDay) :=
  outcome_periodCandidates_of_shift ho hv hk (hx.cursor _ hk hlimit)
    fun cursor => hx.week _ cursor hk hlimit

theorem proposes_iff_mem {period : Int} {days : List LunarDay}
    (h : (o.periodCandidates ctx period).outcome answers = .ok (days.map .ofDay)) {d : LunarDay} :
    o.Proposes ctx answers period d ↔ d ∈ days := by
  rw [Proposes, h]
  constructor
  · rintro ⟨candidates, hcandidates, hd⟩
    rw [← Except.ok.inj hcandidates] at hd
    obtain ⟨e, he, heq⟩ := List.mem_map.1 hd
    exact Candidate.ofDay_injective heq ▸ he
  · exact fun hd => ⟨_, rfl, List.mem_map_of_mem hd⟩

theorem proposes_iff (ho : o.Normalized ctx answers) (hv : o.variant = .tabular)
    (hx : o.CountsDaysExactly ctx answers) {period : Int} (hk : 0 ≤ period)
    (hlimit : period < o.periodLimit) {d : LunarDay} :
    o.Proposes ctx answers period d ↔ d ∈ o.daysOfPeriod (o.cursorDay period) :=
  proposes_iff_mem (outcome_periodCandidates ho hv hx hk hlimit)

/-- Rules by months and years reach all their periods, within the limit or not. -/
theorem proposes_iff_of_months (ho : o.Normalized ctx answers) (hv : o.variant = .tabular)
    (hf : o.frequency = .yearly ∨ o.frequency = .monthly) {period : Int} (hk : 0 ≤ period)
    {d : LunarDay} :
    o.Proposes ctx answers period d ↔ d ∈ o.daysOfPeriod (o.cursorDay period) :=
  proposes_iff_mem (outcome_periodCandidates_of_shift ho hv hk
    (shiftsExactly_of_months ho hv hf period) fun cursor _ => weekIsExact_of_months hf cursor)

theorem periodLimit_pos (o : RuleOptions) : 0 < o.periodLimit := by
  unfold periodLimit
  split <;> omega

theorem isWithin_iff {d : LunarDay} :
    o.isWithin d = true ↔ ∀ last ∈ o.last, d ≤ last.toLunarDay := by
  rw [isWithin, Option.all_eq_true]
  simp only [decide_eq_true_eq, Option.mem_def]

/-- **The occurrences of a rule are what its known periods declare, cut to the count,** when these
are all its periods, or they end the walk, or the first period that is not known ends it. -/
theorem occurrences_yield_known (ho : o.Normalized ctx answers) {cal : Calendar} {known : Int}
    {first : Int → LunarDay} {proposed : Int → List LunarDay}
    (h : o.KnownPeriods ctx answers cal known first proposed)
    (hserve : (ctx.serve o.variant).outcome answers = .ok cal) (hpos : 0 ≤ known)
    (hlimit : known ≤ o.periodLimit)
    (hend : known = o.periodLimit ∨ o.EndsWithin proposed 0 known.toNat none 0 ∨
      ∀ periods taken emitted,
        (o.walk ctx cal (periods + 1) known taken emitted).Yields answers []) :
    ∃ days, o.Declared proposed 0 known.toNat none days ∧
      (o.occurrences ctx).Yields answers ((o.cutToCount days).map o.occurrenceOn) := by
  have hknown : 0 + (known.toNat : Int) = known := by omega
  unfold occurrences
  by_cases hcount : o.count = some 0
  · obtain ⟨days, hdays⟩ := exists_declared h (Int.le_refl 0) (Int.le_of_eq hknown) none
    refine ⟨days, hdays, ?_⟩
    rw [if_pos hcount, cutToCount, hcount]
    exact Occurrences.yields_done
  · have hfew : o.isReached 0 = false := by
      unfold isReached
      cases hc : o.count with
      | none => rfl
      | some count =>
        have hnonneg := ho.count count hc
        rw [hc, Option.some.injEq] at hcount
        simp only [Option.any_some, decide_eq_false_iff_not]
        omega
    have hmore : o.EndsWithin proposed 0 known.toNat none 0 ∨ ∀ taken emitted,
        (o.walk ctx cal (o.periodLimit - known).toNat (0 + known.toNat) taken emitted).Yields
          answers [] := by
      rcases hend with rfl | hends | hstop
      · rw [Int.sub_self]
        exact Or.inr fun _ _ => Occurrences.yields_done
      · exact Or.inl hends
      · refine Or.inr fun taken emitted => ?_
        rw [hknown]
        cases (o.periodLimit - known).toNat with
        | zero => exact Occurrences.yields_done
        | succ periods => exact hstop periods taken emitted
    obtain ⟨days, hdays, hyields⟩ := walk_yields h (Int.le_refl 0) (Int.le_of_eq hknown)
      (fun previous hnone => absurd hnone (by simp)) hfew hmore
    rw [cutAfter_zero, show known.toNat + (o.periodLimit - known).toNat = o.periodLimit.toNat by
      omega] at hyields
    rw [if_neg hcount]
    exact ⟨days, hdays, .after hserve hyields⟩

/-- In the tabular calendar all periods are known. -/
theorem occurrences_yield (ho : o.Normalized ctx answers) (hv : o.variant = .tabular)
    (hx : o.CountsDaysExactly ctx answers) :
    ∃ days, o.Declared o.daysAt 0 o.periodLimit.toNat none days ∧
      (o.occurrences ctx).Yields answers ((o.cutToCount days).map o.occurrenceOn) := by
  have hserve : (ctx.serve o.variant).outcome answers = .ok Tabular.calendar := by
    rw [hv]
    rfl
  exact occurrences_yield_known ho (knownPeriods ho hv hx) hserve (Int.le_of_lt (periodLimit_pos o))
    (Int.le_refl _) (Or.inl rfl)

/-- Declared from the first period on, a day is proposed, and within the dates of the rule. -/
theorem Declared.enumerates (ho : o.Normalized ctx answers) (hv : o.variant = .tabular)
    (hx : o.CountsDaysExactly ctx answers) {days : List LunarDay}
    (h : o.Declared o.daysAt 0 o.periodLimit.toNat none days) : o.Enumerates ctx answers days := by
  have hlimit := periodLimit_pos o
  refine ⟨h.increasing, fun d => (h.mem_iff d).trans ?_⟩
  rw [isWithin_iff, isNew_none_iff]
  constructor
  · rintro ⟨⟨k, hk, hlt, hd⟩, hlast, hstart⟩
    exact ⟨⟨k, hk, by omega, (proposes_iff ho hv hx hk (by omega)).2 hd⟩, hstart, hlast⟩
  · rintro ⟨⟨k, hk, hlt, hd⟩, hstart, hlast⟩
    exact ⟨⟨k, hk, by omega, (proposes_iff ho hv hx hk hlt).1 hd⟩, hlast, hstart⟩

/-- Without a count and positions a rule passes along every day within its dates that one of its
periods proposes. -/
theorem mem_occurrences_iff (ho : o.Normalized ctx answers) (hv : o.variant = .tabular)
    (hx : o.CountsDaysExactly ctx answers) (hcount : o.count = none) (hpos : o.positions = [])
    {v : LunarDay} (hstart : o.start.toLunarDay ≤ v)
    (hlast : ∀ last ∈ o.last, v ≤ last.toLunarDay) :
    (∃ d ∈ (o.occurrences ctx).items answers, d.toLunarDay = v) ↔
      ∃ period, 0 ≤ period ∧ period < o.periodLimit ∧
        v ∈ o.proposedDays (o.cursorDay period) := by
  have hlimit := periodLimit_pos o
  obtain ⟨days, hdeclared, hyields⟩ := occurrences_yield ho hv hx
  have hitems : (∃ d ∈ (o.occurrences ctx).items answers, d.toLunarDay = v) ↔ v ∈ days := by
    rw [cutToCount, hcount] at hyields
    rw [hyields.items]
    constructor
    · rintro ⟨d, hd, rfl⟩
      obtain ⟨day, hday, rfl⟩ := List.mem_map.1 hd
      exact hday
    · exact fun hday => ⟨o.occurrenceOn v, List.mem_map_of_mem hday, rfl⟩
  rw [hitems, hdeclared.mem_iff]
  constructor
  · rintro ⟨⟨k, hk, hlt, hmem⟩, -⟩
    exact ⟨k, hk, by omega, (mem_daysOfPeriod hpos).1 hmem⟩
  · rintro ⟨k, hk, hlt, hmem⟩
    exact ⟨⟨k, hk, by omega, (mem_daysOfPeriod hpos).2 hmem⟩, isWithin_iff.2 hlast,
      isNew_none_iff.2 hstart⟩

/-- **Where the days of a period are those some number of steps away that pass a test, so are the
occurrences:** the steps have to be a multiple of the interval. -/
theorem mem_occurrences_iff_dvd (ho : o.Normalized ctx answers) (hv : o.variant = .tabular)
    (hx : o.CountsDaysExactly ctx answers) (hcount : o.count = none) (hpos : o.positions = [])
    {v : LunarDay} (hstart : o.start.toLunarDay ≤ v) (hlast : ∀ last ∈ o.last, v ≤ last.toLunarDay)
    {steps : Int} (hsteps : 0 ≤ steps) (hlimit : steps / o.interval < o.periodLimit) {test : Prop}
    (hproposed : ∀ period, 0 ≤ period →
      (v ∈ o.proposedDays (o.cursorDay period) ↔ period * o.interval = steps ∧ test)) :
    (∃ d ∈ (o.occurrences ctx).items answers, d.toLunarDay = v) ↔ o.interval ∣ steps ∧ test := by
  have hi := ho.interval
  rw [mem_occurrences_iff ho hv hx hcount hpos hstart hlast]
  constructor
  · rintro ⟨period, hk, -, hmem⟩
    obtain ⟨rfl, htest⟩ := (hproposed period hk).1 hmem
    exact ⟨Int.dvd_mul_left _ _, htest⟩
  · rintro ⟨hdvd, htest⟩
    have hk : 0 ≤ steps / o.interval := Int.ediv_nonneg hsteps (by omega)
    exact ⟨steps / o.interval, hk, hlimit,
      (hproposed _ hk).2 ⟨Int.ediv_mul_cancel hdvd, htest⟩⟩

/-- **A rule of the tabular calendar yields exactly the days that it stands for.**  No period
fails.  The days are cut to the count, and each becomes a date that exists, with the time of day of
the first date and in the rule's calendar. -/
theorem occurrences_enumerate (ho : o.Normalized ctx answers) (hv : o.variant = .tabular)
    (hx : o.CountsDaysExactly ctx answers) :
    (∀ period, 0 ≤ period → period < o.periodLimit → ∃ days : List LunarDay,
      (o.periodCandidates ctx period).outcome answers = .ok (days.map .ofDay)) ∧
    ∃ days, o.Enumerates ctx answers days ∧
      (o.occurrences ctx).Yields answers ((o.cutToCount days).map o.occurrenceOn) ∧
      ∀ d ∈ days, (o.occurrenceOn d).Built ctx answers := by
  obtain ⟨days, hdeclared, hyields⟩ := occurrences_yield ho hv hx
  refine ⟨fun period hk hlimit => ⟨_, outcome_periodCandidates ho hv hx hk hlimit⟩, ?_⟩
  refine ⟨days, hdeclared.enumerates ho hv hx, hyields, ?_⟩
  intro d hd
  obtain ⟨⟨k, hk, -, hmem⟩, -⟩ := (hdeclared.mem_iff d).1 hd
  exact built_occurrenceOn ho hv (isDay_of_mem_daysOfPeriod ho hv hk hmem)

/-! ### Rules given outright -/

/-- A date of the tabular calendar that exists, in a form that can be decided. -/
def isTabularDate (d : LunarDate) : Bool :=
  d.variant == .tabular && decide (IsDay d.toLunarDay) &&
    decide (0 ≤ d.hour ∧ d.hour ≤ 23 ∧ 0 ≤ d.minute ∧ d.minute ≤ 59 ∧ 0 ≤ d.second ∧ d.second ≤ 59)

theorem built_of_isTabularDate {d : LunarDate} (h : isTabularDate d = true) :
    d.Built ctx answers ∧ d.variant = .tabular := by
  rw [isTabularDate,
    Bool.and_eq_true, Bool.and_eq_true, beq_iff_eq, decide_eq_true_eq, decide_eq_true_eq] at h
  obtain ⟨⟨hv, hday⟩, hh, hh', hm, hm', hs, hs'⟩ := h
  have hlen := (monthDays_bounds d.year d.month).2
  obtain ⟨hy, hmonth, hmonth', hd, hd'⟩ := hday
  refine ⟨(LunarDate.built_iff_of_tabular hv).2 ⟨?_, hy, hmonth, hmonth', hd, hd'⟩, hv⟩
  exact ⟨hy, ⟨hmonth, hmonth'⟩, ⟨hd, by omega⟩, ⟨hh, hh'⟩, ⟨hm, hm'⟩, ⟨hs, hs'⟩⟩

/-- Options of the tabular calendar whose lists and dates are in their ranges. -/
def InBounds (o : RuleOptions) : Prop :=
  o.variant = .tabular ∧ isTabularDate o.start = true ∧ o.last.all isTabularDate = true ∧
    1 ≤ o.interval ∧ (∀ n ∈ o.count, 0 ≤ n) ∧
    (∀ n ∈ o.positions, (-366 ≤ n ∧ n ≤ 366) ∧ n ≠ 0) ∧
    (∀ n ∈ o.months, 1 ≤ n ∧ n ≤ 12) ∧ (∀ n ∈ o.monthDays, 1 ≤ n ∧ n ≤ 30) ∧
    (∀ n ∈ o.monthDaysFromEnd, -30 ≤ n ∧ n ≤ -1) ∧
    (∀ n ∈ o.yearDays, (-355 ≤ n ∧ n ≤ 355) ∧ n ≠ 0) ∧
    (∀ w ∈ o.weekdays, w.isNth = false) ∧ (∀ w ∈ o.nthWeekdays, w.isNth = true) ∧
    (∀ n ∈ o.hours, 0 ≤ n ∧ n ≤ 23) ∧ (∀ n ∈ o.minutes, 0 ≤ n ∧ n ≤ 59) ∧
    ∀ n ∈ o.seconds, 0 ≤ n ∧ n ≤ 59

instance (o : RuleOptions) : Decidable o.InBounds := by
  unfold InBounds
  infer_instance

theorem normalized_of_inBounds (h : o.InBounds) : o.Normalized ctx answers := by
  obtain ⟨hv, hstart, hlast, hi, hcount, hpos, hmonths, hmd, hmde, hyd, hw, hnth, hh, hm, hs⟩ := h
  have hbuilt : o.start.Built ctx answers ∧ o.start.variant = .tabular :=
    built_of_isTabularDate hstart
  exact
    { interval := hi
      count := hcount
      start := hbuilt.1
      start_variant := hbuilt.2.trans hv.symm
      last := fun d hd => (built_of_isTabularDate ((Option.all_eq_true _ _).1 hlast d hd)).imp id
        fun hdv => hdv.trans hv.symm
      positions := hpos
      months := hmonths
      monthDays := hmd
      monthDaysFromEnd := hmde
      yearDays := hyd
      weekdays := hw
      nthWeekdays := hnth
      hours := hh
      minutes := hm
      seconds := hs }

/-- Every other Friday at half past ten in Ramadan and Shawwal 1446, twelve times at most, with days
that a month lacks pushed forward. -/
def everyOtherFriday : RuleOptions where
  frequency := .weekly
  start := { year := 1446, month := 9, day := 1, hour := 10, minute := 30, variant := .tabular }
  interval := 2
  count := some 12
  last := some { year := 1446, month := 10, day := 29, variant := .tabular }
  months := [9, 10]
  weekdays := [⟨4, none⟩]
  skip := .forward
  variant := .tabular

theorem occurrences_enumerate_everyOtherFriday :
    everyOtherFriday.Normalized .hostless .unknown ∧
    everyOtherFriday.CountsDaysExactly .hostless .unknown ∧
    ∃ days, everyOtherFriday.Enumerates .hostless .unknown days ∧
      (everyOtherFriday.occurrences .hostless).Yields .unknown
        ((days.take 12).map everyOtherFriday.occurrenceOn) := by
  have ho : everyOtherFriday.Normalized .hostless .unknown := normalized_of_inBounds (by decide)
  have hx : everyOtherFriday.CountsDaysExactly .hostless .unknown :=
    countsDaysExactly_of_range ho rfl (by decide)
  obtain ⟨-, days, hdays, hyields, -⟩ := occurrences_enumerate ho rfl hx
  exact ⟨ho, hx, days, hdays, hyields⟩

end RuleOptions

end HijriRecurrence
