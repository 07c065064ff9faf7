import HijriRecurrence.Proofs.Rule.CandidateParts
import HijriRecurrence.Proofs.Tabular.Position

/-!
# The days a rule proposes in a month

In the tabular calendar the candidates of a month are a list of days that can be written down at
once: `RuleOptions.daysInMonth`.  The calculation never fails and comes to that list, part by part
(`outcome_monthCandidates`), and all days of it exist (`isDay_of_mem_daysInMonth`).

The same is done for a position in a year (`Tabular.yearDay`).
-/

namespace HijriRecurrence

open Tabular

namespace Tabular

def firstOfNextMonth (year month : Int) : LunarDay :=
  if month = 12 then ⟨year + 1, 1, 1⟩ else ⟨year, month + 1, 1⟩

/-- The day that a request for a day of a month stands for. -/
def resolve (year month day : Int) (skip : Skip) : Option LunarDay :=
  if day < 1 then none
  else if day ≤ monthDays year month then some ⟨year, month, day⟩
  else
    match skip with
    | .omit => none
    | .backward => some ⟨year, month, monthDays year month⟩
    | .forward => some (firstOfNextMonth year month)

/-- The day at an offset from the end of a month, the last one being -1. -/
def fromEnd (year month offset : Int) : Option LunarDay :=
  if 1 ≤ monthDays year month + offset + 1 then
    some ⟨year, month, monthDays year month + offset + 1⟩
  else none

/-- The day of a weekday at a position among the same weekdays of a month. -/
def nthWeekday (year month : Int) (w : Weekday) : Option LunarDay :=
  (LunarDate.nth? (LunarDate.weekdaysOfMonth (weekdayOf ⟨year, month, 1⟩) (monthDays year month)
    w.number) (w.ordinal?.getD 0)).map fun day => ⟨year, month, day⟩

def daysOfMonth (year month : Int) : List LunarDay :=
  (List.range (monthDays year month).toNat).map fun (i : Nat) => ⟨year, month, (i : Int) + 1⟩

/-- The day at a position of a year, counted from 1 at its start and from -1 at its end. -/
def yearDay (year offset : Int) : Option LunarDay :=
  let position := if 0 < offset then offset else yearDays year + offset + 1
  if 1 ≤ position ∧ position ≤ yearDays year then locate year allMonths position else none

/-! ### Days that exist -/

theorem isDay_firstOfNextMonth {year month : Int} (hy : 1 ≤ year) (hm : 1 ≤ month ∧ month ≤ 12) :
    IsDay (firstOfNextMonth year month) := by
  unfold firstOfNextMonth
  split
  · exact isDay_first (by omega) (by omega)
  · exact isDay_first hy (by omega)

/-- The days of a month come before the first of the next. -/
theorem lt_firstOfNextMonth (d : LunarDay) : d < firstOfNextMonth d.year d.month := by
  rw [firstOfNextMonth, LunarDay.lt_def]
  split <;> dsimp only <;> omega

theorem mem_daysOfMonth {year month : Int} {d : LunarDay} (hy : 1 ≤ year)
    (hm : 1 ≤ month ∧ month ≤ 12) :
    d ∈ daysOfMonth year month ↔ IsDay d ∧ d.year = year ∧ d.month = month := by
  rw [daysOfMonth, List.mem_map]
  constructor
  · rintro ⟨i, hi, rfl⟩
    have hi := List.mem_range.1 hi
    exact ⟨isDay_mk.2 (by omega), rfl, rfl⟩
  · rintro ⟨hday, rfl, rfl⟩
    have hd := hday.2.2.2
    refine ⟨(d.day - 1).toNat, List.mem_range.2 (by omega), ?_⟩
    refine LunarDay.ext_fields rfl rfl ?_
    dsimp only
    omega

/-- Within a month weekdays follow each other. -/
theorem weekdayOf_mk (year month day : Int) :
    weekdayOf ⟨year, month, day⟩ = (weekdayOf ⟨year, month, 1⟩ + day - 1) % 7 := by
  unfold weekdayOf
  rw [dayNumberOf_mk, dayNumberOf_mk]
  omega

theorem mem_weekdaysOfMonth {first length weekday day : Int} :
    day ∈ LunarDate.weekdaysOfMonth first length weekday ↔
      (1 ≤ day ∧ day ≤ length) ∧ (first + day - 1) % 7 = weekday := by
  rw [LunarDate.weekdaysOfMonth, List.mem_filter, List.mem_map]
  refine and_congr ?_ beq_iff_eq
  constructor
  · rintro ⟨i, hi, rfl⟩
    have hi := List.mem_range.1 hi
    omega
  · rintro ⟨h, h'⟩
    exact ⟨(day - 1).toNat, List.mem_range.2 (by omega), by omega⟩

theorem mem_of_nth? {α : Type} {items : List α} {n : Int} {a : α}
    (h : LunarDate.nth? items n = some a) : a ∈ items := by
  unfold LunarDate.nth? at h
  split at h
  · exact absurd h (by simp)
  · split at h
    · exact List.mem_of_getElem? h
    · exact List.mem_of_getElem? h

/-- A weekday of a month that is found is a day of the month. -/
theorem isDay_of_nthWeekday {year month : Int} {w : Weekday} {d : LunarDay} (hy : 1 ≤ year)
    (hm : 1 ≤ month ∧ month ≤ 12) (h : nthWeekday year month w = some d) :
    IsDay d ∧ d.year = year ∧ d.month = month := by
  obtain ⟨day, hday, rfl⟩ := Option.map_eq_some_iff.1 h
  have hrange := (mem_weekdaysOfMonth.1 (mem_of_nth? hday)).1
  exact ⟨isDay_mk.2 (by omega), rfl, rfl⟩

/-- A day that is resolved is the one asked for or the next month's first. -/
theorem isDay_of_resolve {year month day : Int} {skip : Skip} {d : LunarDay} (hy : 1 ≤ year)
    (hm : 1 ≤ month ∧ month ≤ 12) (h : resolve year month day skip = some d) :
    IsDay d ∧ (d.year = year ∧ d.month = month ∨ d = firstOfNextMonth year month) := by
  have hlen := (monthDays_bounds year month).1
  unfold resolve at h
  split at h
  · exact absurd h (by simp)
  · split at h
    · obtain rfl := Option.some.inj h
      exact ⟨isDay_mk.2 (by omega), Or.inl ⟨rfl, rfl⟩⟩
    · split at h
      · exact absurd h (by simp)
      · obtain rfl := Option.some.inj h
        exact ⟨isDay_mk.2 (by omega), Or.inl ⟨rfl, rfl⟩⟩
      · obtain rfl := Option.some.inj h
        exact ⟨isDay_firstOfNextMonth hy hm, Or.inr rfl⟩

theorem isDay_of_yearDay {year offset : Int} {d : LunarDay} (hy : 1 ≤ year)
    (h : yearDay year offset = some d) : IsDay d ∧ d.year = year := by
  unfold yearDay at h
  dsimp only at h
  generalize (if 0 < offset then offset else yearDays year + offset + 1) = position at h
  by_cases hrange : 1 ≤ position ∧ position ≤ yearDays year
  · rw [if_pos hrange] at h
    obtain ⟨e, he, hday, hyear, -⟩ := locate_spec hy hrange.1 hrange.2
    obtain rfl := Option.some.inj (he.symm.trans h)
    exact ⟨hday, hyear⟩
  · rw [if_neg hrange] at h
    exact absurd h (by simp)

end Tabular

namespace RuleOptions

variable {ctx : Context} {answers : Answers} {o : RuleOptions}

/-- The days that a rule proposes in a month of the tabular calendar. -/
def daysInMonth (o : RuleOptions) (year month usualDay : Int) : List LunarDay :=
  if !o.monthDays.isEmpty then
    o.monthDays.filterMap fun day => resolve year month day o.skip
  else if !o.monthDaysFromEnd.isEmpty then
    o.monthDaysFromEnd.filterMap (fromEnd year month)
  else if !o.nthWeekdays.isEmpty then
    o.nthWeekdays.filterMap (nthWeekday year month)
  else if !o.weekdays.isEmpty then
    (daysOfMonth year month).filter fun d => o.weekdayNumbers.contains (weekdayOf d)
  else [clamp year month usualDay]

/-- A day proposed in a month exists, in the month or right after it. -/
theorem isDay_of_mem_daysInMonth (hneg : ∀ n ∈ o.monthDaysFromEnd, n ≤ -1)
    {year month usualDay : Int} (hy : 1 ≤ year) (hm : 1 ≤ month ∧ month ≤ 12) (hd : 1 ≤ usualDay)
    {d : LunarDay} (h : d ∈ o.daysInMonth year month usualDay) :
    IsDay d ∧ (d.year = year ∧ d.month = month ∨ d = firstOfNextMonth year month) := by
  unfold daysInMonth at h
  split at h
  · obtain ⟨day, -, hday⟩ := List.mem_filterMap.1 h
    exact isDay_of_resolve hy hm hday
  · split at h
    · obtain ⟨offset, hoffset, hday⟩ := List.mem_filterMap.1 h
      have hle := hneg offset hoffset
      unfold fromEnd at hday
      split at hday
      · obtain rfl := Option.some.inj hday
        exact ⟨isDay_mk.2 (by omega), Or.inl ⟨rfl, rfl⟩⟩
      · exact absurd hday (by simp)
    · split at h
      · obtain ⟨w, -, hw⟩ := List.mem_filterMap.1 h
        obtain ⟨hday, hyear, hmonth⟩ := isDay_of_nthWeekday hy hm hw
        exact ⟨hday, Or.inl ⟨hyear, hmonth⟩⟩
      · split at h
        · obtain ⟨hday, hyear, hmonth⟩ :=
            (mem_daysOfMonth hy hm).1 (List.mem_filter.1 h).1
          exact ⟨hday, Or.inl ⟨hyear, hmonth⟩⟩
        · obtain rfl := List.mem_singleton.1 h
          exact ⟨isDay_clamp hy hm hd, Or.inl ⟨rfl, rfl⟩⟩

/-! ### Outcomes -/

theorem outcome_resolveDay {year month day : Int} {skip : Skip} (hm : 1 ≤ month ∧ month ≤ 12) :
    (resolveDay Tabular.calendar year month (.whole day) skip).outcome answers =
      .ok ((resolve year month day skip).map .ofDay) := by
  unfold resolveDay resolve
  rw [Calculation.outcome_bind_ok (a := decide (1 ≤ day)) (by simp)]
  by_cases hpos : 1 ≤ day
  · rw [if_neg (by simp [hpos]), if_neg (show ¬day < 1 by omega),
      Calculation.outcome_bind_ok (Tabular.outcome_monthLength hm),
      Calculation.outcome_bind_ok (a := decide (day ≤ Tabular.monthDays year month)) (by simp)]
    by_cases hfit : day ≤ Tabular.monthDays year month
    · rw [if_pos (by simp [hfit]), if_pos hfit]
      rfl
    · rw [if_neg (by simp [hfit]), if_neg hfit]
      cases skip <;> rfl
  · rw [if_pos (by simp [hpos]), if_pos (show day < 1 by omega)]
    rfl

/-- A day of a month at midnight, in the tabular calendar. -/
theorem outcome_build_day {d : LunarDay} (h : IsDay d) :
    (LunarDate.build ctx { d with variant := .tabular }).outcome answers =
      .ok { d with variant := .tabular } := by
  have hlen := (monthDays_bounds d.year d.month).2
  have hday : d.day ≤ 30 := by
    have := h.2.2.2.2
    omega
  refine (LunarDate.built_iff_of_tabular (d := { d with variant := .tabular }) rfl).2 ⟨?_, h⟩
  exact ⟨h.1, ⟨h.2.1, h.2.2.1⟩, ⟨h.2.2.2.1, hday⟩, ⟨Int.le_refl 0, Int.le.intro 23 rfl⟩,
    ⟨Int.le_refl 0, Int.le.intro 59 rfl⟩, ⟨Int.le_refl 0, Int.le.intro 59 rfl⟩⟩

theorem outcome_nthWeekday {year month : Int} (w : Weekday) (hy : 1 ≤ year)
    (hm : 1 ≤ month ∧ month ≤ 12) :
    (LunarDate.nthWeekdayOfMonth ctx year month w.number (w.ordinal?.getD 0)
      (some (.known .tabular))).outcome answers =
        .ok ((nthWeekday year month w).map fun d => { d with variant := .tabular }) := by
  have hfirst := Tabular.weekday_of_isDay (isDay_first hy hm)
  unfold LunarDate.nthWeekdayOfMonth
  by_cases hzero : w.ordinal?.getD 0 = 0
  · rw [if_pos hzero, nthWeekday, hzero]
    rfl
  · rw [if_neg hzero, Calculation.outcome_bind_ok (a := .tabular) (by rfl),
      Context.serve_tabular, pure_bind,
      Calculation.outcome_bind_ok (Tabular.outcome_monthLength hm),
      Calculation.outcome_bind_ok ((Calculation.outcome_liftM _).trans hfirst),
      Calculation.outcome_bind_ok (a := Tabular.monthDays year month) (by simp)]
    cases hnth : LunarDate.nth? (LunarDate.weekdaysOfMonth (weekdayOf ⟨year, month, 1⟩)
        (Tabular.monthDays year month) w.number) (w.ordinal?.getD 0) with
    | none =>
      rw [nthWeekday, hnth]
      rfl
    | some day =>
      have hfound : nthWeekday year month w = some ⟨year, month, day⟩ := by
        rw [nthWeekday, hnth]
        rfl
      rw [hfound]
      exact Calculation.outcome_bind_ok
        (outcome_build_day (isDay_of_nthWeekday hy hm hfound).1) _

theorem outcome_dayFromEnd {year month offset : Int} :
    (dayFromEnd year month (.whole (Tabular.monthDays year month)) offset).outcome answers =
      .ok ((Tabular.fromEnd year month offset).map .ofDay) := by
  unfold dayFromEnd Tabular.fromEnd
  rw [Calculation.outcome_bind_ok
      (a := .whole (Tabular.monthDays year month + offset + 1)) (by simp),
    Calculation.outcome_bind_ok
      (a := decide (1 ≤ Tabular.monthDays year month + offset + 1)) (by simp)]
  by_cases h : 1 ≤ Tabular.monthDays year month + offset + 1 <;> simp [h, Candidate.ofDay]

theorem outcome_datesOnNthWeekdays (hv : o.variant = .tabular) {year month : Int} (hy : 1 ≤ year)
    (hm : 1 ≤ month ∧ month ≤ 12) :
    (o.datesOnNthWeekdays ctx year month).outcome answers =
      .ok ((o.nthWeekdays.filterMap (nthWeekday year month)).map
        fun d => { d with variant := .tabular }) := by
  rw [datesOnNthWeekdays, hv, List.map_filterMap]
  exact Calculation.outcome_filterMap fun w _ => outcome_nthWeekday w hy hm

/-- Scanning a month for weekdays gives its days on these weekdays. -/
theorem map_filter_weekdays (o : RuleOptions) (year month : Int) :
    ((((List.range (Tabular.monthDays year month).toNat).map fun (i : Nat) => (i : Int) + 1).filter
      fun day => o.weekdayNumbers.contains ((weekdayOf ⟨year, month, 1⟩ + day - 1) % 7)).map
        fun day => Candidate.ofDay ⟨year, month, day⟩) =
      ((daysOfMonth year month).filter fun d => o.weekdayNumbers.contains (weekdayOf d)).map
        Candidate.ofDay := by
  simp only [daysOfMonth, List.filter_map, List.map_map]
  refine congrArg (List.map _) (List.filter_congr fun i _ => ?_)
  simp only [Function.comp_apply]
  rw [weekdayOf_mk year month ((i : Int) + 1)]

theorem outcome_daysOnWeekdays {year month : Int} (hy : 1 ≤ year) (hm : 1 ≤ month ∧ month ≤ 12) :
    (o.daysOnWeekdays Tabular.calendar year month
      (.whole (Tabular.monthDays year month))).outcome answers =
        .ok (((daysOfMonth year month).filter fun d =>
          o.weekdayNumbers.contains (weekdayOf d)).map .ofDay) := by
  have hfirst := Tabular.weekday_of_isDay (isDay_first hy hm)
  rw [daysOnWeekdays, Calculation.outcome_bind_ok ((Calculation.outcome_liftM _).trans hfirst),
    Calculation.outcome_bind_ok (a := Tabular.monthDays year month) (by simp)]
  exact congrArg Except.ok (map_filter_weekdays o year month)

theorem outcome_usualDayOf {year month usualDay : Int} :
    (usualDayOf year month usualDay (.whole (Tabular.monthDays year month))).outcome answers =
      .ok ([clamp year month usualDay].map .ofDay) := by
  rw [usualDayOf, Calculation.outcome_bind_ok
    (a := decide (usualDay ≤ Tabular.monthDays year month)) (by simp)]
  by_cases hfit : usualDay ≤ Tabular.monthDays year month
  · rw [clamp, Int.min_eq_left hfit]
    simp [hfit, Candidate.ofDay]
  · rw [clamp, Int.min_eq_right (Int.le_of_lt (Int.not_le.1 hfit))]
    simp [hfit, Candidate.ofDay]

/-- **The candidates of a month are the days that the rule proposes in it.** -/
theorem outcome_monthCandidates (hv : o.variant = .tabular) {year month usualDay : Int}
    (hy : 1 ≤ year) (hm : 1 ≤ month ∧ month ≤ 12) :
    (o.monthCandidates ctx Tabular.calendar year month usualDay).outcome answers =
      .ok ((o.daysInMonth year month usualDay).map .ofDay) := by
  rw [monthCandidates_eq, daysInMonth]
  split
  · rw [List.map_filterMap]
    exact Calculation.outcome_filterMap fun day _ => outcome_resolveDay hm
  rw [Calculation.outcome_bind_ok (Tabular.outcome_monthLength hm)]
  split
  · rw [List.map_filterMap]
    exact Calculation.outcome_filterMap fun offset _ => outcome_dayFromEnd
  split
  · rw [Calculation.outcome_bind_ok (outcome_datesOnNthWeekdays hv hy hm), Calculation.outcome_pure,
      List.map_map]
    rfl
  split
  · exact outcome_daysOnWeekdays hy hm
  · exact outcome_usualDayOf

theorem outcome_yearDayAt {year position : Int} :
    (yearDayAt Tabular.calendar year (.whole (Tabular.yearDays year)) (.whole position)).outcome
        answers =
      .ok ((if 1 ≤ position ∧ position ≤ Tabular.yearDays year then
        locate year allMonths position else none).map .ofDay) := by
  rw [yearDayAt, Calculation.outcome_bind_ok
    (a := decide (1 ≤ position ∧ position ≤ Tabular.yearDays year)) (by simp)]
  by_cases hrange : 1 ≤ position ∧ position ≤ Tabular.yearDays year
  · rw [if_neg (by simp [hrange]), if_pos hrange,
      Calculation.outcome_bind_ok (outcome_locate position fun m => mem_allMonths.1)]
    cases hloc : locate year allMonths position with
    | none => rfl
    | some d =>
      obtain rfl := year_of_locate hloc
      rfl
  · rw [if_pos (by simp [hrange]), if_neg hrange]
    rfl

/-- The day at a position of a year, by the calendar. -/
theorem outcome_yearDay {year offset : Int} :
    (yearDay Tabular.calendar year offset).outcome answers =
      .ok ((Tabular.yearDay year offset).map .ofDay) := by
  rw [yearDay_eq, Tabular.yearDay,
    Calculation.outcome_bind_ok (a := .whole (Tabular.yearDays year)) rfl]
  by_cases hpos : 0 < offset
  · simp only [if_pos hpos]
    exact outcome_yearDayAt
  · simp only [if_neg hpos]
    rw [Calculation.outcome_bind_ok (a := .whole (Tabular.yearDays year + offset + 1)) (by simp)]
    exact outcome_yearDayAt

end RuleOptions

end HijriRecurrence
