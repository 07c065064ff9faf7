import HijriRecurrence.Proofs.Rule.DayParts
import HijriRecurrence.Proofs.Rule.PartOrder

/-!
# Ordinal weekdays and positions

The last Friday of a month can be asked for in two ways: by a weekday with an ordinal, or by a
weekday without one and a position among the days that fall on it.  An ordinal is looked up in the
month, where it counts the days of one weekday.  A position is looked up in the period, where it
counts all days proposed.  The two come to the same where a period is one month, or none
(`TakesOneMonth`).

* `pickDays_singleton`, `filter_daysOfMonth` — both ways look up one entry of one list;
* `sorted_proposedDays` — a period has the days of its month;
* `daysOfPeriod_onNth` — so the days of a period are the same, whatever the ordinal;
* `exists_yields_onNth_and_onPosition` — and so are the dates.
-/

namespace HijriRecurrence

/-! ### Entries at a position -/

namespace LunarDate

/-- Positions do not depend on what the entries are. -/
theorem nth?_map {α β : Type} (f : α → β) (items : List α) (n : Int) :
    nth? (items.map f) n = (nth? items n).map f := by
  unfold nth?
  rw [List.length_map, List.getElem?_map, List.getElem?_map]
  split
  · rfl
  · split <;> rfl

theorem nth?_nil {α : Type} (n : Int) : nth? ([] : List α) n = none := by
  unfold nth?
  split
  · rfl
  · split <;> exact List.getElem?_nil

end LunarDate

namespace Tabular

def daysOnWeekday (year month : Int) (day : Int) : List LunarDay :=
  (LunarDate.weekdaysOfMonth (weekdayOf ⟨year, month, 1⟩) (monthDays year month)
    day).map fun i => ⟨year, month, i⟩

theorem pairwise_daysOnWeekday (year month : Int) (day : Int) :
    (daysOnWeekday year month day).Pairwise (· < ·) := by
  apply List.pairwise_map.2
  refine (pairwise_weekdaysOfMonth _ _ _).imp fun {a b} h => ?_
  show (⟨year, month, a⟩ : LunarDay) < ⟨year, month, b⟩
  rw [LunarDay.lt_def]
  exact Or.inr ⟨rfl, Or.inr ⟨rfl, h⟩⟩

/-- Looking at the weekday of each day of a month finds the same days as counting on from the
weekday of the first. -/
theorem filter_daysOfMonth (year month : Int) (day : Int) :
    (daysOfMonth year month).filter (fun d => weekdayOf d == day) =
      daysOnWeekday year month day := by
  unfold daysOfMonth daysOnWeekday LunarDate.weekdaysOfMonth
  rw [List.filter_map, List.filter_map, List.map_map]
  refine congrArg (List.map _) (List.filter_congr fun i _ => ?_)
  show (weekdayOf ⟨year, month, (i : Int) + 1⟩ == day) =
    ((weekdayOf ⟨year, month, 1⟩ + ((i : Int) + 1) - 1) % 7 == day)
  rw [weekdayOf_mk year month ((i : Int) + 1)]

/-- An ordinal counts the days on its weekday. -/
theorem nthWeekday_eq (year month : Int) (day : Int) {n : Int} (hn : n ≠ 0) :
    nthWeekday year month ⟨day, some n⟩ = LunarDate.nth? (daysOnWeekday year month day) n := by
  have hordinal : (⟨day, some n⟩ : Weekday).ordinal?.getD 0 = n :=
    (Weekday.getD_ordinal?_eq_iff hn).2 rfl
  rw [nthWeekday, hordinal, daysOnWeekday, LunarDate.nth?_map]

end Tabular

namespace RuleOptions

open Tabular

variable {ctx : Context} {answers : Answers} {o : RuleOptions}

/-- One position picks the entry at it, if there is one. -/
theorem pickDays_singleton (days : List LunarDay) {n : Int} (hn : n ≠ 0) :
    pickDays days [n] = (LunarDate.nth? days n).toList := by
  have hpick : (let index : Int := if 0 < n then n - 1 else days.length + n
      if 0 ≤ index then days[index.toNat]? else none) = LunarDate.nth? days n := by
    unfold LunarDate.nth?
    by_cases hpos : 0 < n
    · simp only [if_pos hpos]
      rw [if_pos (by omega)]
      split
      · exact List.getElem?_eq_none (by omega)
      · rfl
    · simp only [if_neg hpos]
      split
      · rw [if_neg (by omega)]
      · rw [if_pos (by omega)]
  rw [pickDays, List.filterMap_cons, hpick, List.filterMap_nil, ← LunarDay.sorted_toList]
  cases LunarDate.nth? days n <;> rfl

/-! ### The two ways to ask -/

/-- A rule with one weekday at some position among the same weekdays of the month as its only part
that names days. -/
def onNth (o : RuleOptions) (day : Int) (n : Int) : RuleOptions :=
  { o with weekdays := [], nthWeekdays := [⟨day, some n⟩], positions := [] }

/-- A rule with one weekday as its only part that names days, and one position. -/
def onPosition (o : RuleOptions) (day : Int) (n : Int) : RuleOptions :=
  { o with weekdays := [⟨day, none⟩], nthWeekdays := [], positions := [n] }

/-- A rule that names no month days and has one month in each of its periods, or none. -/
structure TakesOneMonth (o : RuleOptions) : Prop where
  monthDays : o.monthDays = []
  monthDaysFromEnd : o.monthDaysFromEnd = []
  period : o.frequency = .monthly ∨
    o.frequency = .yearly ∧ ∃ month, SameMembers o.months [month]

/-- The month that a rule has in the period of a cursor. -/
def monthOfPeriod? (o : RuleOptions) (cursor : LunarDay) : Option Int :=
  match o.frequency with
  | .yearly => o.months.head?
  | _ => if o.allowsMonth cursor.month then some cursor.month else none

/-- **A period has the days of its month.** -/
theorem sorted_proposedDays (h : o.TakesOneMonth) (cursor : LunarDay) :
    LunarDay.sorted (o.proposedDays cursor) = LunarDay.sorted
      ((o.monthOfPeriod? cursor).elim [] fun month =>
        o.daysInMonth cursor.year month cursor.day) := by
  obtain hfreq | ⟨hfreq, month, hmonths⟩ := h.period
  · rw [proposedDays, monthOfPeriod?, hfreq]
    dsimp only
    split <;> rfl
  · -- all entries of the list are one month
    have hfirst : o.months.head? = some month := by
      cases hlist : o.months with
      | nil => exact absurd ((hmonths month).2 List.mem_cons_self) (by simp [hlist])
      | cons first rest =>
        have hmem : first ∈ o.months := hlist ▸ List.mem_cons_self
        rw [List.mem_singleton.1 ((hmonths first).1 hmem)]
        rfl
    have hgiven : o.months ≠ [] := List.ne_nil_of_mem ((hmonths month).2 List.mem_cons_self)
    rw [proposedDays, monthOfPeriod?, hfreq]
    dsimp only
    rw [daysInYear_of_months hgiven, hfirst]
    show _ = LunarDay.sorted (o.daysInMonth cursor.year month cursor.day)
    rw [(hmonths.flatMap fun m => .refl (o.daysInMonth cursor.year m cursor.day)).sorted_eq,
      List.flatMap_singleton]

theorem daysInMonth_onNth (h : o.TakesOneMonth) (year month usualDay : Int) (day : Int) {n : Int}
    (hn : n ≠ 0) :
    (o.onNth day n).daysInMonth year month usualDay =
      (LunarDate.nth? (daysOnWeekday year month day) n).toList := by
  show (if !o.monthDays.isEmpty then _ else if !o.monthDaysFromEnd.isEmpty then _ else
    [⟨day, some n⟩].filterMap (nthWeekday year month)) = _
  rw [h.monthDays, h.monthDaysFromEnd, ← nthWeekday_eq year month day hn]
  show [⟨day, some n⟩].filterMap (nthWeekday year month) = _
  rw [List.filterMap_cons, List.filterMap_nil]
  cases nthWeekday year month ⟨day, some n⟩ <;> rfl

theorem daysInMonth_onPosition (h : o.TakesOneMonth) (year month usualDay : Int) (day : Int)
    (n : Int) :
    (o.onPosition day n).daysInMonth year month usualDay = daysOnWeekday year month day := by
  rw [← filter_daysOfMonth]
  show (if !o.monthDays.isEmpty then _ else if !o.monthDaysFromEnd.isEmpty then _ else
    (daysOfMonth year month).filter fun d => [day].contains (weekdayOf d)) = _
  rw [h.monthDays, h.monthDaysFromEnd]
  refine List.filter_congr fun d _ => ?_
  rw [List.contains_cons, List.contains_nil, Bool.or_false]

/-- **The days of a period are the same, asked for by an ordinal or by a position.** -/
theorem daysOfPeriod_onNth (h : o.TakesOneMonth) (cursor : LunarDay) (day : Int) {n : Int}
    (hn : n ≠ 0) :
    (o.onNth day n).daysOfPeriod cursor = (o.onPosition day n).daysOfPeriod cursor := by
  have hnth : (o.onNth day n).TakesOneMonth := ⟨h.monthDays, h.monthDaysFromEnd, h.period⟩
  have hposition : (o.onPosition day n).TakesOneMonth :=
    ⟨h.monthDays, h.monthDaysFromEnd, h.period⟩
  show LunarDay.sorted ((o.onNth day n).proposedDays cursor) =
    pickDays (LunarDay.sorted ((o.onPosition day n).proposedDays cursor)) [n]
  rw [sorted_proposedDays hnth, sorted_proposedDays hposition, pickDays_singleton _ hn]
  show LunarDay.sorted ((o.monthOfPeriod? cursor).elim [] _) =
    (LunarDate.nth? (LunarDay.sorted ((o.monthOfPeriod? cursor).elim [] _)) n).toList
  cases o.monthOfPeriod? cursor with
  | none =>
    show [] = (LunarDate.nth? [] n).toList
    rw [LunarDate.nth?_nil]
    rfl
  | some month =>
    show LunarDay.sorted ((o.onNth day n).daysInMonth cursor.year month cursor.day) =
      (LunarDate.nth? (LunarDay.sorted
        ((o.onPosition day n).daysInMonth cursor.year month cursor.day)) n).toList
    rw [daysInMonth_onNth h _ _ _ _ hn, daysInMonth_onPosition h, LunarDay.sorted_toList,
      LunarDay.sorted_eq_self (pairwise_daysOnWeekday _ _ _)]

/-! ### Dates -/

theorem normalized_onNth (ho : o.Normalized ctx answers) (day : Int) {n : Int} (hn : n ≠ 0) :
    (o.onNth day n).Normalized ctx answers := by
  have hnth : (⟨day, some n⟩ : Weekday).isNth = true := by
    unfold Weekday.isNth Weekday.ordinal?
    simp [Option.filter, hn]
  exact
    { ho with
      positions := fun m hm => absurd hm List.not_mem_nil
      weekdays := fun w hw => absurd hw List.not_mem_nil
      nthWeekdays := fun w hw => List.mem_singleton.1 hw ▸ hnth }

theorem normalized_onPosition (ho : o.Normalized ctx answers) (day : Int) {n : Int}
    (hn : 1 ≤ n.natAbs ∧ n.natAbs ≤ 366) : (o.onPosition day n).Normalized ctx answers := by
  have hrange : (-366 ≤ n ∧ n ≤ 366) ∧ n ≠ 0 := by omega
  exact
    { ho with
      positions := fun m hm => List.mem_singleton.1 hm ▸ hrange
      weekdays := fun w hw => List.mem_singleton.1 hw ▸ rfl
      nthWeekdays := fun w hw => absurd hw List.not_mem_nil }

/-- **An ordinal on a weekday and a position among the days on it yield the same dates.**  Both
rules go on to the end of their walk, also where no month has as many of the weekday. -/
theorem exists_yields_onNth_and_onPosition (ho : o.Normalized ctx answers)
    (hv : o.variant = .tabular) (h : o.TakesOneMonth) (day : Int) {n : Int}
    (hn : 1 ≤ n.natAbs ∧ n.natAbs ≤ 366) :
    ∃ dates, ((o.onNth day n).occurrences ctx).Yields answers dates ∧
      ((o.onPosition day n).occurrences ctx).Yields answers dates := by
  have hzero : n ≠ 0 := by omega
  have hnth := normalized_onNth ho day hzero
  have hposition := normalized_onPosition ho day hn
  have hfreq : o.frequency = .yearly ∨ o.frequency = .monthly := h.period.symm.imp And.left id
  obtain ⟨days, hdays, hyields⟩ :=
    occurrences_yield hnth hv (countsDaysExactly_of_months hnth hv hfreq)
  obtain ⟨others, hothers, hyields'⟩ :=
    occurrences_yield hposition hv (countsDaysExactly_of_months hposition hv hfreq)
  -- Cursors do not depend on the parts that name days, so the periods can be compared one by one.
  have hperiod : (o.onPosition day n).daysAt = (o.onNth day n).daysAt := by
    funext period
    exact (daysOfPeriod_onNth h (o.cursorDay period) day hzero).symm
  have hsame : others = days := by
    apply LunarDay.eq_of_mem_iff hothers.increasing hdays.increasing
    intro d
    rw [hothers.mem_iff, hdays.mem_iff, hperiod]
    exact Iff.rfl
  rw [hsame] at hyields'
  exact ⟨_, hyields, hyields'⟩

def threeMonths : RuleOptions where
  frequency := .monthly
  start := { year := 1446, month := 1, day := 1, variant := .tabular }
  count := some 3
  variant := .tabular

/-- Months without a fifth Friday are passed over, either way. -/
theorem exists_yields_fifthFridays :
    threeMonths.Normalized .hostless .unknown ∧ threeMonths.TakesOneMonth ∧
    (1 ≤ (5 : Int).natAbs ∧ (5 : Int).natAbs ≤ 366) ∧
    ∃ dates, ((threeMonths.onNth 4 5).occurrences .hostless).Yields .unknown dates ∧
      ((threeMonths.onPosition 4 5).occurrences .hostless).Yields .unknown dates ∧
      dates.map (·.toLunarDay) = [⟨1446, 3, 30⟩, ⟨1446, 8, 29⟩, ⟨1447, 1, 29⟩] := by
  have ho : threeMonths.Normalized .hostless .unknown := normalized_of_inBounds (by decide)
  have h : threeMonths.TakesOneMonth := ⟨rfl, rfl, Or.inl rfl⟩
  obtain ⟨dates, hnth, hposition⟩ := exists_yields_onNth_and_onPosition ho rfl h 4 (n := 5)
    (by decide)
  refine ⟨ho, h, by decide, dates, hnth, hposition, ?_⟩
  rw [← hnth.items]
  decide +kernel

/-- In a year of two months a position counts the Fridays of both, an ordinal those of each. -/
example :
    let twoMonths : RuleOptions := { threeMonths with frequency := .yearly, months := [1, 2] }
    (((twoMonths.onNth 4 5).occurrences .hostless).items .unknown).map (·.toLunarDay) =
        [⟨1447, 1, 29⟩, ⟨1448, 2, 29⟩, ⟨1450, 1, 30⟩] ∧
      (((twoMonths.onPosition 4 5).occurrences .hostless).items .unknown).map (·.toLunarDay) =
        [⟨1446, 2, 3⟩, ⟨1447, 1, 29⟩, ⟨1448, 2, 1⟩] := by
  decide +kernel

end RuleOptions

end HijriRecurrence
