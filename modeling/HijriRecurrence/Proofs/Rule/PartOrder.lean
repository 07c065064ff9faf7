import HijriRecurrence.Proofs.Rule.Enumeration

/-!
# The order of a rule's parts

A rule lists months, days, weekdays and positions in whatever order they were given, and as often.
The walk goes through the lists in that order, and different entries may come to one day, but the
days of a period are sorted before positions count them.  So rules that list the same values
(`SameButOrder`) cannot be told apart.

* `SameButOrder.daysOfPeriod_eq` — a period has the same days for both;
* `SameButOrder.outcome_periodDays_eq` — and the calculation comes to the same, also where the
  shifts by days are not exact or fail;
* `occurrences_reordered` — so the walks agree, occurrence by occurrence and in how they end.
-/

namespace HijriRecurrence

/-! ### Lists with the same members -/

/-- Two lists have the same members, in whatever order and however often. -/
def SameMembers {α : Type} (xs ys : List α) : Prop := ∀ x, x ∈ xs ↔ x ∈ ys

namespace SameMembers

variable {α β : Type} {xs ys : List α}

theorem refl (xs : List α) : SameMembers xs xs := fun _ => Iff.rfl

instance [DecidableEq α] (xs ys : List α) : Decidable (SameMembers xs ys) :=
  decidable_of_iff ((∀ x ∈ xs, x ∈ ys) ∧ ∀ y ∈ ys, y ∈ xs)
    ⟨fun h x => ⟨h.1 x, h.2 x⟩, fun h => ⟨fun x => (h x).1, fun y => (h y).2⟩⟩

theorem isEmpty_eq (h : SameMembers xs ys) : xs.isEmpty = ys.isEmpty := by
  rw [Bool.eq_iff_iff, List.isEmpty_iff, List.isEmpty_iff, List.eq_nil_iff_forall_not_mem,
    List.eq_nil_iff_forall_not_mem]
  exact forall_congr' fun x => not_congr (h x)

theorem contains_eq [BEq α] [LawfulBEq α] (h : SameMembers xs ys) (x : α) :
    xs.contains x = ys.contains x := by
  rw [Bool.eq_iff_iff, List.contains_iff_mem, List.contains_iff_mem]
  exact h x

theorem map (h : SameMembers xs ys) (f : α → β) : SameMembers (xs.map f) (ys.map f) := by
  intro b
  simp only [List.mem_map, h _]

theorem filter (h : SameMembers xs ys) (p : α → Bool) :
    SameMembers (xs.filter p) (ys.filter p) := by
  intro x
  rw [List.mem_filter, List.mem_filter, h x]

theorem filterMap (h : SameMembers xs ys) (f : α → Option β) :
    SameMembers (xs.filterMap f) (ys.filterMap f) := by
  intro b
  simp only [List.mem_filterMap, h _]

theorem flatMap (h : SameMembers xs ys) {f g : α → List β}
    (hfg : ∀ x, SameMembers (f x) (g x)) : SameMembers (xs.flatMap f) (ys.flatMap g) := by
  intro b
  simp only [List.mem_flatMap, h _, hfg _ _]

/-- Sorted, lists of the same days are the same. -/
theorem sorted_eq {days others : List LunarDay} (h : SameMembers days others) :
    LunarDay.sorted days = LunarDay.sorted others := by
  apply LunarDay.eq_of_mem_iff (LunarDay.pairwise_sorted days) (LunarDay.pairwise_sorted others)
  intro d
  rw [LunarDay.mem_sorted, LunarDay.mem_sorted, h d]

/-- What is picked does not depend on the order of the positions. -/
theorem pickDays_eq {positions others : List Int} (h : SameMembers positions others)
    (days : List LunarDay) :
    RuleOptions.pickDays days positions = RuleOptions.pickDays days others :=
  (h.filterMap _).sorted_eq

end SameMembers

namespace RuleOptions

open Tabular

variable {ctx : Context} {answers : Answers} {o other : RuleOptions}

/-! ### Rules up to the order of their parts -/

/-- Two rules differ in nothing but the order in which their parts list values, and in how often
they list them. -/
structure SameButOrder (o other : RuleOptions) : Prop where
  rest : other =
    { o with
      positions := other.positions, months := other.months, monthDays := other.monthDays
      monthDaysFromEnd := other.monthDaysFromEnd, yearDays := other.yearDays
      weekdays := other.weekdays, nthWeekdays := other.nthWeekdays }
  positions : SameMembers o.positions other.positions
  months : SameMembers o.months other.months
  monthDays : SameMembers o.monthDays other.monthDays
  monthDaysFromEnd : SameMembers o.monthDaysFromEnd other.monthDaysFromEnd
  yearDays : SameMembers o.yearDays other.yearDays
  weekdays : SameMembers o.weekdays other.weekdays
  nthWeekdays : SameMembers o.nthWeekdays other.nthWeekdays

namespace SameButOrder

theorem normalized (h : o.SameButOrder other) (ho : o.Normalized ctx answers) :
    other.Normalized ctx answers := by
  rw [h.rest]
  exact
    { ho with
      positions := fun n hn => ho.positions n ((h.positions n).2 hn)
      months := fun n hn => ho.months n ((h.months n).2 hn)
      monthDays := fun n hn => ho.monthDays n ((h.monthDays n).2 hn)
      monthDaysFromEnd := fun n hn => ho.monthDaysFromEnd n ((h.monthDaysFromEnd n).2 hn)
      yearDays := fun n hn => ho.yearDays n ((h.yearDays n).2 hn)
      weekdays := fun w hw => ho.weekdays w ((h.weekdays w).2 hw)
      nthWeekdays := fun w hw => ho.nthWeekdays w ((h.nthWeekdays w).2 hw) }

theorem frequency_eq (h : o.SameButOrder other) : o.frequency = other.frequency :=
  (congrArg frequency h.rest).symm

theorem variant_eq (h : o.SameButOrder other) : o.variant = other.variant :=
  (congrArg variant h.rest).symm

theorem weekdayNumbers_contains (h : o.SameButOrder other) (n : Int) :
    o.weekdayNumbers.contains n = other.weekdayNumbers.contains n :=
  (h.weekdays.map Weekday.number).contains_eq n

theorem onWeekday_eq (h : o.SameButOrder other) : o.onWeekday = other.onWeekday := by
  funext d
  exact h.weekdayNumbers_contains (weekdayOf d)

theorem allowsMonth_eq (h : o.SameButOrder other) (month : Int) :
    o.allowsMonth month = other.allowsMonth month := by
  rw [allowsMonth, allowsMonth, h.months.isEmpty_eq, h.months.contains_eq]

/-! ### Days of a period -/

theorem daysInMonth (h : o.SameButOrder other) (year month usualDay : Int) :
    SameMembers (o.daysInMonth year month usualDay) (other.daysInMonth year month usualDay) := by
  have hskip : o.skip = other.skip := (congrArg skip h.rest).symm
  have hweekday : (fun d => o.weekdayNumbers.contains (weekdayOf d)) =
      fun d => other.weekdayNumbers.contains (weekdayOf d) := h.onWeekday_eq
  unfold RuleOptions.daysInMonth
  rw [h.monthDays.isEmpty_eq, h.monthDaysFromEnd.isEmpty_eq, h.nthWeekdays.isEmpty_eq,
    h.weekdays.isEmpty_eq, hskip, hweekday]
  split
  · exact h.monthDays.filterMap _
  · split
    · exact h.monthDaysFromEnd.filterMap _
    · split
      · exact h.nthWeekdays.filterMap _
      · split <;> exact .refl _

theorem usualDaysOfYear (h : o.SameButOrder other) (cursor : LunarDay) :
    SameMembers (o.usualDaysOfYear cursor) (other.usualDaysOfYear cursor) := by
  unfold RuleOptions.usualDaysOfYear
  rw [h.monthDays.isEmpty_eq, h.monthDaysFromEnd.isEmpty_eq, h.yearDays.isEmpty_eq]
  split
  · exact h.daysInMonth _ _ _
  · split
    · exact h.yearDays.filterMap _
    · exact .refl _

theorem daysInYear (h : o.SameButOrder other) (cursor : LunarDay) :
    SameMembers (o.daysInYear cursor) (other.daysInYear cursor) := by
  unfold RuleOptions.daysInYear
  rw [h.months.isEmpty_eq, h.weekdays.isEmpty_eq, h.onWeekday_eq]
  split
  · exact h.months.flatMap fun month => h.daysInMonth _ _ _
  · split
    · exact h.usualDaysOfYear cursor
    · exact (h.usualDaysOfYear cursor).filter _

theorem daysInWeek_eq (h : o.SameButOrder other) (cursor : LunarDay) :
    o.daysInWeek cursor = other.daysInWeek cursor := by
  unfold daysInWeek
  simp only [h.weekdays.isEmpty_eq, h.weekdayNumbers_contains, h.allowsMonth_eq]

theorem allowsDay_eq (h : o.SameButOrder other) (d : LunarDay) :
    o.allowsDay d = other.allowsDay d := by
  unfold allowsDay
  rw [h.allowsMonth_eq, h.monthDays.isEmpty_eq, h.monthDaysFromEnd.isEmpty_eq,
    h.monthDays.contains_eq, h.monthDaysFromEnd.contains_eq, h.weekdays.isEmpty_eq, h.onWeekday_eq]

theorem proposedDays (h : o.SameButOrder other) (cursor : LunarDay) :
    SameMembers (o.proposedDays cursor) (other.proposedDays cursor) := by
  unfold RuleOptions.proposedDays
  rw [h.frequency_eq, h.allowsMonth_eq, h.daysInWeek_eq, h.allowsDay_eq]
  cases other.frequency with
  | yearly => exact h.daysInYear cursor
  | monthly =>
    dsimp only
    split
    · exact h.daysInMonth _ _ _
    · exact .refl _
  | weekly | daily | hourly | minutely | secondly => exact .refl _

/-- **The days of a period are the same.** -/
theorem daysOfPeriod_eq (h : o.SameButOrder other) (cursor : LunarDay) :
    o.daysOfPeriod cursor = other.daysOfPeriod cursor := by
  unfold daysOfPeriod
  rw [h.positions.isEmpty_eq, (h.proposedDays cursor).sorted_eq, h.positions.pickDays_eq]

/-! ### Candidates of a period -/

/-- A weekly rule finds its days by the same calculation, whether its shifts are exact or not. -/
theorem weeklyCandidates_eq (h : o.SameButOrder other) (cursor : LunarDate) :
    o.weeklyCandidates ctx cursor = other.weeklyCandidates ctx cursor := by
  unfold weeklyCandidates weekDates
  simp only [h.weekdays.isEmpty_eq, h.weekdayNumbers_contains, h.allowsMonth_eq]

end SameButOrder

/-- The candidates of a weekly rule are days. -/
theorem exists_days_of_weeklyCandidates {cursor : LunarDate} {found : List Candidate}
    (h : (o.weeklyCandidates ctx cursor).outcome answers = .ok found) :
    ∃ days : List LunarDay, found = days.map .ofDay := by
  have hdays (dates : List LunarDate) : ∃ days : List LunarDay,
      ((dates.filter fun d => o.allowsMonth d.month).map fun d => Candidate.ofDay d.toLunarDay) =
        days.map .ofDay := by
    refine ⟨(dates.filter fun d => o.allowsMonth d.month).map LunarDate.toLunarDay, ?_⟩
    rw [List.map_map]
    rfl
  unfold weeklyCandidates at h
  split at h
  · obtain rfl := Except.ok.inj h
    exact hdays [cursor]
  · obtain ⟨weekday, -, h⟩ := Calculation.outcome_bind_eq_ok.1 h
    obtain ⟨dates, -, h⟩ := Calculation.outcome_bind_eq_ok.1 h
    obtain rfl := Except.ok.inj h
    exact hdays dates

/-- A week comes to the same days for both rules, and where it fails it fails for both. -/
theorem SameButOrder.outcome_daysOfWeek (h : o.SameButOrder other) (hfreq : o.frequency = .weekly)
    (cal : Calendar) (cursor : LunarDate) :
    (o.periodDays ctx cal cursor).outcome answers =
      (other.periodDays ctx cal cursor).outcome answers := by
  have hfreq' : other.frequency = .weekly := h.frequency_eq.symm.trans hfreq
  unfold periodDays candidates
  rw [hfreq, hfreq', h.weeklyCandidates_eq, h.positions.isEmpty_eq]
  dsimp only
  simp only [Calculation.outcome_bind]
  cases hfound : (other.weeklyCandidates ctx cursor).outcome answers with
  | error e => rfl
  | ok found =>
    obtain ⟨days, rfl⟩ := exists_days_of_weeklyCandidates hfound
    show Except.ok (if other.positions.isEmpty then _ else pickPositions _ o.positions) =
      Except.ok (if other.positions.isEmpty then _ else pickPositions _ other.positions)
    rw [Candidate.sorted_ofDay, pickPositions_ofDay, pickPositions_ofDay, h.positions.pickDays_eq]

/-- **A period comes to the same days for both rules.** -/
theorem SameButOrder.outcome_periodDays_eq (h : o.SameButOrder other)
    (ho : o.Normalized ctx answers) (hv : o.variant = .tabular) {cursor : LunarDate}
    (hc : cursor.Built ctx answers) (hcv : cursor.variant = .tabular) :
    (o.periodDays ctx Tabular.calendar cursor).outcome answers =
      (other.periodDays ctx Tabular.calendar cursor).outcome answers := by
  have hv' : other.variant = .tabular := h.variant_eq.symm.trans hv
  -- A week is walked day by day and may fail on the way: there the calculations are compared.  Other
  -- periods come to their days without fail, and the days are compared.
  by_cases hweekly : o.frequency = .weekly
  · exact h.outcome_daysOfWeek hweekly Tabular.calendar cursor
  · rw [outcome_periodDays ho hv hc hcv fun hw => absurd hw hweekly,
      outcome_periodDays (h.normalized ho) hv' hc hcv fun hw =>
        absurd (h.frequency_eq.trans hw) hweekly,
      h.daysOfPeriod_eq]

/-! ### The walk -/

/-- The walks of the two rules agree, from any period on. -/
theorem SameButOrder.walk (h : o.SameButOrder other) (ho : o.Normalized ctx answers)
    (hv : o.variant = .tabular) (periods : Nat) {period : Int} (hk : 0 ≤ period)
    (taken : Option Candidate) (emitted : Nat) :
    Occurrences.Agree answers (o.walk ctx Tabular.calendar periods period taken emitted)
      (other.walk ctx Tabular.calendar periods period taken emitted) := by
  have hcursor : o.cursor ctx = other.cursor ctx := (congrArg (·.cursor ctx) h.rest).symm
  have hpast : o.isPast = other.isPast := (congrArg isPast h.rest).symm
  have hstart : o.periodStart = other.periodStart := (congrArg periodStart h.rest).symm
  have hchosen : o.chosenDays = other.chosenDays := (congrArg chosenDays h.rest).symm
  have hends : o.endsIn = other.endsIn := (congrArg endsIn h.rest).symm
  have hdate : o.dateOn ctx = other.dateOn ctx := (congrArg (dateOn ctx) h.rest).symm
  -- Both walks have the same days behind them, so they are in the same state at every period.
  induction periods generalizing period taken emitted with
  | zero => exact .refl _
  | succ periods ih =>
    unfold RuleOptions.walk
    rw [← hcursor, ← hpast, ← hstart, ← hchosen, ← hends, ← hdate]
    apply Occurrences.Agree.after rfl
    intro start hreached
    obtain ⟨hbuilt, hcv⟩ := built_of_cursor ho hv hk hreached
    split
    · exact .refl _
    · apply Occurrences.Agree.after (h.outcome_periodDays_eq ho hv hbuilt hcv)
      intro days _
      cases o.chosenDays taken emitted days with
      | nil =>
        dsimp only
        split
        · exact .refl _
        · exact ih (by omega) _ _
      | cons first rest =>
        apply Occurrences.Agree.yieldAll
        split
        · exact .refl _
        · exact ih (by omega) _ _

/-- **The order in which a rule lists its values has no effect.** -/
theorem occurrences_reordered (ho : o.Normalized ctx answers) (hv : o.variant = .tabular)
    (h : o.SameButOrder other) :
    (other.occurrences ctx).items answers = (o.occurrences ctx).items answers ∧
      (other.occurrences ctx).ending answers = (o.occurrences ctx).ending answers := by
  have hcount : o.count = other.count := (congrArg count h.rest).symm
  have hlimit : o.periodLimit = other.periodLimit := (congrArg periodLimit h.rest).symm
  have hagree : Occurrences.Agree answers (o.occurrences ctx) (other.occurrences ctx) := by
    unfold occurrences
    rw [← hcount, ← h.variant_eq, ← hlimit, hv]
    split
    · exact .refl _
    · exact h.walk ho hv _ (Int.le_refl 0) none 0
  exact ⟨hagree.items.symm, hagree.ending.symm⟩

/-- The first and the last of the days 30 and 29 of each month, the thirtieth taking the last day of
a month that lacks it. -/
def lastDays : RuleOptions where
  frequency := .monthly
  start := { year := 1446, month := 1, day := 1, variant := .tabular }
  last := some { year := 1446, month := 3, day := 30, variant := .tabular }
  positions := [-1, 1]
  monthDays := [30, 29]
  skip := .backward
  variant := .tabular

/-- The same days and positions, in another order and partly twice. -/
def lastDaysRelisted : RuleOptions :=
  { lastDays with positions := [1, -1, -1], monthDays := [29, 30, 29] }

theorem occurrences_reordered_lastDays :
    lastDays.Normalized .hostless .unknown ∧ lastDays.variant = .tabular ∧
    lastDays.SameButOrder lastDaysRelisted ∧
    (lastDaysRelisted.occurrences .hostless).items .unknown =
      (lastDays.occurrences .hostless).items .unknown ∧
    (lastDaysRelisted.occurrences .hostless).ending .unknown =
      (lastDays.occurrences .hostless).ending .unknown := by
  have ho : lastDays.Normalized .hostless .unknown := normalized_of_inBounds (by decide)
  have h : lastDays.SameButOrder lastDaysRelisted :=
    { rest := rfl
      positions := by decide
      months := .refl _
      monthDays := by decide
      monthDaysFromEnd := .refl _
      yearDays := .refl _
      weekdays := .refl _
      nthWeekdays := .refl _ }
  exact ⟨ho, rfl, h, occurrences_reordered ho rfl h⟩

/-- In Safar, which has 29 days, both days are one, and so are the first and the last of them. -/
example : ((lastDaysRelisted.occurrences .hostless).items .unknown).map (·.toLunarDay) =
    [⟨1446, 1, 29⟩, ⟨1446, 1, 30⟩, ⟨1446, 2, 29⟩, ⟨1446, 3, 29⟩, ⟨1446, 3, 30⟩] := by
  decide +kernel

end RuleOptions

end HijriRecurrence
