import HijriRecurrence.Proofs.Outcome
import HijriRecurrence.Rule.Normalize

/-!
# Requests and what their values are read as

A change to a request counts for the options that it names, and for no other (`value_merge_of_ne`).

Options come of a request exactly when the value of every option is read as theirs
(`outcome_ofRequest_eq_ok`).  A date is read in the calendar of the options; apart from that no
option has a say in how another one is read.  Month days of both kinds come of one value, and so do
weekdays of both kinds.

Numbers and tokens are read as days of the week.  A weekday that the caller has made is taken as it
is, so weekdays that are read are days of the week exactly when such ones are
(`isWeekday_iff_of_ofValue`).
-/

namespace HijriRecurrence

/-- The number of a day of the week. -/
def IsWeekday (n : Int) : Prop := 0 ≤ n ∧ n ≤ 6

instance (n : Int) : Decidable (IsWeekday n) := inferInstanceAs (Decidable (_ ∧ _))

namespace Weekday

theorem isWeekday_of_ofToken {given : Value} {text : List Char} {w : Weekday}
    (h : ofToken given text = .ok w) : IsWeekday w.number := by
  unfold ofToken at h
  split at h
  · cases h
  · cases h
  · rename_i ordinal day _ _
    obtain rfl := Except.ok.inj h
    have hday := day.isLt
    exact ⟨by dsimp only; omega, by dsimp only; omega⟩

/-- What a value stands for is a day of the week, unless the value is a weekday that is none. -/
theorem isWeekday_iff_of_ofValue {value : Value} {w : Weekday} (h : ofValue value = .ok w) :
    IsWeekday w.number ↔ ∀ v, value = .weekday v → IsWeekday v.number := by
  unfold ofValue at h
  split at h
  · obtain rfl := Except.ok.inj h
    simp
  · exact iff_of_true (isWeekday_of_ofToken h) (by simp)
  · exact iff_of_true (isWeekday_of_ofToken h) (by simp)
  · split at h
    · rename_i v hnumber
      obtain rfl := Except.ok.inj h
      obtain ⟨hrange, rfl⟩ := Option.ite_some_none_eq_some.1 hnumber
      exact iff_of_true hrange (by simp)
    · cases h
  · cases h

/-- The number of a day of the week stands for this day. -/
theorem ofNumber?_eq {n : Int} (h : IsWeekday n) : ofNumber? n = some ⟨n, none⟩ := if_pos h

end Weekday

/-! ### Merged requests -/

namespace Request

/-- The value of an option after changes to some of the options. -/
theorem value_merge_filterMap (f : OptionName → Option Value) (names : List OptionName)
    (r : Request) (name : OptionName) :
    (r.merge (names.filterMap fun n => (f n).map (n, ·))).value name =
      if name ∈ names then (f name).getD (r.value name) else r.value name := by
  induction names generalizing r with
  | nil => rfl
  | cons first rest ih =>
    cases hfirst : f first with
    | none =>
      rw [List.filterMap_cons_none (by rw [hfirst]; rfl), ih]
      by_cases hname : name = first
      · rw [hname, hfirst]
        simp
      · simp [hname]
    | some value =>
      rw [List.filterMap_cons_some (by rw [hfirst]; rfl)]
      show ((r.set first value).merge _).value name = _
      rw [ih]
      by_cases hname : name = first
      · rw [hname, hfirst]
        simp
      · rw [value_set_of_ne r value hname]
        simp [hname]

/-- Changes leave the options alone that they do not name. -/
theorem value_merge_of_ne {r : Request} {changes : List (OptionName × Value)} {name : OptionName}
    (h : ∀ change ∈ changes, change.1 ≠ name) : (r.merge changes).value name = r.value name := by
  induction changes generalizing r with
  | nil => rfl
  | cons first rest ih =>
    obtain ⟨hfirst, hrest⟩ := List.forall_mem_cons.1 h
    exact (ih hrest).trans (value_set_of_ne r first.2 hfirst.symm)

/-- Options that a request gives count over those of the request that it is merged into. -/
theorem value_merge_given (s r : Request) (name : OptionName) :
    (s.merge r.given).value name =
      if (r.value name).isNull then s.value name else r.value name := by
  have hgiven : r.given = OptionName.all.filterMap fun n =>
      (if (r.value n).isNull then none else some (r.value n)).map (n, ·) := by
    rw [given, List.filter_map, ← List.filterMap_eq_map, List.filterMap_filter]
    refine List.filterMap_congr fun n _ => ?_
    cases hnull : (r.value n).isNull <;> simp [hnull]
  rw [hgiven, value_merge_filterMap, if_pos (OptionName.mem_all name)]
  split <;> rfl

/-- The weekdays that a request hands over as such are days of the week. -/
structure GivesDays (ctx : Context) (answers : Answers) (r : Request) : Prop where
  weekStart : ∀ w, r.value .weekStart = .weekday w → IsWeekday w.number
  weekdays : ∀ items, (ctx.items (r.value .weekdays)).outcome answers = .ok items →
    ∀ w, .weekday w ∈ items → IsWeekday w.number

end Request

theorem Value.isNull_iff {v : Value} : v.isNull = true ↔ v = .null := by
  cases v <;> simp [isNull]

namespace RuleOptions

variable {ctx : Context} {answers : Answers} {r : Request} {o : RuleOptions}

/-- A value is read as integers within bounds. -/
def IntsAreReadAs (ctx : Context) (answers : Answers) (name : OptionName) (bounds : Bounds)
    (value : Value) (ns : List Int) : Prop :=
  ∃ items, (ctx.items value).outcome answers = .ok items ∧ readItems name bounds items = .ok ns

theorem outcome_readInts_eq_ok {name : OptionName} {bounds : Bounds} {ns : List Int} :
    (readInts ctx r name bounds).outcome answers = .ok ns ↔
      IntsAreReadAs ctx answers name bounds (r.value name) ns := by
  rw [readInts, Calculation.outcome_bind_eq_ok]
  simp only [Calculation.outcome_liftM]
  rfl

def WeekdaysAreReadAs (ctx : Context) (answers : Answers) (value : Value) (ws : List Weekday) :
    Prop :=
  ∃ items, (ctx.items value).outcome answers = .ok items ∧ readWeekdayItems items = .ok ws

theorem outcome_readWeekdays_eq_ok {value : Value} {ws : List Weekday} :
    (readWeekdays ctx value).outcome answers = .ok ws ↔
      WeekdaysAreReadAs ctx answers value ws := by
  rw [readWeekdays, Calculation.outcome_bind_eq_ok]
  refine exists_congr fun items => and_congr_right fun _ => ?_
  cases readWeekdayItems items <;> simp

theorem readItems_ints {name : OptionName} {bounds : Bounds} {ns : List Int}
    (hall : ∀ n ∈ ns, bounds.allow n = true) : readItems name bounds (ns.map .int) = .ok ns := by
  induction ns with
  | nil => rfl
  | cons n rest ih =>
    obtain ⟨hn, hrest⟩ := List.forall_mem_cons.1 hall
    rw [List.map_cons, readItems, if_pos hn, ih hrest]
    rfl

/-- Items are read as integers exactly when they are these integers, each within bounds. -/
theorem readItems_eq_ok {name : OptionName} {bounds : Bounds} {items : List Value} {ns : List Int} :
    readItems name bounds items = .ok ns ↔
      items = ns.map .int ∧ ∀ n ∈ ns, bounds.allow n = true := by
  refine ⟨fun h => ?_, fun ⟨hitems, hall⟩ => hitems ▸ readItems_ints hall⟩
  induction items generalizing ns with
  | nil =>
    obtain rfl := Except.ok.inj h
    exact ⟨rfl, fun n hn => absurd hn List.not_mem_nil⟩
  | cons item rest ih =>
    unfold readItems at h
    split at h
    · rename_i m
      split at h
      · rename_i hallow
        cases hrest : readItems name bounds rest with
        | error e =>
          rw [hrest] at h
          cases h
        | ok others =>
          rw [hrest] at h
          obtain rfl := Except.ok.inj h
          obtain ⟨hitems, hall⟩ := ih hrest
          exact ⟨congrArg (.int m :: ·) hitems, List.forall_mem_cons.2 ⟨hallow, hall⟩⟩
      · cases h
    · cases h

theorem IntsAreReadAs.allow {name : OptionName} {bounds : Bounds} {value : Value} {ns : List Int}
    (h : IntsAreReadAs ctx answers name bounds value ns) {n : Int} (hn : n ∈ ns) :
    bounds.allow n = true := by
  obtain ⟨items, -, h⟩ := h
  exact (readItems_eq_ok.1 h).2 n hn

/-- Integers that a value lists are read as they are, if they are within bounds. -/
theorem intsAreReadAs_iff {name : OptionName} {bounds : Bounds} {value : Value} {ns ms : List Int}
    (hitems : ctx.items value = pure (ns.map .int)) :
    IntsAreReadAs ctx answers name bounds value ms ↔ ms = ns ∧ ∀ n ∈ ns, bounds.allow n = true := by
  have hsame : ns.map Value.int = ms.map Value.int ↔ ns = ms :=
    (List.map_injective_iff.2 fun _ _ => Value.int.inj).eq_iff
  rw [IntsAreReadAs, hitems]
  simp only [Calculation.outcome_pure, Except.ok.injEq, exists_eq_left', readItems_eq_ok, hsame]
  constructor <;> rintro ⟨rfl, hall⟩ <;> exact ⟨rfl, hall⟩

theorem readWeekdayItems_weekdays (ws : List Weekday) :
    readWeekdayItems (ws.map .weekday) = .ok ws := by
  induction ws with
  | nil => rfl
  | cons w rest ih => simp [readWeekdayItems, Weekday.ofValue, ih, bind, Except.bind, pure,
      Except.pure]

/-- Items are read as days of the week, unless a weekday among them is none. -/
theorem forall_isWeekday_iff_of_readWeekdayItems {items : List Value} {ws : List Weekday}
    (h : readWeekdayItems items = .ok ws) :
    (∀ w ∈ ws, IsWeekday w.number) ↔ ∀ v, .weekday v ∈ items → IsWeekday v.number := by
  induction items generalizing ws with
  | nil =>
    obtain rfl := Except.ok.inj h
    simp
  | cons item rest ih =>
    obtain ⟨w, hw, h⟩ := Calculation.except_bind_eq_ok.1 h
    obtain ⟨others, hothers, h⟩ := Calculation.except_bind_eq_ok.1 h
    obtain rfl := Except.ok.inj h
    rw [List.forall_mem_cons, Weekday.isWeekday_iff_of_ofValue hw, ih hothers, ← forall_and]
    refine forall_congr' fun v => ?_
    rw [← or_imp, List.mem_cons, eq_comm]

/-- Weekdays that a value lists are read as they are. -/
theorem weekdaysAreReadAs_iff {value : Value} {ws vs : List Weekday}
    (hitems : ctx.items value = pure (ws.map .weekday)) :
    WeekdaysAreReadAs ctx answers value vs ↔ vs = ws := by
  rw [WeekdaysAreReadAs, hitems]
  simp only [Calculation.outcome_pure, Except.ok.injEq, exists_eq_left',
    readWeekdayItems_weekdays]
  exact eq_comm

/-- The value of an option is read as that option of some options. -/
def IsReadAs (ctx : Context) (answers : Answers) (o : RuleOptions) (value : Value) :
    OptionName → Prop
  | .frequency => readFrequency value = .ok o.frequency
  | .start => (readStart ctx value o.variant).outcome answers = .ok o.start
  | .interval => readInterval value = .ok o.interval
  | .weekStart => readWeekStart value = .ok o.weekStart
  | .count => readCount value = .ok o.count
  | .last => (readLast ctx value o.variant).outcome answers = .ok o.last
  | .timeZone => (if value.truthy then value else .null) = o.timeZone
  | .positions => IntsAreReadAs ctx answers .positions positionBounds value o.positions
  | .months => IntsAreReadAs ctx answers .months monthBounds value o.months
  | .monthDays => ∃ days, IntsAreReadAs ctx answers .monthDays monthDayBounds value days ∧
      days.filter (0 < ·) = o.monthDays ∧ days.filter (· < 0) = o.monthDaysFromEnd
  | .yearDays => IntsAreReadAs ctx answers .yearDays yearDayBounds value o.yearDays
  | .weekNumbers => IntsAreReadAs ctx answers .weekNumbers weekNumberBounds value o.weekNumbers
  | .weekdays => ∃ ws, WeekdaysAreReadAs ctx answers value ws ∧
      (ws.filter fun w => !w.isNth) = o.weekdays ∧ ws.filter (·.isNth) = o.nthWeekdays
  | .hours => IntsAreReadAs ctx answers .hours hourBounds value o.hours
  | .minutes => IntsAreReadAs ctx answers .minutes sixtyBounds value o.minutes
  | .seconds => IntsAreReadAs ctx answers .seconds sixtyBounds value o.seconds
  | .skip => readSkip value = .ok o.skip
  | .calendar => readCalendar ctx value = .ok o.variant

/-- **Options come of a request exactly when the value of every option is read as theirs.** -/
theorem outcome_ofRequest_eq_ok :
    (ofRequest ctx r).outcome answers = .ok o ↔
      ∀ name, IsReadAs ctx answers o (r.value name) name := by
  simp only [ofRequest, Calculation.outcome_bind_eq_ok, Calculation.outcome_liftM,
    outcome_readInts_eq_ok, outcome_readWeekdays_eq_ok]
  constructor
  · rintro ⟨frequency, hfrequency, interval, hinterval, count, hcount, variant, hvariant, start,
      hstart, last, hlast, weekStart, hweekStart, monthDays, hmonthDays, weekdays, hweekdays,
      positions, hpositions, months, hmonths, yearDays, hyearDays, weekNumbers, hweekNumbers, hours,
      hhours, minutes, hminutes, seconds, hseconds, skip, hskip, h⟩ name
    obtain rfl := Except.ok.inj h
    cases name with
    | monthDays => exact ⟨monthDays, hmonthDays, rfl, rfl⟩
    | weekdays => exact ⟨weekdays, hweekdays, rfl, rfl⟩
    | timeZone => rfl
    | _ => assumption
  · intro h
    obtain ⟨monthDays, hmonthDays, hfirst, hlast⟩ := h .monthDays
    obtain ⟨weekdays, hweekdays, hplain, hnth⟩ := h .weekdays
    have hzone : (if (r.value .timeZone).truthy then r.value .timeZone else .null) = o.timeZone :=
      h .timeZone
    refine ⟨_, h .frequency, _, h .interval, _, h .count, _, h .calendar, _, h .start, _, h .last,
      _, h .weekStart, monthDays, hmonthDays, weekdays, hweekdays, _, h .positions, _, h .months,
      _, h .yearDays, _, h .weekNumbers, _, h .hours, _, h .minutes, _, h .seconds, _, h .skip, ?_⟩
    rw [hfirst, hlast, hplain, hnth, hzone]
    rfl

/-! ### Days of the week -/

/-- The weekdays of options are days of the week, and so is the day that their weeks start on. -/
structure WithinWeek (o : RuleOptions) : Prop where
  weekStart : IsWeekday o.weekStart
  weekdays : ∀ w ∈ o.allWeekdays, IsWeekday w.number

theorem mem_allWeekdays_of_filter {ws : List Weekday}
    (hplain : (ws.filter fun w => !w.isNth) = o.weekdays)
    (hnth : ws.filter (·.isNth) = o.nthWeekdays) (w : Weekday) : w ∈ o.allWeekdays ↔ w ∈ ws := by
  rw [allWeekdays, ← hplain, ← hnth, List.mem_append, List.mem_filter, List.mem_filter,
    ← and_or_left]
  cases w.isNth <;> simp

theorem isWeekday_iff_of_readWeekStart {value : Value} {n : Int}
    (h : readWeekStart value = .ok n) :
    IsWeekday n ↔ ∀ w, value = .weekday w → IsWeekday w.number := by
  unfold readWeekStart at h
  split at h
  · obtain rfl := Except.ok.inj h
    exact iff_of_true ⟨by decide, by decide⟩ (by simp)
  · split at h
    · rename_i w hw
      obtain rfl := Except.ok.inj h
      exact Weekday.isWeekday_iff_of_ofValue hw
    · cases h

/-- **Options are within the week exactly when the weekdays are that the caller has made.** -/
theorem withinWeek_iff_of_ofRequest (h : (ofRequest ctx r).outcome answers = .ok o) :
    o.WithinWeek ↔ r.GivesDays ctx answers := by
  have hread := outcome_ofRequest_eq_ok.1 h
  obtain ⟨ws, ⟨items, hitems, hws⟩, hplain, hnth⟩ := hread .weekdays
  have hstart := isWeekday_iff_of_readWeekStart (hread .weekStart)
  have hdays : (∀ w ∈ o.allWeekdays, IsWeekday w.number) ↔
      ∀ w, .weekday w ∈ items → IsWeekday w.number := by
    simp only [mem_allWeekdays_of_filter hplain hnth]
    exact forall_isWeekday_iff_of_readWeekdayItems hws
  constructor
  · rintro ⟨hweekStart, hweekdays⟩
    refine ⟨hstart.1 hweekStart, fun others hothers => ?_⟩
    obtain rfl := Except.ok.inj (hothers.symm.trans hitems)
    exact hdays.1 hweekdays
  · rintro ⟨hweekStart, hweekdays⟩
    exact ⟨hstart.2 hweekStart, hdays.2 (hweekdays items hitems)⟩

end RuleOptions

end HijriRecurrence
