import HijriRecurrence.Proofs.Lunar.Built
import HijriRecurrence.Proofs.Rule.OptionValues

/-!
# Normalized options

`RuleOptions.Normalized` is what a rule may rely on: the interval counts periods, every list of
numbers is in its range, month days are apart by sign and weekdays by ordinal, and the dates exist in
the rule's calendar.  Whatever request options come from, they are normalized (`normalized_of_ofRequest`); of
the request it is only needed that lunar dates in it are dates that exist.

Without that the dates may not exist, but they are still tagged with the rule's calendar: options
are `RuleOptions.Checked` whatever the request (`checked_of_ofRequest`).
-/

namespace HijriRecurrence

variable {ctx : Context} {answers : Answers}

/-! ### Dates of a request -/

namespace LunarDate

/-- A value that is no lunar date, or one that exists. -/
def BuiltValue (ctx : Context) (answers : Answers) (value : Value) : Prop :=
  ∀ d, value = .lunar d → d.Built ctx answers

variable {variant : Variant} {d : LunarDate}

theorem built_of_buildNamed {day : LunarDay} {hour minute second : Int}
    (h : (buildNamed ctx (some (.known variant)) day hour minute second).outcome answers = .ok d) :
    d.Built ctx answers ∧ d.variant = variant := by
  obtain ⟨rfl, hd⟩ := build_eq_ok.1 h
  exact ⟨hd, rfl⟩

theorem built_of_ofParts {parts : List Value}
    (h : (ofParts ctx parts (some (.known variant))).outcome answers = .ok d) :
    d.Built ctx answers ∧ d.variant = variant := by
  obtain ⟨ns, -, h⟩ := Calculation.outcome_bind_eq_ok.1 h
  split at h
  · exact built_of_buildNamed h
  · simp at h

/-- A date built on a day that a calendar has found. -/
theorem built_of_serve (dayOf : Calendar → Except Error LunarDay) (dateOf : LunarDay → LunarDate)
    (hvariant : ∀ day, (dateOf day).variant = variant)
    (h : (do
      let cal ← ctx.serve variant
      let day ← dayOf cal
      build ctx (dateOf day) : Calculation LunarDate).outcome answers = .ok d) :
    d.Built ctx answers ∧ d.variant = variant := by
  obtain ⟨cal, -, h⟩ := Calculation.outcome_bind_eq_ok.1 h
  obtain ⟨day, -, h⟩ := Calculation.outcome_bind_eq_ok.1 h
  obtain ⟨rfl, hd⟩ := build_eq_ok.1 h
  exact ⟨hd, hvariant day⟩

theorem built_of_ofCivil {g : CivilDate}
    (h : (ofCivil ctx g (some (.known variant))).outcome answers = .ok d) :
    d.Built ctx answers ∧ d.variant = variant :=
  built_of_serve (fun cal => cal.ofCivil g) (fun day => { day with variant }) (fun _ => rfl) h

theorem built_of_ofCivilTime {g : CivilDateTime}
    (h : (ofCivilTime ctx g (some (.known variant))).outcome answers = .ok d) :
    d.Built ctx answers ∧ d.variant = variant :=
  built_of_serve (fun cal => cal.ofCivilTime g)
    (fun day => { day with hour := g.hour, minute := g.minute, second := g.second, variant })
    (fun _ => rfl) h

/-- A date that a value stands for belongs to the calendar asked for.  It exists, unless the value is
a date of that calendar already, which is taken as it is. -/
theorem variant_of_ofValue {value : Value}
    (h : (ofValue ctx value (some (.known variant))).outcome answers = .ok d) :
    d.variant = variant ∧ (BuiltValue ctx answers value → d.Built ctx answers) := by
  suffices hsuffices : value = .lunar d ∧ d.variant = variant ∨
      d.Built ctx answers ∧ d.variant = variant by
    rcases hsuffices with ⟨hvalue, hv⟩ | ⟨hd, hv⟩
    · exact ⟨hv, fun hbuilt => hbuilt d hvalue⟩
    · exact ⟨hv, fun _ => hd⟩
  unfold ofValue at h
  split at h
  · rename_i e
    dsimp only at h
    split at h
    · rename_i hv
      obtain rfl := Except.ok.inj h
      exact .inl ⟨rfl, hv⟩
    · obtain ⟨rfl, hd⟩ := build_eq_ok.1 h
      exact .inr ⟨hd, rfl⟩
  · exact .inr (built_of_ofCivil h)
  · exact .inr (built_of_ofCivilTime h)
  · unfold ofEntries at h
    split at h
    · exact .inr (built_of_ofParts h)
    · cases h
  · split at h
    · exact .inr (built_of_ofParts h)
    · cases h
  · split at h
    · exact .inr (built_of_ofParts h)
    · cases h
  · cases h

end LunarDate

namespace RuleOptions

/-- What options keep to whatever calendar serves them: the interval counts periods, every list of
numbers is in its range, month days are apart by sign and weekdays by ordinal, and the dates are
tagged with the rule's calendar.  A part that is not given is the empty list; one that is given has a
member.  Whether the weekdays are days of the week is another matter (`WithinWeek`). -/
structure Checked (o : RuleOptions) : Prop where
  frequency : o.frequency.number ≤ 6
  interval : 1 ≤ o.interval
  count : ∀ n ∈ o.count, 0 ≤ n
  start : o.start.variant = o.variant
  last : ∀ d ∈ o.last, d.variant = o.variant
  timeZone : o.timeZone = .null ∨ o.timeZone.truthy = true
  positions : ∀ n ∈ o.positions, (-366 ≤ n ∧ n ≤ 366) ∧ n ≠ 0
  months : ∀ n ∈ o.months, 1 ≤ n ∧ n ≤ 12
  monthDays : ∀ n ∈ o.monthDays, 1 ≤ n ∧ n ≤ 30
  monthDaysFromEnd : ∀ n ∈ o.monthDaysFromEnd, -30 ≤ n ∧ n ≤ -1
  yearDays : ∀ n ∈ o.yearDays, (-355 ≤ n ∧ n ≤ 355) ∧ n ≠ 0
  weekdays : ∀ w ∈ o.weekdays, w.isNth = false
  nthWeekdays : ∀ w ∈ o.nthWeekdays, w.isNth = true
  hours : ∀ n ∈ o.hours, 0 ≤ n ∧ n ≤ 23
  minutes : ∀ n ∈ o.minutes, 0 ≤ n ∧ n ≤ 59
  seconds : ∀ n ∈ o.seconds, 0 ≤ n ∧ n ≤ 59

/-- What a rule may rely on. -/
structure Normalized (ctx : Context) (answers : Answers) (o : RuleOptions) : Prop where
  interval : 1 ≤ o.interval
  count : ∀ n ∈ o.count, 0 ≤ n
  start : o.start.Built ctx answers
  start_variant : o.start.variant = o.variant
  last : ∀ d ∈ o.last, d.Built ctx answers ∧ d.variant = o.variant
  positions : ∀ n ∈ o.positions, (-366 ≤ n ∧ n ≤ 366) ∧ n ≠ 0
  months : ∀ n ∈ o.months, 1 ≤ n ∧ n ≤ 12
  monthDays : ∀ n ∈ o.monthDays, 1 ≤ n ∧ n ≤ 30
  monthDaysFromEnd : ∀ n ∈ o.monthDaysFromEnd, -30 ≤ n ∧ n ≤ -1
  yearDays : ∀ n ∈ o.yearDays, (-355 ≤ n ∧ n ≤ 355) ∧ n ≠ 0
  weekdays : ∀ w ∈ o.weekdays, w.isNth = false
  nthWeekdays : ∀ w ∈ o.nthWeekdays, w.isNth = true
  hours : ∀ n ∈ o.hours, 0 ≤ n ∧ n ≤ 23
  minutes : ∀ n ∈ o.minutes, 0 ≤ n ∧ n ≤ 59
  seconds : ∀ n ∈ o.seconds, 0 ≤ n ∧ n ≤ 59

/-! ### Reading -/

theorem Bounds.allow_range {low high n : Int} {zero : Bool} :
    (Bounds.mk (some (low, high)) zero).allow n = true ↔
      (low ≤ n ∧ n ≤ high) ∧ (zero = true ∨ n ≠ 0) := by
  simp [Bounds.allow]

/-- A number within bounds that leave zero out. -/
theorem range_of_allow {low high n : Int} {zero : Bool}
    (h : (Bounds.mk (some (low, high)) zero).allow n = true) : low ≤ n ∧ n ≤ high :=
  (Bounds.allow_range.1 h).1

theorem ne_zero_of_allow {low high n : Int}
    (h : (Bounds.mk (some (low, high)) false).allow n = true) : n ≠ 0 := by
  have := (Bounds.allow_range.1 h).2
  simpa using this

theorem variant_of_readDate {name : OptionName} {value : Value} {variant : Variant} {d : LunarDate}
    (h : (readDate ctx name value variant).outcome answers = .ok d) :
    d.variant = variant ∧ (LunarDate.BuiltValue ctx answers value → d.Built ctx answers) := by
  rw [readDate, Calculation.outcome_tryCatch] at h
  split at h
  · rename_i e he
    obtain rfl := Except.ok.inj h
    exact LunarDate.variant_of_ofValue he
  · split at h <;> cases h

theorem variant_of_readStart {value : Value} {variant : Variant} {d : LunarDate}
    (h : (readStart ctx value variant).outcome answers = .ok d) :
    d.variant = variant ∧ (LunarDate.BuiltValue ctx answers value → d.Built ctx answers) := by
  unfold readStart at h
  split at h
  · obtain ⟨hd, hv⟩ := LunarDate.built_of_ofCivil h
    exact ⟨hv, fun _ => hd⟩
  · exact variant_of_readDate h

theorem variant_of_readLast {value : Value} {variant : Variant} {last : Option LunarDate}
    (h : (readLast ctx value variant).outcome answers = .ok last) {d : LunarDate}
    (hd : d ∈ last) :
    d.variant = variant ∧ (LunarDate.BuiltValue ctx answers value → d.Built ctx answers) := by
  unfold readLast at h
  split at h
  · obtain rfl := Except.ok.inj h
    cases hd
  · rw [← bind_pure_comp] at h
    obtain ⟨e, he, h⟩ := Calculation.outcome_bind_eq_ok.1 h
    obtain rfl := Except.ok.inj h
    obtain rfl := Option.some.inj hd
    exact variant_of_readDate he

theorem readInterval_pos {value : Value} {n : Int} (h : readInterval value = .ok n) : 1 ≤ n := by
  unfold readInterval at h
  split at h
  · obtain rfl : 1 = n := by simpa using h
    exact Int.le_refl 1
  · split at h
    · exact absurd h (by simp)
    · obtain rfl := Except.ok.inj h
      omega
  · exact absurd h (by simp)

theorem readCount_nonneg {value : Value} {count : Option Int} (h : readCount value = .ok count)
    {n : Int} (hn : n ∈ count) : 0 ≤ n := by
  unfold readCount at h
  split at h
  · obtain rfl := Except.ok.inj h
    exact absurd hn (by simp)
  · split at h
    · exact absurd h (by simp)
    · obtain rfl := Except.ok.inj h
      obtain rfl := Option.some.inj hn
      omega
  · exact absurd h (by simp)

/-- **Options that a request asks for are checked**, whatever the request. -/
theorem checked_of_ofRequest {r : Request} {o : RuleOptions}
    (h : (ofRequest ctx r).outcome answers = .ok o) : o.Checked := by
  have hread := outcome_ofRequest_eq_ok.1 h
  obtain ⟨days, hdays, hmonthDays, hmonthDaysFromEnd⟩ := hread .monthDays
  obtain ⟨weekdays, -, hweekdays, hnthWeekdays⟩ := hread .weekdays
  have htimeZone : (if (r.value .timeZone).truthy then r.value .timeZone else .null) = o.timeZone :=
    hread .timeZone
  have hnonzero {name : OptionName} {low high : Int} {value : Value} {ns : List Int}
      (hns : IntsAreReadAs ctx answers name ⟨some (low, high), false⟩ value ns) :
      ∀ n ∈ ns, (low ≤ n ∧ n ≤ high) ∧ n ≠ 0 :=
    fun n hn => ⟨range_of_allow (hns.allow hn), ne_zero_of_allow (hns.allow hn)⟩
  have hrange {name : OptionName} {low high : Int} {value : Value} {ns : List Int}
      (hns : IntsAreReadAs ctx answers name ⟨some (low, high), true⟩ value ns) :
      ∀ n ∈ ns, low ≤ n ∧ n ≤ high :=
    fun n hn => range_of_allow (hns.allow hn)
  refine
    { frequency := by cases o.frequency <;> decide
      interval := readInterval_pos (hread .interval)
      count := fun n hn => readCount_nonneg (hread .count) hn
      start := (variant_of_readStart (hread .start)).1
      last := fun d hd => (variant_of_readLast (hread .last) hd).1
      timeZone := ?_
      positions := hnonzero (hread .positions)
      months := hrange (hread .months)
      monthDays := fun n hn => ?_
      monthDaysFromEnd := fun n hn => ?_
      yearDays := hnonzero (hread .yearDays)
      weekdays := fun w hw => ?_
      nthWeekdays := fun w hw => ?_
      hours := hrange (hread .hours)
      minutes := hrange (hread .minutes)
      seconds := hrange (hread .seconds) }
  · rw [← htimeZone]
    split
    · exact .inr ‹_›
    · exact .inl rfl
  · rw [← hmonthDays] at hn
    obtain ⟨hmem, hsign⟩ := List.mem_filter.1 hn
    have hbounds := hnonzero hdays n hmem
    have : 0 < n := by simpa using hsign
    omega
  · rw [← hmonthDaysFromEnd] at hn
    obtain ⟨hmem, hsign⟩ := List.mem_filter.1 hn
    have hbounds := hnonzero hdays n hmem
    have : n < 0 := by simpa using hsign
    omega
  · rw [← hweekdays] at hw
    simpa using (List.mem_filter.1 hw).2
  · rw [← hnthWeekdays] at hw
    exact (List.mem_filter.1 hw).2

/-- **Options that a request asks for are normalized.** -/
theorem normalized_of_ofRequest {r : Request} {o : RuleOptions}
    (hstart : LunarDate.BuiltValue ctx answers (r.value .start))
    (hlast : LunarDate.BuiltValue ctx answers (r.value .last))
    (h : (ofRequest ctx r).outcome answers = .ok o) : o.Normalized ctx answers := by
  have hread := outcome_ofRequest_eq_ok.1 h
  have hlastDate (d : LunarDate) (hd : d ∈ o.last) : d.Built ctx answers ∧ d.variant = o.variant :=
    have ⟨hv, hbuilt⟩ := variant_of_readLast (hread .last) hd
    ⟨hbuilt hlast, hv⟩
  exact
    { checked_of_ofRequest h with
      start := (variant_of_readStart (hread .start)).2 hstart
      start_variant := (variant_of_readStart (hread .start)).1
      last := hlastDate }

end RuleOptions

end HijriRecurrence
