import HijriRecurrence.Proofs.Rule.Replacement
import HijriRecurrence.Proofs.RuleText.Entries

/-!
# The request that the entries of a rule make

Reading a text of one rule collects values for options, and the options are then checked as those of
any request.  A request that gives each option the value of its entry, and the first date and the
calendar besides, asks for exactly the options that were written (`outcome_ofRequest_written`):
what has no entry takes its usual value, and month days and weekdays, which share one entry for both
of their kinds, are told apart again by their sign and their ordinal.
-/

namespace HijriRecurrence

open Text RuleText

variable {ctx : Context} {answers : Answers} {limit : Option DigitLimit} {o : RuleOptions}

namespace RuleOptions

def writtenValue (limit : Option DigitLimit) (o : RuleOptions) : OptionName → Value
  | .start => .lunar o.start
  | .calendar => .str o.variant.token
  | name => ((o.entryOf limit name).map (·.value)).getD .null

/-- What the entries of a rule change gives each option the value of its entry. -/
theorem value_merge_entries (name : OptionName) :
    (Request.empty.merge ((o.entries limit).map (·.change))).value name =
      ((o.entryOf limit name).map (·.value)).getD .null := by
  have hchanges : (o.entries limit).map (·.change) =
      partOrder.filterMap fun n => ((o.entryOf limit n).map (·.value)).map (n, ·) := by
    rw [entries, List.map_filterMap]
    refine List.filterMap_congr fun n _ => ?_
    cases hentry : o.entryOf limit n with
    | none => rfl
    | some e => exact congrArg some (Prod.ext (option_of_entryOf hentry) rfl)
  rw [hchanges, Request.value_merge_filterMap]
  split
  · rfl
  · rename_i hname
    have hnone : o.entryOf limit name = none := by
      cases name <;> first | rfl | exact absurd (by decide) hname
    rw [hnone]
    rfl

/-! ### Values -/

@[simp] theorem value_integersEntry {name : String} {option : OptionName} {ns : List Int} :
    ((integersEntry limit name option ns).map (·.value)).getD .null = .ofInts ns := by
  rw [integersEntry, Value.ofInts]
  split <;> rfl

/-- The written value of an option that may have its usual value. -/
theorem getD_map_ite {p : Prop} [Decidable p] {e : Entry} :
    ((if p then none else some e).map (·.value)).getD .null = if p then .null else e.value := by
  split <;> rfl

theorem readFrequency_written :
    readFrequency (o.writtenValue limit .frequency) = .ok o.frequency := by
  show readFrequency (.int o.frequency.number) = _
  rw [readFrequency, Frequency.ofNumber?_number]

theorem readInterval_written (h : o.Normalized ctx answers) :
    readInterval (o.writtenValue limit .interval) = .ok o.interval := by
  have hvalue : o.writtenValue limit .interval =
      if o.interval = 1 then .null else .int o.interval := getD_map_ite
  have hpositive := h.interval
  rw [hvalue]
  split
  · rename_i hone
    rw [hone]
    rfl
  · exact if_neg (by omega)

theorem readCount_written (h : o.Normalized ctx answers) :
    readCount (o.writtenValue limit .count) = .ok o.count := by
  cases hn : o.count with
  | none => simp [writtenValue, entryOf, hn, readCount]
  | some n =>
    have := h.count n hn
    simp only [writtenValue, entryOf, hn, Option.map_some, Option.getD_some, readCount]
    exact if_neg (by omega)

theorem readCalendar_written :
    readCalendar ctx (o.writtenValue limit .calendar) = .ok o.variant := by
  show readCalendar ctx (.str o.variant.token) = _
  rw [readCalendar, Variant.ofToken?_token]

theorem outcome_readLast_written (h : o.Normalized ctx answers) :
    (readLast ctx (o.writtenValue limit .last) o.variant).outcome answers = .ok o.last := by
  cases hdate : o.last with
  | none => simp [writtenValue, entryOf, hdate, readLast]
  | some d =>
    simp only [writtenValue, entryOf, hdate, Option.map_some, Option.getD_some, readLast]
    rw [← bind_pure_comp, Calculation.outcome_bind_ok (outcome_readDate (h.last d hdate).2)]
    rfl

theorem readWeekStart_written (h : IsWeekday o.weekStart) :
    readWeekStart (o.writtenValue limit .weekStart) = .ok o.weekStart := by
  have hvalue : o.writtenValue limit .weekStart =
      if o.weekStart = 6 then .null else .int o.weekStart := getD_map_ite
  rw [hvalue]
  split
  · rename_i husual
    rw [husual]
    rfl
  · exact readWeekStart_int h

theorem readSkip_written : readSkip (o.writtenValue limit .skip) = .ok o.skip := by
  have hvalue : o.writtenValue limit .skip =
      if o.skip = .omit then .null else .str o.skip.name := getD_map_ite
  have hfind : ∀ s : Skip,
      (Skip.all.find? fun t => t.name.toList = lower s.name.toList) = some s := by
    intro s
    cases s <;> decide
  rw [hvalue]
  split
  · rename_i husual
    rw [husual]
    rfl
  · rw [readSkip, hfind]

theorem timeZone_written (h : o.Canonical ctx answers) :
    (if (o.writtenValue limit .timeZone).truthy then o.writtenValue limit .timeZone else .null) =
      o.timeZone := by
  rcases h.timeZone with hnull | ⟨s, hs, hzone⟩
  · simp [writtenValue, entryOf, hnull, Value.truthy]
  · simp [writtenValue, entryOf, hzone, Value.truthy, hs]

/-- **A request with the written values asks for the options that were written.** -/
theorem outcome_ofRequest_written (h : o.Canonical ctx answers) (hdays : o.WithinWeek)
    {r : Request} (hr : ∀ name, r.value name = o.writtenValue limit name) :
    (ofRequest ctx r).outcome answers = .ok o := by
  rw [outcome_ofRequest_eq_ok]
  intro name
  rw [hr name]
  have hints {ns : List Int} (hns : o.integersOf? name = some ns)
      (hvalue : o.writtenValue limit name = .ofInts ns) :
      IsReadAs ctx answers o (o.writtenValue limit name) name := by
    rw [hvalue]
    exact (isReadAs_integers_iff h.checked hns items_ofInts).2 (h.checked.agreeIn_self name)
  cases name with
  | frequency => exact readFrequency_written
  | start => exact outcome_readDate h.start_variant
  | interval => exact readInterval_written h.toNormalized
  | weekStart => exact readWeekStart_written hdays.weekStart
  | count => exact readCount_written h.toNormalized
  | last => exact outcome_readLast_written h.toNormalized
  | timeZone => exact timeZone_written h
  | weekdays =>
    have hvalue : o.writtenValue limit .weekdays =
        if o.allWeekdays.isEmpty then .null else .list (o.allWeekdays.map .weekday) := getD_map_ite
    refine (isReadAs_weekdays_iff h.checked ?_).2 ⟨rfl, rfl⟩
    rw [hvalue]
    cases o.allWeekdays <;> rfl
  | skip => exact readSkip_written
  | calendar => exact readCalendar_written
  | _ => exact hints rfl value_integersEntry

end RuleOptions

end HijriRecurrence
