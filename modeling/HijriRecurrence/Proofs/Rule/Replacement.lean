import HijriRecurrence.Proofs.Rule.Enumeration
import HijriRecurrence.Proofs.Rule.Normalized
import HijriRecurrence.Recurrence.Basic

/-!
# Rules with some options replaced

A rule is replaced by asking for its options again (`RuleOptions.toRequest`) with some changes.  An
option that no change names stays as it is, but for the calendar of its date: two options
`AgreeIn` it.

* `isReadAs_toRequest_iff` — the values that ask for checked options are read as options that agree
  with them, and as no others;
* `replace_agrees` — what a replaced rule has in common with the rule it replaces, for any changes;
  without changes, options that are asked for again come back, if their weeks start on a day of the
  week.

Month days and weekdays are the parts to look at: each is asked for by one value, the two kinds one
after the other, and told apart again by sign and by ordinal.  The weekday that weeks start on is
asked for by its number alone, and a number is refused that a weekday made by the caller may have
(`outcome_ofRequest_again_of_not_isWeekday`).
-/

namespace HijriRecurrence

variable {ctx : Context} {answers : Answers}

namespace RuleOptions

variable {o o' : RuleOptions} {name : OptionName} {value : Value}

/-- Some options agree with others in what one name governs.  Dates are tagged with the calendar
that the options have. -/
def AgreeIn (o o' : RuleOptions) : OptionName → Prop
  | .frequency => o'.frequency = o.frequency
  | .start => o'.start = { o.start with variant := o'.variant }
  | .interval => o'.interval = o.interval
  | .weekStart => o'.weekStart = o.weekStart
  | .count => o'.count = o.count
  | .last => o'.last = o.last.map fun d => { d with variant := o'.variant }
  | .timeZone => o'.timeZone = o.timeZone
  | .positions => o'.positions = o.positions
  | .months => o'.months = o.months
  | .monthDays => o'.monthDays = o.monthDays ∧ o'.monthDaysFromEnd = o.monthDaysFromEnd
  | .yearDays => o'.yearDays = o.yearDays
  | .weekNumbers => o'.weekNumbers = o.weekNumbers
  | .weekdays => o'.weekdays = o.weekdays ∧ o'.nthWeekdays = o.nthWeekdays
  | .hours => o'.hours = o.hours
  | .minutes => o'.minutes = o.minutes
  | .seconds => o'.seconds = o.seconds
  | .skip => o'.skip = o.skip
  | .calendar => o'.variant = o.variant

/-! ### Lists of one option -/

/-- The integers of an option that lists integers. -/
def integersOf? (o : RuleOptions) : OptionName → Option (List Int)
  | .positions => some o.positions
  | .months => some o.months
  | .monthDays => some o.allMonthDays
  | .yearDays => some o.yearDays
  | .weekNumbers => some o.weekNumbers
  | .hours => some o.hours
  | .minutes => some o.minutes
  | .seconds => some o.seconds
  | _ => none

theorem Checked.filter_allMonthDays (h : o.Checked) :
    o.allMonthDays.filter (0 < ·) = o.monthDays ∧
      o.allMonthDays.filter (· < 0) = o.monthDaysFromEnd := by
  have hfirst : ∀ n ∈ o.monthDays, 0 < n := fun n hn => by have := h.monthDays n hn; omega
  have hlast : ∀ n ∈ o.monthDaysFromEnd, n < 0 := fun n hn => by
    have := h.monthDaysFromEnd n hn
    omega
  rw [allMonthDays, List.filter_append, List.filter_append]
  constructor
  · rw [List.filter_eq_self.2 (by simpa using hfirst), List.filter_eq_nil_iff.2, List.append_nil]
    intro n hn
    have := hlast n hn
    simp; omega
  · rw [List.filter_eq_nil_iff.2, List.filter_eq_self.2 (by simpa using hlast), List.nil_append]
    intro n hn
    have := hfirst n hn
    simp; omega

theorem Checked.filter_allWeekdays (h : o.Checked) :
    (o.allWeekdays.filter fun w => !w.isNth) = o.weekdays ∧
      o.allWeekdays.filter (·.isNth) = o.nthWeekdays := by
  rw [allWeekdays, List.filter_append, List.filter_append]
  constructor
  · rw [List.filter_eq_self.2 (by simpa using h.weekdays), List.filter_eq_nil_iff.2,
      List.append_nil]
    intro w hw
    simp [h.nthWeekdays w hw]
  · rw [List.filter_eq_nil_iff.2, List.filter_eq_self.2 h.nthWeekdays, List.nil_append]
    intro w hw
    simp [h.weekdays w hw]

/-- A value that lists the integers of checked options is read as these. -/
theorem isReadAs_integers_iff (h : o.Checked) {ns : List Int} (hns : o.integersOf? name = some ns)
    (hitems : ctx.items value = pure (ns.map .int)) :
    IsReadAs ctx answers o' value name ↔ o.AgreeIn o' name := by
  have hread {bounds : Bounds} (hall : ∀ n ∈ ns, bounds.allow n = true) (ms : List Int) :
      IntsAreReadAs ctx answers name bounds value ms ↔ ms = ns :=
    (intsAreReadAs_iff hitems).trans (and_iff_left hall)
  cases name with
  | positions =>
    obtain rfl := Option.some.inj hns
    exact hread (fun n hn => Bounds.allow_range.2 ((h.positions n hn).imp_right .inr)) _
  | months =>
    obtain rfl := Option.some.inj hns
    exact hread (fun n hn => Bounds.allow_range.2 ⟨h.months n hn, .inl rfl⟩) _
  | monthDays =>
    obtain rfl := Option.some.inj hns
    have hall : ∀ n ∈ o.allMonthDays, monthDayBounds.allow n = true := by
      intro n hn
      have hrange : (1 ≤ n ∧ n ≤ 30) ∨ (-30 ≤ n ∧ n ≤ -1) :=
        (List.mem_append.1 hn).imp (h.monthDays n) (h.monthDaysFromEnd n)
      exact Bounds.allow_range.2 ⟨by omega, .inr (by omega)⟩
    obtain ⟨hfirst, hlast⟩ := h.filter_allMonthDays
    show (∃ days, _ ∧ _) ↔ _
    simp only [hread hall, exists_eq_left, hfirst, hlast]
    exact and_congr eq_comm eq_comm
  | yearDays =>
    obtain rfl := Option.some.inj hns
    exact hread (fun n hn => Bounds.allow_range.2 ((h.yearDays n hn).imp_right .inr)) _
  | weekNumbers =>
    obtain rfl := Option.some.inj hns
    exact hread (fun n _ => rfl) _
  | hours =>
    obtain rfl := Option.some.inj hns
    exact hread (fun n hn => Bounds.allow_range.2 ⟨h.hours n hn, .inl rfl⟩) _
  | minutes =>
    obtain rfl := Option.some.inj hns
    exact hread (fun n hn => Bounds.allow_range.2 ⟨h.minutes n hn, .inl rfl⟩) _
  | seconds =>
    obtain rfl := Option.some.inj hns
    exact hread (fun n hn => Bounds.allow_range.2 ⟨h.seconds n hn, .inl rfl⟩) _
  | _ => cases hns

/-- A value that lists the weekdays of checked options is read as these. -/
theorem isReadAs_weekdays_iff (h : o.Checked)
    (hitems : ctx.items value = pure (o.allWeekdays.map .weekday)) :
    IsReadAs ctx answers o' value .weekdays ↔ o.AgreeIn o' .weekdays := by
  obtain ⟨hplain, hnth⟩ := h.filter_allWeekdays
  show (∃ ws, _ ∧ _) ↔ _
  simp only [weekdaysAreReadAs_iff hitems, exists_eq_left, hplain, hnth]
  exact and_congr eq_comm eq_comm

theorem items_intsValue {ns : List Int} : ctx.items (intsValue ns) = pure (ns.map .int) := by
  cases ns <;> rfl

theorem items_ofInts {ns : List Int} : ctx.items (.ofInts ns) = pure (ns.map .int) := by
  cases ns <;> rfl

theorem items_weekdaysValue {ws : List Weekday} :
    ctx.items (weekdaysValue ws) = pure (ws.map .weekday) := by
  cases ws <;> rfl

/-! ### Dates -/

/-- A date in the rule's calendar is read as it is. -/
theorem outcome_readDate {name : OptionName} {d : LunarDate} {variant : Variant}
    (h : d.variant = variant) :
    (readDate ctx name (.lunar d) variant).outcome answers = .ok d := by
  rw [readDate, Calculation.outcome_tryCatch, LunarDate.ofValue]
  simp [h]

/-- A date of any calendar is only tagged again, if it is read at all. -/
theorem eq_of_readDate_lunar {name : OptionName} {d e : LunarDate} {variant : Variant}
    (h : (readDate ctx name (.lunar d) variant).outcome answers = .ok e) :
    e = { d with variant } := by
  rw [readDate, Calculation.outcome_tryCatch] at h
  split at h
  · rename_i found hfound
    obtain rfl := Except.ok.inj h
    rw [LunarDate.ofValue] at hfound
    split at hfound
    · rename_i hv
      obtain rfl := Except.ok.inj hfound
      rw [← hv]
    · exact (LunarDate.build_eq_ok.1 hfound).1
  · split at h <;> cases h

theorem eq_of_readLast_lunar {d : LunarDate} {variant : Variant} {last : Option LunarDate}
    (h : (readLast ctx (.lunar d) variant).outcome answers = .ok last) :
    last = some { d with variant } := by
  rw [readLast, ← bind_pure_comp] at h
  · obtain ⟨e, he, h⟩ := Calculation.outcome_bind_eq_ok.1 h
    obtain rfl := Except.ok.inj h
    rw [eq_of_readDate_lunar he]
  · simp

/-! ### Asking again -/

theorem readWeekStart_int {n : Int} (h : IsWeekday n) : readWeekStart (.int n) = .ok n := by
  simp [readWeekStart, Weekday.ofValue, Weekday.ofNumber?_eq h]

/-- The number of no day of the week is refused. -/
theorem readWeekStart_of_not_isWeekday {n : Int} (h : ¬IsWeekday n) :
    readWeekStart (.int n) =
      .error (.badOption OptionName.weekStart.text (.badWeekday (.int n))) := by
  have hnumber : Weekday.ofNumber? n = none := if_neg h
  simp [readWeekStart, Weekday.ofValue, hnumber]

/-- The value that asks for an option of checked options is read as options that agree in it, and as
no others.  A date comes apart from that, since it may not exist in another calendar, and so does the
weekday that weeks start on. -/
theorem isReadAs_toRequest_iff (h : o.Checked) (hstart : name ≠ .start) (hlast : name ≠ .last)
    (hweekStart : name ≠ .weekStart) :
    IsReadAs ctx answers o' (o.toRequest.value name) name ↔ o.AgreeIn o' name := by
  have hread {α : Type} {found : Except Error α} {a b : α} (hfound : found = .ok a) :
      found = .ok b ↔ b = a := by
    rw [hfound, Except.ok.injEq, eq_comm]
  cases name with
  | start => exact absurd rfl hstart
  | last => exact absurd rfl hlast
  | weekStart => exact absurd rfl hweekStart
  | frequency =>
    refine hread ?_
    show readFrequency (.int o.frequency.number) = _
    rw [readFrequency, Frequency.ofNumber?_number]
  | interval => exact hread (if_neg (by have := h.interval; omega))
  | count =>
    refine hread ?_
    cases hn : o.count with
    | none => simp [toRequest, hn, readCount]
    | some n =>
      have hnonneg := h.count n hn
      simp only [toRequest, hn, readCount]
      exact if_neg (by omega)
  | timeZone =>
    have hsame : (if o.timeZone.truthy then o.timeZone else .null) = o.timeZone := by
      rcases h.timeZone with hnull | htruthy
      · rw [hnull, ite_self]
      · rw [if_pos htruthy]
    show (if o.timeZone.truthy then o.timeZone else .null) = o'.timeZone ↔ _
    rw [hsame]
    exact eq_comm
  | weekdays => exact isReadAs_weekdays_iff h items_weekdaysValue
  | skip => exact hread rfl
  | calendar =>
    refine hread ?_
    show readCalendar ctx (.str o.variant.token) = _
    rw [readCalendar, Variant.ofToken?_token]
  | _ => exact isReadAs_integers_iff h rfl items_intsValue

/-- The value that asks for an option of checked options is only read as options that agree in
it. -/
theorem agreeIn_of_isReadAs (h : o.Checked)
    (hread : IsReadAs ctx answers o' (o.toRequest.value name) name) : o.AgreeIn o' name := by
  by_cases hstart : name = .start
  · subst hstart
    exact eq_of_readDate_lunar hread
  by_cases hlast : name = .last
  · subst hlast
    have hvalue : (readLast ctx (o.toRequest.value .last) o'.variant).outcome answers =
        .ok o'.last := hread
    show o'.last = o.last.map _
    cases hdate : o.last with
    | none =>
      simp only [toRequest, hdate] at hvalue
      exact (Except.ok.inj hvalue).symm
    | some d =>
      simp only [toRequest, hdate] at hvalue
      exact eq_of_readLast_lunar hvalue
  by_cases hweekStart : name = .weekStart
  · subst hweekStart
    have hvalue : readWeekStart (.int o.weekStart) = .ok o'.weekStart := hread
    by_cases hday : IsWeekday o.weekStart
    · rw [readWeekStart_int hday] at hvalue
      exact (Except.ok.inj hvalue).symm
    · rw [readWeekStart_of_not_isWeekday hday] at hvalue
      cases hvalue
  exact (isReadAs_toRequest_iff h hstart hlast hweekStart).1 hread

theorem Checked.agreeIn_self (h : o.Checked) (name : OptionName) : o.AgreeIn o name := by
  cases name with
  | start =>
    show o.start = { o.start with variant := o.variant }
    rw [← h.start]
  | last =>
    have hsame : ∀ d ∈ o.last, { d with variant := o.variant } = d := fun d hd => by
      rw [← h.last d hd]
    show o.last = o.last.map fun d => { d with variant := o.variant }
    cases hdate : o.last with
    | none => rfl
    | some d => exact congrArg some (hsame d hdate).symm
  | monthDays => exact ⟨rfl, rfl⟩
  | weekdays => exact ⟨rfl, rfl⟩
  | _ => rfl

/-- The values that ask for checked options are read as these, but for a first day of the week that
is no day of it. -/
theorem isReadAs_toRequest (h : o.Checked) (hday : name = .weekStart → IsWeekday o.weekStart) :
    IsReadAs ctx answers o (o.toRequest.value name) name := by
  by_cases hstart : name = .start
  · subst hstart
    exact outcome_readDate h.start
  by_cases hlast : name = .last
  · subst hlast
    show (readLast ctx (o.toRequest.value .last) o.variant).outcome answers = .ok o.last
    cases hdate : o.last with
    | none => simp [toRequest, hdate, readLast]
    | some d =>
      simp only [toRequest, hdate, readLast]
      rw [← bind_pure_comp, Calculation.outcome_bind_ok (outcome_readDate (h.last d hdate))]
      rfl
  by_cases hweekStart : name = .weekStart
  · subst hweekStart
    exact readWeekStart_int (hday rfl)
  exact (isReadAs_toRequest_iff h hstart hlast hweekStart).2 (h.agreeIn_self name)

section Again

variable {r : Request} (h : o.Checked) (hvalue : ∀ name, r.value name = o.toRequest.value name)
include h hvalue

/-- **Checked options come back when they are asked for again**, if their weeks start on a day of the
week. -/
theorem outcome_ofRequest_again (hday : IsWeekday o.weekStart) :
    (ofRequest ctx r).outcome answers = .ok o := by
  refine outcome_ofRequest_eq_ok.2 fun name => ?_
  rw [hvalue name]
  exact isReadAs_toRequest h fun _ => hday

/-- Otherwise they are refused when they are asked for again. -/
theorem outcome_ofRequest_again_of_not_isWeekday (hday : ¬IsWeekday o.weekStart) :
    (ofRequest ctx r).outcome answers =
      .error (.badOption OptionName.weekStart.text (.badWeekday (.int o.weekStart))) := by
  have hread (name : OptionName) (hname : name ≠ .weekStart) :
      IsReadAs ctx answers o (r.value name) name := by
    rw [hvalue name]
    exact isReadAs_toRequest h fun hweekStart => absurd hweekStart hname
  have hfrequency : readFrequency (r.value .frequency) = .ok o.frequency := hread .frequency (by decide)
  have hinterval : readInterval (r.value .interval) = .ok o.interval := hread .interval (by decide)
  have hcount : readCount (r.value .count) = .ok o.count := hread .count (by decide)
  have hvariant : readCalendar ctx (r.value .calendar) = .ok o.variant :=
    hread .calendar (by decide)
  have hstart : (readStart ctx (r.value .start) o.variant).outcome answers = .ok o.start :=
    hread .start (by decide)
  have hlast : (readLast ctx (r.value .last) o.variant).outcome answers = .ok o.last :=
    hread .last (by decide)
  have hweekStart : readWeekStart (r.value .weekStart) =
      .error (.badOption OptionName.weekStart.text (.badWeekday (.int o.weekStart))) := by
    rw [hvalue]
    exact readWeekStart_of_not_isWeekday hday
  rw [ofRequest, hfrequency, hinterval, hcount, hvariant, hweekStart]
  refine (Calculation.outcome_bind_ok (a := o.start) hstart _).trans ?_
  refine (Calculation.outcome_bind_ok (a := o.last) hlast _).trans ?_
  rfl

end Again

/-! ### Named values -/

theorem requestOfNamed_text (entries : List (OptionName × Value)) :
    requestOfNamed (entries.map fun entry => (entry.1.text, entry.2)) = .ok entries := by
  induction entries with
  | nil => rfl
  | cons first rest ih =>
    rw [List.map_cons, requestOfNamed, OptionName.ofText?_text, ih]
    rfl

/-- Named values only change options that have one of the names. -/
theorem text_mem_of_requestOfNamed {named : List (String × Value)}
    {changes : List (OptionName × Value)} (h : requestOfNamed named = .ok changes) :
    ∀ change ∈ changes, change.1.text ∈ named.map (·.1) := by
  induction named generalizing changes with
  | nil =>
    obtain rfl := Except.ok.inj h
    exact fun change hchange => absurd hchange List.not_mem_nil
  | cons first rest ih =>
    unfold requestOfNamed at h
    split at h
    · rename_i option hoption
      cases hrest : requestOfNamed rest with
      | error e =>
        rw [hrest] at h
        cases h
      | ok others =>
        rw [hrest] at h
        obtain rfl := Except.ok.inj h
        have htext : option.text = first.1 := by simpa using List.find?_some hoption
        refine List.forall_mem_cons.2 ⟨?_, fun change hchange => ?_⟩
        · rw [htext]
          exact List.mem_cons_self
        · exact List.mem_cons_of_mem _ (ih hrest change hchange)
    · cases h

/-- To name the given values of options again is to ask for the options again. -/
theorem exists_ofNamed_given (ctx : Context) (o : RuleOptions) :
    ∃ r : Request, (∀ name, r.value name = o.toRequest.value name) ∧
      ofNamed ctx (o.toRequest.given.map fun entry => (entry.1.text, entry.2)) = ofRequest ctx r := by
  refine ⟨Request.empty.merge o.toRequest.given, fun name => ?_, ?_⟩
  · rw [Request.value_merge_given]
    split
    · rename_i hnull
      exact (Value.isNull_iff.1 hnull).symm
    · rfl
  · rw [ofNamed, requestOfNamed_text]
    rfl

end RuleOptions

namespace Rule

variable {rule changed : Rule} {named : List (String × Value)}

/-- What a replaced rule is made of. -/
theorem options_of_replace (h : (rule.replace ctx named).outcome answers = .ok changed) :
    ∃ changes, RuleOptions.requestOfNamed named = .ok changes ∧
      (RuleOptions.ofRequest ctx (rule.options.toRequest.merge changes)).outcome answers =
        .ok changed.options ∧ changed.memo = newMemo rule.memo.isSome := by
  obtain ⟨changes, hchanges, h⟩ := Calculation.outcome_bind_eq_ok.1 h
  obtain ⟨o, ho, h⟩ := Calculation.outcome_bind_eq_ok.1 h
  obtain rfl := Except.ok.inj h
  rw [Calculation.outcome_liftM] at hchanges
  exact ⟨changes, hchanges, ho, rfl⟩

/-- A rule that replaces one of checked options agrees with it in every option that is not
changed. -/
theorem agreeIn_of_replace (hrule : rule.options.Checked)
    (h : (rule.replace ctx named).outcome answers = .ok changed) {name : OptionName}
    (hname : name.text ∉ named.map (·.1)) : rule.options.AgreeIn changed.options name := by
  obtain ⟨changes, hchanges, ho, -⟩ := options_of_replace h
  have hread := RuleOptions.outcome_ofRequest_eq_ok.1 ho name
  have hother : ∀ change ∈ changes, change.1 ≠ name := by
    rintro change hchange rfl
    exact hname (RuleOptions.text_mem_of_requestOfNamed hchanges change hchange)
  rw [Request.value_merge_of_ne hother] at hread
  exact RuleOptions.agreeIn_of_isReadAs hrule hread

/-- **What a rule hands on to those that replace it.**  Options that a request asks for are checked,
and so are those of a rule made of them by changes, wherever and whenever that is done.  What no
change names stays as it is; dates only change their calendar, and that only with the rule's.  A
memo starts anew, and the rule that is replaced keeps its own.

Their weekdays are days of the week, and so is the day that their weeks start on, exactly when the
weekdays are that the caller made.  If weeks start on a day of the week, then nothing changes without
changes: options come back from the values that ask for them.  If not, these values are refused. -/
theorem replace_agrees {ctx₀ : Context} {answers₀ : Answers} {r : Request} {o : RuleOptions}
    (h : (RuleOptions.ofRequest ctx₀ r).outcome answers₀ = .ok o) :
    o.Checked ∧ (o.WithinWeek ↔ r.GivesDays ctx₀ answers₀) ∧
    (∀ (ctx : Context) (answers : Answers) (memo : Option Memo) (named : List (String × Value))
        (changed : Rule),
      ((Rule.mk o memo).replace ctx named).outcome answers = .ok changed →
      changed.options.Checked ∧ changed.memo = newMemo memo.isSome ∧
        ∀ name : OptionName, name.text ∉ named.map (·.1) → o.AgreeIn changed.options name) ∧
    ∀ (ctx : Context) (answers : Answers) (memo : Option Memo),
      if IsWeekday o.weekStart then
        (RuleOptions.ofNamed ctx
          (o.toRequest.given.map fun entry => (entry.1.text, entry.2))).outcome answers = .ok o ∧
        ((Rule.mk o memo).replace ctx []).outcome answers = .ok ⟨o, newMemo memo.isSome⟩
      else
        (RuleOptions.ofNamed ctx
          (o.toRequest.given.map fun entry => (entry.1.text, entry.2))).outcome answers =
            .error (.badOption "wkst" (.badWeekday (.int o.weekStart))) ∧
        ((Rule.mk o memo).replace ctx []).outcome answers =
          .error (.badOption "wkst" (.badWeekday (.int o.weekStart))) := by
  have ho : o.Checked := RuleOptions.checked_of_ofRequest h
  refine ⟨ho, RuleOptions.withinWeek_iff_of_ofRequest h,
    fun ctx answers memo named changed hchanged => ?_, fun ctx answers memo => ?_⟩
  · obtain ⟨changes, -, hread, hmemo⟩ := options_of_replace hchanged
    exact ⟨RuleOptions.checked_of_ofRequest hread, hmemo,
      fun name hname => agreeIn_of_replace ho hchanged hname⟩
  · obtain ⟨given, hgiven, hnamed⟩ := RuleOptions.exists_ofNamed_given ctx o
    rw [hnamed]
    split
    · rename_i hday
      have hsame : (RuleOptions.ofRequest ctx o.toRequest).outcome answers = .ok o :=
        RuleOptions.outcome_ofRequest_again ho (fun _ => rfl) hday
      exact ⟨RuleOptions.outcome_ofRequest_again ho hgiven hday,
        Calculation.outcome_bind_ok hsame _⟩
    · rename_i hday
      have hrefused : (RuleOptions.ofRequest ctx o.toRequest).outcome answers =
          .error (.badOption "wkst" (.badWeekday (.int o.weekStart))) :=
        RuleOptions.outcome_ofRequest_again_of_not_isWeekday ho (fun _ => rfl) hday
      exact ⟨RuleOptions.outcome_ofRequest_again_of_not_isWeekday ho hgiven hday,
        Calculation.outcome_bind_eq_error.2
          (.inr ⟨[], rfl, Calculation.outcome_bind_eq_error.2 (.inl hrefused)⟩)⟩

/-- A request for the last Friday, the 15th and the last day of a month. -/
def lastDaysRequest : Request where
  value
    | .frequency => .str "monthly"
    | .start => .lunar { year := 1446, month := 9, day := 29, variant := .ummAlQura }
    | .monthDays => .list [.int (-1), .int 15]
    | .weekdays => .str "-1FR"
    | .calendar => .str "islamic-umalqura"
    | _ => .null

def lastDays : RuleOptions where
  frequency := .monthly
  start := { year := 1446, month := 9, day := 29, variant := .ummAlQura }
  monthDays := [15]
  monthDaysFromEnd := [-1]
  nthWeekdays := [⟨4, some (-1)⟩]
  variant := .ummAlQura

theorem replace_agrees_lastDays :
    (RuleOptions.ofRequest .hostless lastDaysRequest).outcome .unknown = .ok lastDays ∧
    lastDays.Checked ∧
    (∃ changed : Rule,
      ((Rule.mk lastDays none).replace .hostless [("calendar", .str "islamic-tbla")]).outcome
        .unknown = .ok changed ∧
      changed.options.start = { lastDays.start with variant := .tabular } ∧
      changed.options.monthDays = [15] ∧ changed.options.monthDaysFromEnd = [-1]) ∧
    ((Rule.mk lastDays none).replace .hostless []).outcome .unknown = .ok ⟨lastDays, none⟩ := by
  have hread : (RuleOptions.ofRequest .hostless lastDaysRequest).outcome .unknown = .ok lastDays :=
    rfl
  obtain ⟨hchecked, -, hreplace, hagain⟩ := replace_agrees hread
  have hchanged : ((Rule.mk lastDays none).replace .hostless
      [("calendar", .str "islamic-tbla")]).outcome .unknown = .ok
        ⟨{ lastDays with
            variant := .tabular
            start := { lastDays.start with variant := .tabular } }, none⟩ := rfl
  obtain ⟨-, -, hagree⟩ := hreplace _ _ _ _ _ hchanged
  have hsunday : IsWeekday lastDays.weekStart := ⟨by decide, by decide⟩
  have hsame := hagain .hostless .unknown none
  rw [if_pos hsunday] at hsame
  exact ⟨hread, hchecked, ⟨_, hchanged, hagree .start (by decide), hagree .monthDays (by decide)⟩,
    hsame.2⟩

/-- A request for every day on no day of the week, in weeks that start on none either: both are
weekdays that the caller has made of the number 9. -/
def ninthDaysRequest : Request where
  value
    | .frequency => .str "daily"
    | .start => .lunar { year := 1446, month := 1, day := 1, variant := .tabular }
    | .weekStart => .weekday ⟨9, none⟩
    | .weekdays => .list [.weekday ⟨9, none⟩]
    | .calendar => .str "islamic-tbla"
    | _ => .null

/-- Weekdays that the caller has made are not looked at, and the first day of the week is then refused
when the options are asked for again. -/
theorem ofNamed_fails_ninthDays :
    ∃ o : RuleOptions,
      (RuleOptions.ofRequest .hostless ninthDaysRequest).outcome .unknown = .ok o ∧
      o.weekStart = 9 ∧ o.weekdays = [⟨9, none⟩] ∧
      (RuleOptions.ofNamed .hostless
        (o.toRequest.given.map fun entry => (entry.1.text, entry.2))).outcome .unknown =
          .error (.badOption "wkst" (.badWeekday (.int 9))) :=
  ⟨_, rfl, rfl, rfl, rfl⟩

end Rule

end HijriRecurrence
