import HijriRecurrence.Proofs.Civil.DayNumber
import HijriRecurrence.Proofs.RuleText.PartValues
import HijriRecurrence.Proofs.RuleText.TimeZone

/-!
# Options that are read from a text

Weekdays that are read are days of the week (`RuleOptions.withinWeek_of_parts`).

Options fit their text (`RuleOptions.FitsText`) when everything in them comes back from it: what is
on the line of the first date, and every entry of the rule line.  The options that a request asks
for fit when its values were given by the parts of a rule line and its first date is a short one
(`RuleOptions.fitsText_of_ofRequest`).  Where no first date is given, rules start today; so today has
to have a year of four digits in either calendar (`Context.IsCurrent`).
-/

namespace HijriRecurrence

open Text RuleText

/-- Today is a date, and the host, if it knows today, has a year of four digits at most for it. -/
structure Context.IsCurrent (ctx : Context) : Prop where
  valid : ctx.today.Valid
  host : ∀ day, ctx.host ctx.today = .ok day → day.year ≤ 9999

variable {ctx : Context} {answers : Answers}

/-! ### Today -/

/-- The tabular calendar counts fewer than ten thousand years up to the last civil date. -/
theorem Tabular.year_of_ofCivil {g : CivilDate} (hg : g.Valid) {day : LunarDay}
    (h : Tabular.ofCivil g = .ok day) : day.year ≤ 9999 := by
  have hlast := (CivilDate.dayNumber_bounds_of_valid hg).2
  have hposition : ∀ remaining : Int, (yearOffsets.takeWhile (· ≤ remaining)).length ≤ 30 := by
    intro remaining
    exact (List.takeWhile_sublist _).length_le
  have hyears := hposition ((g.dayNumber - epoch) % cycleDays)
  unfold Tabular.ofCivil ofDayNumber at h
  dsimp only at h
  split at h
  · cases h
  · obtain rfl := Except.ok.inj h
    unfold lastCivilOrdinal civilEpoch at hlast
    unfold epoch cycleDays cycleYears at *
    dsimp only
    omega

/-- Today has a year of four digits at most, whatever the calendar. -/
theorem Context.IsCurrent.year_le (h : ctx.IsCurrent) {variant : Variant} {d : LunarDate}
    (hd : (LunarDate.today ctx (some (.known variant))).outcome answers = .ok d) :
    d.year ≤ 9999 := by
  obtain ⟨v, -, hd⟩ := Calculation.outcome_bind_eq_ok.1 hd
  obtain ⟨cal, hcal, hd⟩ := Calculation.outcome_bind_eq_ok.1 hd
  obtain ⟨day, hday, hd⟩ := Calculation.outcome_bind_eq_ok.1 hd
  rw [Calculation.outcome_liftM] at hday
  obtain ⟨rfl, -⟩ := LunarDate.build_eq_ok.1 hd
  unfold Context.serve at hcal
  split at hcal
  · obtain rfl := Except.ok.inj hcal
    exact Tabular.year_of_ofCivil h.valid hday
  · obtain rfl := Except.ok.inj hcal
    have hhost : Observed.ofCivil ctx.host ctx.today = .ok day := hday
    unfold Observed.ofCivil at hhost
    split at hhost
    · rename_i found hfound
      obtain rfl := Except.ok.inj hhost
      exact h.host _ hfound
    · cases hhost

namespace RuleText

theorem IsShortDate.builtValue {value : Value}
    (h : value = .null ∨ IsShortDate ctx answers value) :
    LunarDate.BuiltValue ctx answers value := by
  rintro d rfl
  rcases h with hnull | ⟨e, he, hbuilt, -⟩
  · cases hnull
  · obtain rfl := Value.lunar.inj he
    exact hbuilt

end RuleText

namespace RuleOptions

variable {name : OptionName} {value : Value} {variant : Variant} {r : Request}

/-! ### Reading values that were given by parts -/

/-- A date keeps its year in any calendar. -/
theorem year_of_readDate {given d : LunarDate}
    (h : (readDate ctx name (.lunar given) variant).outcome answers = .ok d) :
    d.year = given.year := by
  have hfail (e : Error) (d : LunarDate) : (if e.kind.isInvalidInput then
      throw (Error.badOption name.text e) else throw e : Calculation LunarDate).outcome answers ≠
        .ok d := by
    split <;> simp
  have hd := (Calculation.outcome_tryCatch_eq_ok hfail).1 h
  unfold LunarDate.ofValue at hd
  dsimp only at hd
  split at hd
  · obtain rfl := Except.ok.inj hd
    rfl
  · obtain ⟨rfl, -⟩ := LunarDate.build_eq_ok.1 hd
    rfl

theorem year_of_readStart (hctx : ctx.IsCurrent)
    (hvalue : value = .null ∨ IsShortDate ctx answers value) {d : LunarDate}
    (h : (readStart ctx value variant).outcome answers = .ok d) : d.year ≤ 9999 := by
  rcases hvalue with rfl | ⟨given, rfl, -, hyear⟩
  · exact hctx.year_le h
  · have hsame := year_of_readDate h
    omega

theorem year_of_readLast (hvalue : value = .null ∨ IsShortDate ctx answers value)
    {last : Option LunarDate} (h : (readLast ctx value variant).outcome answers = .ok last) :
    ∀ d ∈ last, d.year ≤ 9999 := by
  intro d hd
  rcases hvalue with rfl | ⟨given, rfl, -, hyear⟩
  · obtain rfl := Except.ok.inj h
    cases hd
  · unfold readLast at h
    dsimp only at h
    rw [← bind_pure_comp] at h
    obtain ⟨e, he, h⟩ := Calculation.outcome_bind_eq_ok.1 h
    obtain rfl := Except.ok.inj h
    obtain rfl := Option.some.inj hd
    have hsame := year_of_readDate he
    omega

theorem hasRoomFor_of_readInterval {option : OptionName}
    (hvalue : value = .null ∨ (PartForm.integer option).Gives ctx answers value) {n : Int}
    (h : readInterval value = .ok n) : hasRoomFor ctx.digitLimit n = true := by
  rcases hvalue with rfl | ⟨given, rfl, hroom⟩
  · obtain rfl := Except.ok.inj h
    exact hasRoomFor_of_lt _ (by decide)
  · unfold readInterval at h
    dsimp only at h
    split at h
    · cases h
    · obtain rfl := Except.ok.inj h
      exact hroom

theorem hasRoomFor_of_readCount {option : OptionName}
    (hvalue : value = .null ∨ (PartForm.integer option).Gives ctx answers value)
    {count : Option Int} (h : readCount value = .ok count) :
    ∀ n ∈ count, hasRoomFor ctx.digitLimit n = true := by
  intro n hn
  rcases hvalue with rfl | ⟨given, rfl, hroom⟩
  · obtain rfl := Except.ok.inj h
    cases hn
  · unfold readCount at h
    dsimp only at h
    split at h
    · cases h
    · obtain rfl := Except.ok.inj h
      obtain rfl := Option.some.inj hn
      exact hroom

theorem hasRoomFor_of_mem_readInts {option : OptionName} {bounds : Bounds}
    (hvalue : value = .null ∨ (PartForm.integers option).Gives ctx answers value)
    {ns : List Int} (h : IntsAreReadAs ctx answers name bounds value ns) :
    ∀ n ∈ ns, hasRoomFor ctx.digitLimit n = true := by
  intro n hn
  obtain ⟨items, hitems, h⟩ := h
  have hmem : .int n ∈ items := (readItems_eq_ok.1 h).1 ▸ List.mem_map_of_mem hn
  rcases hvalue with rfl | ⟨given, rfl, hroom⟩
  · obtain rfl := Except.ok.inj hitems
    exact absurd hmem List.not_mem_nil
  · obtain rfl := Except.ok.inj hitems
    obtain ⟨m, hm, heq⟩ := List.mem_map.1 hmem
    obtain rfl := Value.int.inj heq
    exact hroom m hm

theorem fits_of_mem_readWeekdays
    (hvalue : value = .null ∨ PartForm.weekdays.Gives ctx answers value) {ws : List Weekday}
    (h : WeekdaysAreReadAs ctx answers value ws) : ∀ w ∈ ws, w.Fits := by
  rcases hvalue with rfl | ⟨given, rfl, hfits⟩
  · obtain rfl : ws = [] := (weekdaysAreReadAs_iff rfl).1 h
    exact fun w hw => absurd hw List.not_mem_nil
  · obtain rfl : ws = given := (weekdaysAreReadAs_iff rfl).1 h
    exact fun w hw => (hfits w hw).2.2

theorem proper_of_mem_items (hvalue : value = .null ∨ PartForm.weekdays.Gives ctx answers value)
    {items : List Value} (h : (ctx.items value).outcome answers = .ok items) {w : Weekday}
    (hw : .weekday w ∈ items) : IsWeekday w.number ∧ w.Proper := by
  rcases hvalue with rfl | ⟨given, rfl, hgiven⟩
  · obtain rfl := Except.ok.inj h
    exact absurd hw List.not_mem_nil
  · obtain rfl := Except.ok.inj h
    obtain ⟨v, hv, heq⟩ := List.mem_map.1 hw
    obtain rfl := Value.weekday.inj heq
    exact ⟨(hgiven v hv).1, (hgiven v hv).2.1⟩

/-! ### Options -/

/-- **Weekdays that parts give are days of the week.** -/
theorem withinWeek_of_parts {o : RuleOptions} {line : Request}
    (hline : GivenByParts ctx answers line)
    (hweekStart : r.value .weekStart = line.value .weekStart)
    (hweekdays : r.value .weekdays = line.value .weekdays)
    (h : (ofRequest ctx r).outcome answers = .ok o) : o.WithinWeek := by
  have hstart : line.value .weekStart = .null ∨ ∃ n, line.value .weekStart = .int n :=
    @GivenByParts.gives _ _ _ hline .weekStart .weekStart (by decide)
  have hdays : line.value .weekdays = .null ∨
      PartForm.weekdays.Gives ctx answers (line.value .weekdays) := hline.gives (by decide)
  refine (withinWeek_iff_of_ofRequest h).2
    ⟨fun w hw => ?_, fun items hitems w hw => (proper_of_mem_items hdays ?_ hw).1⟩
  · rw [hweekStart] at hw
    rcases hstart with hnull | ⟨n, hn⟩
    · cases hnull.symm.trans hw
    · cases hn.symm.trans hw
  · rw [← hweekdays]
    exact hitems

/-- Canonical options that come back from their text: their weekdays are days of the week, the year
of the first date has four digits at most, every entry fits, and the time zone can stand alone
between semicolons. -/
structure FitsText (ctx : Context) (answers : Answers) (o : RuleOptions) : Prop
    extends Canonical ctx answers o where
  withinWeek : o.WithinWeek
  start_year : o.start.year ≤ 9999
  entries_fit : ∀ e ∈ o.entries ctx.digitLimit, e.fits
  zone_isField : ∀ s, o.timeZone = .str s → IsField s.toList

/-- **Options that a request asks for fit their text** when its first date is short, or today, and
all other values but the calendar were given by the parts of a rule line. -/
theorem fitsText_of_ofRequest (hctx : ctx.IsCurrent) {o : RuleOptions}
    (hstart : r.value .start = .null ∨ IsShortDate ctx answers (r.value .start))
    {line : Request} (hline : GivenByParts ctx answers line) (hzone : line.ZoneIsField)
    (hsame : ∀ name, name ≠ .start → name ≠ .calendar → r.value name = line.value name)
    (h : (ofRequest ctx r).outcome answers = .ok o) : o.FitsText ctx answers := by
  have hgives (name : OptionName) (form : PartForm) (hs : name ≠ .start) (hc : name ≠ .calendar)
      (hform : ∀ entry ∈ partForms, entry.2.option = name → entry.2 = form) :
      r.value name = .null ∨ form.Gives ctx answers (r.value name) := by
    rw [hsame name hs hc]
    exact hline.gives hform
  have hlast : r.value .last = .null ∨ IsShortDate ctx answers (r.value .last) :=
    hgives .last .lastDate (by decide) (by decide) (by decide)
  have hweekdays := hgives .weekdays .weekdays (by decide) (by decide) (by decide)
  have hcanonical : o.Canonical ctx answers := by
    refine canonical_of_ofRequest (IsShortDate.builtValue hstart) (IsShortDate.builtValue hlast)
      (fun items hitems w hw => (proper_of_mem_items hweekdays hitems hw).2) ?_ h
    exact hgives .timeZone .timeZone (by decide) (by decide) (by decide)
  have hfield : ∀ s, o.timeZone = .str s → IsField s.toList := by
    intro s hs
    rcases timeZone_of_ofRequest h with hnull | hgiven
    · rw [hnull] at hs
      cases hs
    · rw [hgiven, hsame .timeZone (by decide) (by decide)] at hs
      exact hzone s hs
  have hwithin : o.WithinWeek := withinWeek_of_parts hline
    (hsame .weekStart (by decide) (by decide)) (hsame .weekdays (by decide) (by decide)) h
  have hread := outcome_ofRequest_eq_ok.1 h
  obtain ⟨weekdays, hreadWeekdays, hplain, hnth⟩ := hread .weekdays
  refine ⟨hcanonical, hwithin, year_of_readStart hctx hstart (hread .start), ?_, hfield⟩
  refine (forall_fits_iff hcanonical.toNormalized).2
    ⟨year_of_readLast hlast (hread .last), fun w hw => ?_, fun n hn => ?_⟩
  · refine fits_of_mem_readWeekdays hweekdays hreadWeekdays w ?_
    exact (mem_allWeekdays_of_filter hplain hnth w).1 hw
  · rcases List.mem_cons.1 hn with rfl | hn
    · exact hasRoomFor_of_readInterval
        (hgives .interval (.integer .interval) (by decide) (by decide) (by decide))
        (hread .interval)
    · rcases List.mem_append.1 hn with hn | hn
      · exact hasRoomFor_of_readCount
          (hgives .count (.integer .count) (by decide) (by decide) (by decide)) (hread .count) n
          (Option.mem_toList.1 hn)
      · exact hasRoomFor_of_mem_readInts
          (hgives .weekNumbers (.integers .weekNumbers) (by decide) (by decide) (by decide))
          (hread .weekNumbers) n hn

end RuleOptions

end HijriRecurrence
