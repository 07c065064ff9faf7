import HijriRecurrence.Proofs.Lunar.RuleChars
import HijriRecurrence.Proofs.Rule.Canonical
import HijriRecurrence.Proofs.RuleText.Lists
import HijriRecurrence.Proofs.RuleText.Parts

/-!
# The entries of a rule

The parts of a rule line are the entries of its options (`map_part_entries`): each option that
differs from its usual value has one (`entryOf`).  For canonical options whose time zone can stand
alone between semicolons, every entry is well-formed (`wellFormed_of_entryOf`).  Within the week, its
text is read as its value exactly when it fits (`reads_of_entryOf`): the year of the last date, the
ordinals of weekdays and the numbers without bounds can be too long.
-/

namespace HijriRecurrence

open Text RuleText

variable {ctx : Context} {answers : Answers} {limit : Option DigitLimit} {o : RuleOptions}

namespace RuleOptions

/-- The entry of a list of integers; an empty list has none. -/
def integersEntry (limit : Option DigitLimit) (name : String) (option : OptionName)
    (ns : List Int) : Option Entry :=
  if ns.isEmpty then none
  else some
    { name, form := .integers option, text := integersText ns, value := .list (ns.map .int)
      fits := ∀ n ∈ ns, hasRoomFor limit n = true }

/-- The entry of an option; an option that has its usual value, or that stands on the line of the
first date, has none. -/
def entryOf (limit : Option DigitLimit) (o : RuleOptions) : OptionName → Option Entry
  | .frequency => some
      { name := "FREQ", form := .frequency, text := o.frequency.name.toList
        value := .int o.frequency.number }
  | .interval =>
    if o.interval = 1 then none
    else some
      { name := "INTERVAL", form := .integer .interval, text := integer o.interval
        value := .int o.interval, fits := hasRoomFor limit o.interval = true }
  | .weekStart =>
    if o.weekStart = 6 then none
    else some
      { name := "WKST", form := .weekStart, text := (weekdayCode o.weekStart).toList
        value := .int o.weekStart }
  | .count => o.count.map fun n =>
      { name := "COUNT", form := .integer .count, text := integer n, value := .int n
        fits := hasRoomFor limit n = true }
  | .last => o.last.map fun d =>
      { name := "UNTIL", form := .lastDate, text := d.ruleChars, value := .lunar d
        fits := d.year ≤ 9999 }
  | .positions => integersEntry limit "BYSETPOS" .positions o.positions
  | .months => integersEntry limit "BYMONTH" .months o.months
  | .monthDays => integersEntry limit "BYMONTHDAY" .monthDays o.allMonthDays
  | .yearDays => integersEntry limit "BYYEARDAY" .yearDays o.yearDays
  | .weekNumbers => integersEntry limit "BYWEEKNO" .weekNumbers o.weekNumbers
  | .weekdays =>
    if o.allWeekdays.isEmpty then none
    else some
      { name := "BYDAY", form := .weekdays, text := weekdaysText o.allWeekdays
        value := .list (o.allWeekdays.map .weekday), fits := ∀ w ∈ o.allWeekdays, w.Fits }
  | .hours => integersEntry limit "BYHOUR" .hours o.hours
  | .minutes => integersEntry limit "BYMINUTE" .minutes o.minutes
  | .seconds => integersEntry limit "BYSECOND" .seconds o.seconds
  | .timeZone =>
    if o.timeZone.truthy then some
      { name := "TZID", form := .timeZone, text := o.timeZone.plain.toList, value := o.timeZone }
    else none
  | .skip =>
    if o.skip = .omit then none
    else some
      { name := "SKIP", form := .skip, text := o.skip.ruleName.toList, value := .str o.skip.name }
  | .start => none
  | .calendar => none

/-- The options in the order of their parts. -/
def partOrder : List OptionName :=
  [.frequency, .interval, .weekStart, .count, .last, .positions, .months, .monthDays, .yearDays,
   .weekNumbers, .weekdays, .hours, .minutes, .seconds, .timeZone, .skip]

def entries (limit : Option DigitLimit) (o : RuleOptions) : List Entry :=
  partOrder.filterMap (o.entryOf limit)

theorem map_part_integersEntry {name : String} {option : OptionName} {ns : List Int} :
    ((integersEntry limit name option ns).map (·.part)).toList =
      optionalPart name (integersText ns) := by
  unfold integersEntry optionalPart
  cases ns with
  | nil => rfl
  | cons n rest =>
    have hne : integersText (n :: rest) ≠ [] := integersText_ne_nil (List.cons_ne_nil n rest)
    simp [hne, Entry.part]

/-- **The parts of a rule line are the entries of the rule.** -/
theorem map_part_entries (limit : Option DigitLimit) (o : RuleOptions) :
    (o.entries limit).map (·.part) = o.parts := by
  have hweekdays : ∀ ws : List Weekday, (weekdaysText ws).isEmpty = ws.isEmpty := by
    intro ws
    cases ws with
    | nil => rfl
    | cons w rest => simp [weekdaysText_ne_nil]
  rw [entries, List.map_filterMap, List.filterMap_eq_flatMap_toList]
  simp only [partOrder, List.flatMap_cons, List.flatMap_nil, entryOf, map_part_integersEntry, parts,
    List.append_nil, List.append_assoc, apply_ite (Option.map _), apply_ite Option.toList,
    Option.map_some, Option.map_none, Option.toList_some, Option.toList_none, Option.map_map]
  simp only [Entry.part, optionalPart, hweekdays]
  cases o.count <;> cases o.last <;> cases o.skip <;> rfl

/-- An entry is about the option that it is the entry of. -/
theorem option_of_entryOf {name : OptionName} {e : Entry} (h : o.entryOf limit name = some e) :
    e.form.option = name := by
  cases name <;>
    simp only [entryOf, integersEntry, Option.map_eq_some_iff, Option.ite_none_left_eq_some,
      Option.ite_none_right_eq_some] at h <;>
    grind [PartForm.option]

/-! ### Form -/

/-- The texts of fixed words are fields. -/
theorem isField_frequencyName (f : Frequency) : IsField f.name.toList ∧ f.name.toList ≠ [] := by
  refine ⟨isField_of_solid ?_, ?_⟩ <;> cases f <;> decide

theorem isField_weekdayCode (n : Int) :
    IsField (weekdayCode n).toList ∧ (weekdayCode n).toList ≠ [] := by
  have hday : ∀ day : Fin 7, (∀ c ∈ (weekdayCode day.val).toList, isSolid c = true) ∧
      (weekdayCode day.val).toList ≠ [] := by decide
  exact Weekday.forall_weekdayCode (P := fun _ code => IsField code ∧ code ≠ [])
    (fun day => ⟨isField_of_solid (hday day).1, (hday day).2⟩) n

theorem isField_skipName (s : Skip) : IsField s.ruleName.toList ∧ s.ruleName.toList ≠ [] := by
  refine ⟨isField_of_solid ?_, ?_⟩ <;> cases s <;> decide

theorem isField_integer (n : Int) : IsField (integer n) :=
  isField_of_solid (forall_mem_integer (by decide) (by decide) n)

theorem wellFormed_of_integersEntry {name : String} {option : OptionName} {ns : List Int}
    {e : Entry} (hname : partForm? name.toList = some (.integers option))
    (he : integersEntry limit name option ns = some e) : e.WellFormed := by
  rw [integersEntry, Option.ite_none_left_eq_some] at he
  obtain ⟨hne, he⟩ := he
  obtain rfl := Option.some.inj he
  exact ⟨hname, isField_integersText ns, integersText_ne_nil (by simpa using hne)⟩

/-- **Every entry is well-formed**, when the time zone can stand alone between semicolons. -/
theorem wellFormed_of_entryOf (h : o.Canonical ctx answers)
    (hzone : ∀ s, o.timeZone = .str s → IsField s.toList) {name : OptionName} {e : Entry}
    (he : o.entryOf limit name = some e) : e.WellFormed := by
  cases name with
  | frequency =>
    obtain rfl := Option.some.inj he
    obtain ⟨hfield, hne⟩ := isField_frequencyName o.frequency
    have hknown : partForm? "FREQ".toList = some .frequency := by decide
    exact ⟨hknown, hfield, hne⟩
  | interval =>
    rw [entryOf, Option.ite_none_left_eq_some] at he
    obtain rfl := Option.some.inj he.2
    have hknown : partForm? "INTERVAL".toList = some (.integer .interval) := by decide
    exact ⟨hknown, isField_integer _, integer_ne_nil _⟩
  | weekStart =>
    rw [entryOf, Option.ite_none_left_eq_some] at he
    obtain rfl := Option.some.inj he.2
    obtain ⟨hfield, hne⟩ := isField_weekdayCode o.weekStart
    have hknown : partForm? "WKST".toList = some .weekStart := by decide
    exact ⟨hknown, hfield, hne⟩
  | count =>
    obtain ⟨n, -, rfl⟩ := Option.map_eq_some_iff.1 he
    have hknown : partForm? "COUNT".toList = some (.integer .count) := by decide
    exact ⟨hknown, isField_integer n, integer_ne_nil n⟩
  | last =>
    obtain ⟨d, hd, rfl⟩ := Option.map_eq_some_iff.1 he
    have hrange := (h.last d hd).1.inRange
    have hknown : partForm? "UNTIL".toList = some .lastDate := by decide
    exact ⟨hknown, LunarDate.isField_ruleChars hrange, LunarDate.ruleChars_ne_nil hrange⟩
  | weekdays =>
    rw [entryOf, Option.ite_none_left_eq_some] at he
    obtain ⟨hne, he⟩ := he
    obtain rfl := Option.some.inj he
    have hknown : partForm? "BYDAY".toList = some .weekdays := by decide
    exact ⟨hknown, isField_weekdaysText _, weekdaysText_ne_nil (by simpa using hne)⟩
  | timeZone =>
    rw [entryOf, Option.ite_none_right_eq_some] at he
    obtain ⟨htruthy, he⟩ := he
    obtain rfl := Option.some.inj he
    rcases h.timeZone with hnull | ⟨s, hs, hzone'⟩
    · rw [hnull] at htruthy
      cases htruthy
    · have hknown : partForm? "TZID".toList = some .timeZone := by decide
      refine ⟨hknown, ?_, ?_⟩
      · rw [hzone']
        exact hzone s hzone'
      · rw [hzone']
        simpa [Value.plain] using hs
  | skip =>
    rw [entryOf, Option.ite_none_left_eq_some] at he
    obtain rfl := Option.some.inj he.2
    obtain ⟨hfield, hne⟩ := isField_skipName o.skip
    have hknown : partForm? "SKIP".toList = some .skip := by decide
    exact ⟨hknown, hfield, hne⟩
  | positions | months | monthDays | yearDays | weekNumbers | hours | minutes | seconds =>
    exact wellFormed_of_integersEntry (by decide) he
  | start | calendar => cases he

/-! ### Reading -/

theorem reads_of_integersEntry {calendar : Option CalendarName} {name : String}
    {option : OptionName} {ns : List Int} {e : Entry}
    (he : integersEntry ctx.digitLimit name option ns = some e) :
    e.Reads ctx answers calendar := by
  rw [integersEntry, Option.ite_none_left_eq_some] at he
  obtain ⟨hne, he⟩ := he
  obtain rfl := Option.some.inj he
  intro refusal v
  refine (outcome_orRefuse _ _).trans ?_
  rw [Option.map_eq_some_iff]
  constructor
  · rintro ⟨back, hback, rfl⟩
    obtain ⟨rfl, hall⟩ := (readIntegers?_integersText_eq_some (by simpa using hne)).1 hback
    exact ⟨hall, rfl⟩
  · rintro ⟨hall, rfl⟩
    exact ⟨ns, (readIntegers?_integersText_eq_some (by simpa using hne)).2 ⟨rfl, hall⟩, rfl⟩

theorem reads_integer {calendar : Option CalendarName} {name : String} {option : OptionName}
    {n : Int} :
    Entry.Reads ctx answers calendar
      { name, form := .integer option, text := integer n, value := .int n
        fits := hasRoomFor ctx.digitLimit n = true } := by
  intro refusal v
  refine (outcome_orRefuse _ _).trans ?_
  rw [readInt?_integer]
  split <;> simp [*]

theorem reads_lastDate {d : LunarDate} {variant : Variant} (hbuilt : d.Built ctx answers)
    (hvariant : d.variant = variant) :
    Entry.Reads ctx answers (some (.known variant))
      { name := "UNTIL", form := .lastDate, text := d.ruleChars, value := .lunar d
        fits := d.year ≤ 9999 } := by
  intro refusal v
  rw [← hvariant]
  show (Value.lunar <$> LunarDate.ofRuleChars ctx d.ruleChars _).outcome answers = _ ↔ _
  rw [← bind_pure_comp, Calculation.outcome_bind_eq_ok]
  constructor
  · rintro ⟨e, he, hv⟩
    obtain ⟨rfl, hyear⟩ := (LunarDate.ofRuleChars_ruleChars_eq_ok hbuilt).1 he
    exact ⟨hyear, Except.ok.inj hv⟩
  · rintro ⟨hyear, rfl⟩
    exact ⟨d, (LunarDate.ofRuleChars_ruleChars_eq_ok hbuilt).2 ⟨rfl, hyear⟩, rfl⟩

theorem reads_weekdays {calendar : Option CalendarName} {ws : List Weekday}
    (hdays : ∀ w ∈ ws, IsWeekday w.number) (hproper : ∀ w ∈ ws, w.Proper) (hne : ws ≠ []) :
    Entry.Reads ctx answers calendar
      { name := "BYDAY", form := .weekdays, text := weekdaysText ws
        value := .list (ws.map .weekday), fits := ∀ w ∈ ws, w.Fits } := by
  have hread {back : List Weekday} :
      readWeekdayTokens (splitOn ',' (weekdaysText ws)) = .ok back ↔
        back = ws ∧ ∀ w ∈ ws, w.Fits := readWeekdayTokens_weekdaysText_eq_ok hdays hproper hne
  intro refusal v
  simp only [readForm]
  rw [Calculation.outcome_bind_eq_ok]
  constructor
  · rintro ⟨back, hback, hv⟩
    rw [Calculation.outcome_liftM] at hback
    obtain ⟨rfl, hall⟩ := hread.1 hback
    exact ⟨hall, Except.ok.inj hv⟩
  · rintro ⟨hall, rfl⟩
    refine ⟨ws, ?_, rfl⟩
    rw [Calculation.outcome_liftM]
    exact hread.2 ⟨rfl, hall⟩

/-- **The text of every entry is read as its value, exactly when it fits.** -/
theorem reads_of_entryOf (h : o.Canonical ctx answers) (hdays : o.WithinWeek) {name : OptionName}
    {e : Entry} (he : o.entryOf ctx.digitLimit name = some e) :
    e.Reads ctx answers (some (.known o.variant)) := by
  cases name with
  | frequency =>
    obtain rfl := Option.some.inj he
    intro refusal v
    refine (outcome_orRefuse _ _).trans ?_
    have hfind : ∀ f : Frequency,
        (Frequency.all.find? fun g => g.name.toList = upper f.name.toList) = some f := by
      intro f
      cases f <;> decide
    simp [hfind]
  | interval =>
    rw [entryOf, Option.ite_none_left_eq_some] at he
    obtain rfl := Option.some.inj he.2
    exact reads_integer
  | weekStart =>
    rw [entryOf, Option.ite_none_left_eq_some] at he
    obtain rfl := Option.some.inj he.2
    intro refusal v
    refine (outcome_orRefuse _ _).trans ?_
    obtain ⟨-, hupper, day, hnumber, hday⟩ :=
      Weekday.isCodeOf_code (w := ⟨o.weekStart, none⟩) hdays.weekStart
    have hread : Weekday.dayOfCode? (upper (weekdayCode o.weekStart).toList) = some day :=
      hupper.symm ▸ hday
    rw [hread, Option.map_some, hnumber]
    simp
  | count =>
    obtain ⟨n, -, rfl⟩ := Option.map_eq_some_iff.1 he
    exact reads_integer
  | last =>
    obtain ⟨d, hd, rfl⟩ := Option.map_eq_some_iff.1 he
    exact reads_lastDate (h.last d hd).1 (h.last d hd).2
  | weekdays =>
    rw [entryOf, Option.ite_none_left_eq_some] at he
    obtain ⟨hne, he⟩ := he
    obtain rfl := Option.some.inj he
    exact reads_weekdays hdays.weekdays h.proper (by simpa using hne)
  | timeZone =>
    rw [entryOf, Option.ite_none_right_eq_some] at he
    obtain ⟨htruthy, he⟩ := he
    obtain rfl := Option.some.inj he
    rcases h.timeZone with hnull | ⟨s, -, hzone⟩
    · rw [hnull] at htruthy
      cases htruthy
    · intro refusal v
      simp [readForm, hzone, Value.plain]
  | skip =>
    rw [entryOf, Option.ite_none_left_eq_some] at he
    obtain rfl := Option.some.inj he.2
    intro refusal v
    refine (outcome_orRefuse _ _).trans ?_
    have hfind : ∀ s : Skip,
        (Skip.all.find? fun t => t.name.toList = lower s.ruleName.toList) = some s := by
      intro s
      cases s <;> decide
    simp [hfind]
  | positions | months | monthDays | yearDays | weekNumbers | hours | minutes | seconds =>
    exact reads_of_integersEntry he
  | start | calendar => cases he

/-! ### What has to fit -/

/-- The numbers of a rule that have no greatest value. -/
def unbounded (o : RuleOptions) : List Int := o.interval :: (o.count.toList ++ o.weekNumbers)

theorem fits_of_integersEntry {name : String} {option : OptionName} {ns : List Int} {e : Entry}
    (hall : ∀ n ∈ ns, hasRoomFor limit n = true)
    (he : integersEntry limit name option ns = some e) : e.fits := by
  rw [integersEntry, Option.ite_none_left_eq_some] at he
  obtain rfl := Option.some.inj he.2
  exact hall

theorem fits_of_entryOf (h : o.Normalized ctx answers) (hlast : ∀ d ∈ o.last, d.year ≤ 9999)
    (hordinals : ∀ w ∈ o.allWeekdays, w.Fits)
    (hunbounded : ∀ n ∈ o.unbounded, hasRoomFor limit n = true) {name : OptionName} {e : Entry}
    (he : o.entryOf limit name = some e) : e.fits := by
  have hsmall {ns : List Int} (hns : ∀ n ∈ ns, -366 ≤ n ∧ n ≤ 366) :
      ∀ n ∈ ns, hasRoomFor limit n = true := by
    intro n hn
    have := hns n hn
    exact hasRoomFor_of_lt limit (by omega)
  cases name with
  | frequency =>
    obtain rfl := Option.some.inj he
    trivial
  | interval =>
    rw [entryOf, Option.ite_none_left_eq_some] at he
    obtain rfl := Option.some.inj he.2
    exact hunbounded _ List.mem_cons_self
  | weekStart | skip =>
    rw [entryOf, Option.ite_none_left_eq_some] at he
    obtain rfl := Option.some.inj he.2
    trivial
  | count =>
    obtain ⟨n, hn, rfl⟩ := Option.map_eq_some_iff.1 he
    exact hunbounded n (List.mem_cons_of_mem _ (by simp [hn]))
  | last =>
    obtain ⟨d, hd, rfl⟩ := Option.map_eq_some_iff.1 he
    exact hlast d hd
  | weekdays =>
    rw [entryOf, Option.ite_none_left_eq_some] at he
    obtain rfl := Option.some.inj he.2
    exact hordinals
  | timeZone =>
    rw [entryOf, Option.ite_none_right_eq_some] at he
    obtain rfl := Option.some.inj he.2
    trivial
  | weekNumbers =>
    exact fits_of_integersEntry (fun n hn => hunbounded n (by simp [unbounded, hn])) he
  | positions => exact fits_of_integersEntry (hsmall fun n hn => (h.positions n hn).1) he
  | months =>
    exact fits_of_integersEntry (hsmall fun n hn => by have := h.months n hn; omega) he
  | monthDays =>
    refine fits_of_integersEntry (hsmall fun n hn => ?_) he
    have hrange : (1 ≤ n ∧ n ≤ 30) ∨ (-30 ≤ n ∧ n ≤ -1) :=
      (List.mem_append.1 hn).imp (h.monthDays n) (h.monthDaysFromEnd n)
    omega
  | yearDays =>
    exact fits_of_integersEntry (hsmall fun n hn => by have := h.yearDays n hn; omega) he
  | hours => exact fits_of_integersEntry (hsmall fun n hn => by have := h.hours n hn; omega) he
  | minutes =>
    exact fits_of_integersEntry (hsmall fun n hn => by have := h.minutes n hn; omega) he
  | seconds =>
    exact fits_of_integersEntry (hsmall fun n hn => by have := h.seconds n hn; omega) he
  | start | calendar => cases he

/-- **All entries fit exactly when** the year of the last date, the ordinals of weekdays and the
numbers without a greatest value do: every other number has three digits at most. -/
theorem forall_fits_iff (h : o.Normalized ctx answers) :
    (∀ e ∈ o.entries limit, e.fits) ↔
      (∀ d ∈ o.last, d.year ≤ 9999) ∧ (∀ w ∈ o.allWeekdays, w.Fits) ∧
        ∀ n ∈ o.unbounded, hasRoomFor limit n = true := by
  have hentries : (∀ e ∈ o.entries limit, e.fits) ↔
      ∀ name e, o.entryOf limit name = some e → e.fits := by
    constructor
    · intro hall name e he
      refine hall e (List.mem_filterMap.2 ⟨name, ?_, he⟩)
      cases name <;> first | decide | cases he
    · intro hall e he
      obtain ⟨name, -, hname⟩ := List.mem_filterMap.1 he
      exact hall name e hname
  rw [hentries]
  constructor
  · intro hall
    refine ⟨fun d hd => ?_, fun w hw => ?_, ?_⟩
    · exact hall .last _ (Option.map_eq_some_iff.2 ⟨d, hd, rfl⟩)
    · have hne : ¬o.allWeekdays.isEmpty = true := by
        rw [List.isEmpty_iff]
        exact List.ne_nil_of_mem hw
      exact hall .weekdays _ (if_neg hne) w hw
    · intro n hn
      rcases List.mem_cons.1 hn with rfl | hn
      · by_cases hone : o.interval = 1
        · exact hasRoomFor_of_lt limit (by omega)
        · exact hall .interval _ (if_neg hone)
      · rcases List.mem_append.1 hn with hn | hn
        · exact hall .count _ (Option.map_eq_some_iff.2 ⟨n, Option.mem_toList.1 hn, rfl⟩)
        · have hne : ¬o.weekNumbers.isEmpty = true := by
            rw [List.isEmpty_iff]
            exact List.ne_nil_of_mem hn
          exact hall .weekNumbers _ (if_neg hne) n hn
  · rintro ⟨hlast, hordinals, hunbounded⟩ name e he
    exact fits_of_entryOf h hlast hordinals hunbounded he

end RuleOptions

end HijriRecurrence
