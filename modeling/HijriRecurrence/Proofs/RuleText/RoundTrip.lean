import HijriRecurrence.Proofs.RuleText.LineKinds
import HijriRecurrence.Proofs.RuleText.ReadOptions

/-!
# Rules read back from their text

The text of a rule is a line for its first date, which names the calendar, and a line of entries.
Both are found again as lines, and each is read as what it was written for, or not at all:

* `readDateLine_startLine_eq_ok` — the first date, when its year has four digits at most;
* `readRuleLine_ruleLine_eq_ok` — the request that the entries make, when all of them fit;
* `readRequest_textChars_eq_ok` — both together.

What is read asks for the options that were written, so that a rule comes back from its text exactly
when everything in it fits (`Rule.ofText_text_iff`).  Where the time zone or a weekday does not fit,
the text may well be read as some other rule; but no rule that is read has such a time zone, or such
a weekday.
-/

namespace HijriRecurrence

open Text RuleText

variable {ctx : Context} {answers : Answers} {limit : Option DigitLimit} {o : RuleOptions}

namespace RuleOptions

/-! ### The line of the first date -/

/-- The line of the first date has no blanks. -/
theorem isBlank_startLine (h : o.start.InRange) : ∀ c ∈ o.startLine, isBlank c = false := by
  have hfront : ∀ v : Variant, ∀ c ∈ "DTSTART;CALENDAR=".toList ++ v.parameter.toList,
      isBlank c = false := by
    intro v
    cases v <;> decide
  intro c hc
  rcases List.mem_append.1 hc with hc | hc
  · exact hfront o.variant c hc
  · rcases List.mem_cons.1 hc with rfl | hc
    · decide
    · exact LunarDate.forall_mem_ruleChars (P := (isBlank · = false)) (by decide) (by decide) h c hc

/-- A single date is read as the only one of its line. -/
theorem outcome_readDates {name : Option CalendarName} {text : List Char} (hne : text ≠ [])
    (htrim : trim text = text) {dates : List LunarDate} :
    (readDates ctx name [text]).outcome answers = .ok dates ↔
      ∃ d, (LunarDate.ofRuleChars ctx text name).outcome answers = .ok d ∧ [d] = dates := by
  have hnonempty : (trim text).isEmpty = false := by
    rw [htrim]
    simpa using hne
  rw [readDates, hnonempty]
  simp only [Bool.false_eq_true, if_false, Calculation.outcome_bind_eq_ok]
  constructor
  · rintro ⟨d, hd, ds, hds, hdates⟩
    obtain rfl := Except.ok.inj hds
    exact ⟨d, hd, Except.ok.inj hdates⟩
  · rintro ⟨d, hd, rfl⟩
    exact ⟨d, hd, [], rfl, rfl⟩

/-- **A line of one date in its compact form is read as this date**, when its parameters pin the
calendar that the date is read in and no time zone. -/
theorem readDateLine_ruleChars_eq_ok {front : List Char} (hfront : ':' ∉ front)
    {name calendar : Option CalendarName}
    (hparameters : readParameters (upper (trim ((splitOn ';' front).headD []))) name none
      (splitOn ';' front).tail = .ok (calendar, none))
    {d : LunarDate} (hd : d.InRange) {dateLine : DateLine} :
    (readDateLine ctx (front ++ ':' :: d.ruleChars) name).outcome answers = .ok dateLine ↔
      ∃ e, (LunarDate.ofRuleChars ctx d.ruleChars calendar).outcome answers = .ok e ∧
        DateLine.mk [e] calendar none = dateLine := by
  have hcomma : splitOn ',' d.ruleChars = [d.ruleChars] := by
    refine splitOn_of_not_mem fun hmem => ?_
    exact LunarDate.forall_mem_ruleChars (P := (· ≠ ',')) (by decide) (by decide) hd ',' hmem rfl
  have htrim := (LunarDate.isField_ruleChars hd).trimmed
  have hread {dates : List LunarDate} :
      (readDates ctx calendar [d.ruleChars]).outcome answers = .ok dates ↔
        ∃ e, (LunarDate.ofRuleChars ctx d.ruleChars calendar).outcome answers = .ok e ∧
          [e] = dates :=
    outcome_readDates (LunarDate.ruleChars_ne_nil hd) htrim
  have hfail (refusal e : Error) (dates : List LunarDate) :
      (if e.kind.isInvalidInput then throw refusal else throw e :
        Calculation (List LunarDate)).outcome answers ≠ .ok dates := by
    split <;> simp
  simp only [readDateLine, cutAt_append hfront, hparameters, htrim, hcomma]
  rw [Calculation.outcome_bind_ok (Calculation.outcome_liftM _)]
  simp only [Calculation.outcome_bind_eq_ok, Calculation.outcome_tryCatch_eq_ok (hfail _), hread]
  constructor
  · rintro ⟨dates, ⟨e, he, rfl⟩, hline⟩
    exact ⟨e, he, Except.ok.inj hline⟩
  · rintro ⟨e, he, rfl⟩
    exact ⟨[e], ⟨e, he, rfl⟩, rfl⟩

/-- What stands in front of the first date: the property, and the calendar as its parameter. -/
theorem readParameters_startLine (v : Variant) :
    ':' ∉ "DTSTART;CALENDAR=".toList ++ v.parameter.toList ∧
      readParameters (upper (trim ((splitOn ';'
        ("DTSTART;CALENDAR=".toList ++ v.parameter.toList)).headD []))) none none
        (splitOn ';' ("DTSTART;CALENDAR=".toList ++ v.parameter.toList)).tail =
          .ok (some (.known v), none) := by
  have hpieces : splitOn ';' ("DTSTART;CALENDAR=".toList ++ v.parameter.toList) =
      ["DTSTART".toList, "CALENDAR=".toList ++ v.parameter.toList] := by
    cases v <;> decide
  constructor
  · cases v <;> decide
  · rw [hpieces]
    cases v <;> rfl

/-- **The line of the first date is read back exactly when its year has four digits at most.** -/
theorem readDateLine_startLine_eq_ok (h : o.Canonical ctx answers) {dateLine : DateLine} :
    (readDateLine ctx o.startLine none).outcome answers = .ok dateLine ↔
      o.start.year ≤ 9999 ∧ DateLine.mk [o.start] (some (.known o.variant)) none = dateLine := by
  have hdate {e : LunarDate} :
      (LunarDate.ofRuleChars ctx o.start.ruleChars (some (.known o.variant))).outcome answers =
        .ok e ↔ e = o.start ∧ o.start.year ≤ 9999 := by
    rw [← h.start_variant]
    exact LunarDate.ofRuleChars_ruleChars_eq_ok h.start
  obtain ⟨hcolon, hparameters⟩ := readParameters_startLine o.variant
  unfold startLine
  generalize "DTSTART;CALENDAR=".toList ++ o.variant.parameter.toList = front
    at hcolon hparameters ⊢
  rw [readDateLine_ruleChars_eq_ok hcolon hparameters h.start.inRange]
  simp only [hdate]
  constructor
  · rintro ⟨e, ⟨rfl, hyear⟩, rfl⟩
    exact ⟨hyear, rfl⟩
  · rintro ⟨hyear, rfl⟩
    exact ⟨o.start, ⟨rfl, hyear⟩, rfl⟩

/-! ### The line of the rule -/

theorem ruleLine_eq (o : RuleOptions) : o.ruleLine = "RRULE".toList ++ ':' :: o.partsText := by
  have hname : "RRULE:".toList = "RRULE".toList ++ [':'] := by decide
  rw [ruleLine, hname, List.append_assoc, List.singleton_append]

theorem partsText_eq (o : RuleOptions) : o.partsText = joinWith [';'] o.parts := rfl

section Line

variable (h : o.Canonical ctx answers) (hzone : ∀ s, o.timeZone = .str s → IsField s.toList)
include h hzone

theorem wellFormed_of_mem_entries {e : Entry} (he : e ∈ o.entries limit) : e.WellFormed := by
  obtain ⟨name, -, hname⟩ := List.mem_filterMap.1 he
  exact wellFormed_of_entryOf h hzone hname

theorem isField_of_mem_parts {piece : List Char} (hpiece : piece ∈ o.parts) :
    IsField piece ∧ piece ≠ [] := by
  rw [← map_part_entries none] at hpiece
  obtain ⟨e, he, rfl⟩ := List.mem_map.1 hpiece
  exact ⟨(wellFormed_of_mem_entries h hzone he).isField_part, e.part_ne_nil⟩

/-- Parts behind a word are one line, without blanks around it. -/
theorem partsLine_clean {word : List Char} (hne : word ≠ []) (hword : ∀ c ∈ word, isBlank c = false) :
    (∀ c ∈ word ++ ':' :: o.partsText, isLineBoundary c = false) ∧
      trim (word ++ ':' :: o.partsText) = word ++ ':' :: o.partsText := by
  have hcolon : isBlank ':' = false := by decide
  have hboundary : ∀ c ∈ o.partsText, isLineBoundary c = false := by
    intro c hc
    rw [partsText_eq] at hc
    rcases mem_joinWith hc with hc | ⟨piece, hpiece, hc⟩
    · obtain rfl := List.mem_singleton.1 hc
      decide
    · exact (isField_of_mem_parts h hzone hpiece).1.boundary c hc
  have hlast : ∀ c ∈ (':' :: o.partsText).getLast?, isBlank c = false := by
    intro c hc
    rw [← List.singleton_append, List.getLast?_append] at hc
    rcases Option.or_eq_some_iff.1 hc with hc | ⟨-, hc⟩
    · rw [partsText_eq] at hc
      obtain ⟨piece, hpiece, hpieceLast⟩ :=
        getLast?_joinWith (fun p hp => (isField_of_mem_parts h hzone hp).2) hc
      rw [← (isField_of_mem_parts h hzone hpiece).1.trimmed] at hpieceLast
      exact getLast?_trim hpieceLast
    · obtain rfl : ':' = c := Option.some.inj hc
      exact hcolon
  constructor
  · intro c hc
    rcases List.mem_append.1 hc with hc | hc
    · exact isLineBoundary_of_not_isBlank (hword c hc)
    · rcases List.mem_cons.1 hc with rfl | hc
      · exact isLineBoundary_of_not_isBlank hcolon
      · exact hboundary c hc
  · refine trim_eq_self (fun c hc => ?_) (fun c hc => ?_)
    · rw [List.head?_append_of_ne_nil _ hne] at hc
      exact hword c (List.mem_of_mem_head? hc)
    · rw [List.getLast?_append_of_ne_nil _ (List.cons_ne_nil _ _)] at hc
      exact hlast c hc

/-- The line of the rule is one line, without blanks around it. -/
theorem ruleLine_clean :
    (∀ c ∈ o.ruleLine, isLineBoundary c = false) ∧ trim o.ruleLine = o.ruleLine := by
  rw [ruleLine_eq]
  exact partsLine_clean h hzone (by decide) (by decide)

/-- **Parts behind a word are read back exactly when all their entries fit**: as the request that the
entries make. -/
theorem readRuleLine_partsLine_eq_ok (hdays : o.WithinWeek) {word : List Char} (hne : word ≠ [])
    (hword : ∀ c ∈ word, isBlank c = false) (hcolon : ':' ∉ word) {r : Request} :
    (readRuleLine ctx (word ++ ':' :: o.partsText) (some (.known o.variant))).outcome answers =
      .ok r ↔
      (∀ e ∈ o.entries ctx.digitLimit, e.fits) ∧
        Request.empty.merge ((o.entries ctx.digitLimit).map (·.change)) = r := by
  have hpieces : splitOn ';' o.partsText = (o.entries ctx.digitLimit).map (·.part) := by
    rw [map_part_entries, partsText_eq]
    exact splitOn_joinWith (by simp [parts])
      fun piece hpiece => (isField_of_mem_parts h hzone hpiece).1.semicolon
  have hparts {next : Request} :
      (readPartsFrom ctx (some (.known o.variant)) .empty
        ((o.entries ctx.digitLimit).map (·.part))).outcome answers = .ok next ↔
          (∀ e ∈ o.entries ctx.digitLimit, e.fits) ∧
            Request.empty.merge ((o.entries ctx.digitLimit).map (·.change)) = next := by
    refine readPartsFrom_entries_eq_ok (fun e he => wellFormed_of_mem_entries h hzone he) ?_
    intro e he
    obtain ⟨name, -, hname⟩ := List.mem_filterMap.1 he
    exact reads_of_entryOf h hdays hname
  have hfrequency : ((Request.empty.merge ((o.entries ctx.digitLimit).map (·.change))).value
      .frequency).isNull = false := by
    rw [value_merge_entries]
    rfl
  simp only [readRuleLine, (partsLine_clean h hzone hne hword).2, cutAt_append hcolon, readParts,
    hpieces]
  rw [Calculation.outcome_bind_eq_ok]
  constructor
  · rintro ⟨next, hnext, hr⟩
    obtain ⟨hfits, rfl⟩ := hparts.1 hnext
    rw [hfrequency] at hr
    exact ⟨hfits, Except.ok.inj hr⟩
  · rintro ⟨hfits, rfl⟩
    refine ⟨_, hparts.2 ⟨hfits, rfl⟩, ?_⟩
    rw [hfrequency]
    rfl

/-- **The line of the rule is read back exactly when all its entries fit.** -/
theorem readRuleLine_ruleLine_eq_ok (hdays : o.WithinWeek) {r : Request} :
    (readRuleLine ctx o.ruleLine (some (.known o.variant))).outcome answers = .ok r ↔
      (∀ e ∈ o.entries ctx.digitLimit, e.fits) ∧
        Request.empty.merge ((o.entries ctx.digitLimit).map (·.change)) = r := by
  rw [ruleLine_eq]
  exact readRuleLine_partsLine_eq_ok h hzone hdays (by decide) (by decide) (by decide)

end Line

/-! ### The whole text -/

/-- What is read of the text of a rule. -/
def readBack (limit : Option DigitLimit) (o : RuleOptions) : Request :=
  ((Request.empty.set .start (.lunar o.start)).set .calendar (.str o.variant.token)).merge
    (Request.empty.merge ((o.entries limit).map (·.change))).given

theorem value_readBack (name : OptionName) :
    (o.readBack limit).value name = o.writtenValue limit name := by
  rw [readBack, Request.value_merge_given, value_merge_entries]
  cases name with
  | start => rfl
  | calendar => rfl
  | _ =>
    refine ite_eq_right_iff.2 fun hnull => ?_
    exact (Value.isNull_iff.1 hnull).symm

theorem upper_append (a b : List Char) : upper (a ++ b) = upper a ++ upper b :=
  List.flatMap_append

/-- A line that starts with a word in capitals still does in capitals. -/
theorem isPrefixOf_upper_append {word front : List Char} (hword : word <+: upper front)
    (rest : List Char) : word.isPrefixOf (upper (front ++ rest)) = true := by
  rw [upper_append, List.isPrefixOf_iff_prefix]
  exact hword.trans (List.prefix_append _ _)

/-- The line of the first date is read as a date line. -/
theorem readLine_startLine_eq_ok (h : o.Canonical ctx answers) {state : Progress} :
    (readLine ctx {} o.startLine).outcome answers = .ok state ↔
      o.start.year ≤ 9999 ∧
        Progress.mk ((Request.empty.set .start (.lunar o.start)).set .calendar
          (.str o.variant.token)) none (some (.known o.variant)) = state := by
  have hword : "DTSTART".toList <+: upper "DTSTART;CALENDAR=".toList := by decide
  have hline : o.startLine = "DTSTART;CALENDAR=".toList ++
      (o.variant.parameter.toList ++ ':' :: o.start.ruleChars) := List.append_assoc _ _ _
  have hprefix : "DTSTART".toList.isPrefixOf (upper o.startLine) = true := by
    rw [hline]
    exact isPrefixOf_upper_append hword _
  simp only [readLine, hprefix, if_true]
  rw [Calculation.outcome_bind_eq_ok]
  constructor
  · rintro ⟨dateLine, hread, hstate⟩
    obtain ⟨hyear, rfl⟩ := (readDateLine_startLine_eq_ok h).1 hread
    exact ⟨hyear, Except.ok.inj hstate⟩
  · rintro ⟨hyear, rfl⟩
    exact ⟨_, (readDateLine_startLine_eq_ok h).2 ⟨hyear, rfl⟩, rfl⟩

/-- The line of the rule is kept as one. -/
theorem readLine_ruleLine (state : Progress) :
    readLine ctx state o.ruleLine = pure { state with ruleLine := some o.ruleLine } := by
  have hrule : "RRULE".toList.isPrefixOf (upper o.ruleLine) = true :=
    isPrefixOf_upper_append (by decide) _
  have hdate : "DTSTART".toList.isPrefixOf (upper o.ruleLine) = false := by
    have hfront : upper "RRULE".toList = 'R' :: "RULE".toList := by decide
    have hword : "DTSTART".toList = 'D' :: "TSTART".toList := by decide
    rw [ruleLine_eq, upper_append, hfront, hword]
    rfl
  simp only [readLine, hdate, hrule, Bool.false_eq_true, if_false, Bool.true_or, if_true]

/-- **The text of a rule within the week is read back exactly when its first date and all its entries
fit.** -/
theorem readRequest_textChars_eq_ok (h : o.Canonical ctx answers)
    (hzone : ∀ s, o.timeZone = .str s → IsField s.toList) (hdays : o.WithinWeek) {r : Request} :
    (readRequest ctx o.textChars).outcome answers = .ok r ↔
      (o.start.year ≤ 9999 ∧ ∀ e ∈ o.entries ctx.digitLimit, e.fits) ∧
        o.readBack ctx.digitLimit = r := by
  have hstart := isBlank_startLine h.start.inRange
  obtain ⟨hboundary, htrim⟩ := ruleLine_clean h hzone
  have hstartTrim := trim_eq_self_of_forall hstart
  have hstartLine : o.startLine ≠ [] :=
    List.append_ne_nil_of_right_ne_nil _ (List.cons_ne_nil _ _)
  have hruleLine : o.ruleLine ≠ [] := List.append_ne_nil_of_left_ne_nil (by decide) _
  have hlines : lines o.textChars = [o.startLine, o.ruleLine] := by
    show lines (o.startLine ++ '\n' :: o.ruleLine) = _
    rw [lines_append fun c hc => isLineBoundary_of_not_isBlank (hstart c hc),
      lines_eq_singleton hruleLine hboundary]
  have hread {state : Progress} :
      (readLines ctx {} [o.startLine, o.ruleLine]).outcome answers = .ok state ↔
        ∃ first, (readLine ctx {} o.startLine).outcome answers = .ok first ∧
          { first with ruleLine := some o.ruleLine } = state := by
    simp only [readLines, hstartTrim, htrim, List.isEmpty_eq_false_iff.2 hstartLine,
      List.isEmpty_eq_false_iff.2 hruleLine, Bool.false_eq_true, if_false, readLine_ruleLine]
    rw [Calculation.outcome_bind_eq_ok]
    exact exists_congr fun first => and_congr_right fun _ => ⟨Except.ok.inj, congrArg Except.ok⟩
  rw [readRequest, hlines, Calculation.outcome_bind_eq_ok]
  constructor
  · rintro ⟨state, hstate, hr⟩
    obtain ⟨first, hfirst, rfl⟩ := hread.1 hstate
    obtain ⟨hyear, rfl⟩ := (readLine_startLine_eq_ok h).1 hfirst
    obtain ⟨given, hgiven, hr⟩ := Calculation.outcome_bind_eq_ok.1 hr
    obtain ⟨hfits, rfl⟩ := (readRuleLine_ruleLine_eq_ok h hzone hdays).1 hgiven
    exact ⟨⟨hyear, hfits⟩, Except.ok.inj hr⟩
  · rintro ⟨⟨hyear, hfits⟩, rfl⟩
    refine ⟨_, hread.2 ⟨_, (readLine_startLine_eq_ok h).2 ⟨hyear, rfl⟩, rfl⟩, ?_⟩
    exact Calculation.outcome_bind_eq_ok.2
      ⟨_, (readRuleLine_ruleLine_eq_ok h hzone hdays).2 ⟨hfits, rfl⟩, rfl⟩

end RuleOptions

/-- What is within the week can be written. -/
theorem RuleOptions.WithinWeek.written_eq (h : o.WithinWeek) (text : List Char) :
    o.written text = .ok (String.ofList text) := by
  have hname {n : Int} (hn : IsWeekday n) : hasWeekdayName n = true := by
    have hlow := hn.1
    have hhigh := hn.2
    rw [hasWeekdayName, decide_eq_true (by omega), decide_eq_true hhigh]
    rfl
  have hnone : (o.weekStart :: o.allWeekdays.map (·.number)).find? (fun n => !hasWeekdayName n) =
      none := by
    rw [List.find?_eq_none]
    intro n hn
    rcases List.mem_cons.1 hn with rfl | hn
    · simp [hname h.weekStart]
    · obtain ⟨w, hw, rfl⟩ := List.mem_map.1 hn
      simp [hname (h.weekdays w hw)]
  rw [written, Weekday.written, hnone]

namespace Rule

variable {rule back : Rule} {text : String} {keepsMemo : Bool}

/-- **The weekdays of a rule that is read from a text are days of the week.** -/
theorem withinWeek_of_ofText (h : (Rule.ofText ctx text keepsMemo).outcome answers = .ok rule) :
    rule.options.WithinWeek := by
  obtain ⟨r, hr, h⟩ := Calculation.outcome_bind_eq_ok.1 h
  obtain ⟨o, ho, h⟩ := Calculation.outcome_bind_eq_ok.1 h
  obtain rfl := Except.ok.inj h
  obtain ⟨dates, line, q, -, hq, rfl⟩ := readRequest_eq_ok_iff.1 hr
  exact RuleOptions.withinWeek_of_parts (givenByParts_readRuleLine hq)
    (value_requestOf_of_ne dates q (by decide) (by decide) (by decide))
    (value_requestOf_of_ne dates q (by decide) (by decide) (by decide)) ho

/-- A rule has a text, and a rule with the same options is read from it. -/
def ComesBack (ctx : Context) (answers : Answers) (keepsMemo : Bool) (rule : Rule) : Prop :=
  ∃ text back, rule.text = .ok text ∧
    (Rule.ofText ctx text keepsMemo).outcome answers = .ok back ∧ back.options = rule.options

theorem ComesBack.withinWeek (h : rule.ComesBack ctx answers keepsMemo) :
    rule.options.WithinWeek := by
  obtain ⟨text, back, -, hback, hsame⟩ := h
  exact hsame ▸ withinWeek_of_ofText hback

/-- What comes back was read, and so it fits. -/
theorem ComesBack.fits (hcomes : rule.ComesBack ctx answers keepsMemo)
    (h : rule.options.Canonical ctx answers) :
    rule.options.start.year ≤ 9999 ∧ (∀ last ∈ rule.options.last, last.year ≤ 9999) ∧
      (∀ w ∈ rule.options.allWeekdays, w.Fits) ∧
      (∀ zone, rule.options.timeZone = .str zone → IsField zone.toList) ∧
      ∀ n ∈ rule.options.unbounded, hasRoomFor ctx.digitLimit n = true := by
  have hdays := hcomes.withinWeek
  obtain ⟨text, back, htext, hback, hsame⟩ := hcomes
  have hzone : ∀ zone, rule.options.timeZone = .str zone → IsField zone.toList :=
    fun zone hzone => isField_timeZone_of_ofText hback (hsame ▸ hzone)
  have hchars : String.ofList rule.options.textChars = text :=
    Except.ok.inj ((hdays.written_eq _).symm.trans htext)
  obtain ⟨r, hr, -⟩ := Calculation.outcome_bind_eq_ok.1 hback
  rw [← hchars, String.toList_ofList] at hr
  obtain ⟨⟨hstart, hfits⟩, -⟩ :=
    (RuleOptions.readRequest_textChars_eq_ok h hzone hdays).1 hr
  obtain ⟨hlast, hordinals, hnumbers⟩ := (RuleOptions.forall_fits_iff h.toNormalized).1 hfits
  exact ⟨hstart, hlast, hordinals, hzone, hnumbers⟩

/-- **A rule is read back from its text exactly when** the years of its dates have four digits at
most, the ordinals of its weekdays have two, its time zone can stand alone between semicolons on a
line, no number in it has more digits than can be read, where there is a limit to that, and its
weekdays are days of the week, as is the one that its weeks start on. -/
theorem ofText_text_iff (rule : Rule) (h : rule.options.Canonical ctx answers)
    (keepsMemo : Bool) :
    rule.ComesBack ctx answers keepsMemo ↔
      rule.options.start.year ≤ 9999 ∧ (∀ last ∈ rule.options.last, last.year ≤ 9999) ∧
        (∀ w ∈ rule.options.allWeekdays, ∀ n ∈ w.ordinal?, n.natAbs ≤ 99) ∧
        (∀ zone, rule.options.timeZone = .str zone → IsField zone.toList) ∧
        (∀ limit ∈ ctx.digitLimit, ∀ n ∈ rule.options.unbounded,
          (natural n.natAbs).length ≤ limit.digits) ∧
        rule.options.WithinWeek := by
  rw [← forall_hasRoomFor_iff]
  constructor
  · intro hcomes
    obtain ⟨hstart, hlast, hordinals, hzone, hnumbers⟩ := hcomes.fits h
    exact ⟨hstart, hlast, hordinals, hzone, hnumbers, hcomes.withinWeek⟩
  · rintro ⟨hstart, hlast, hordinals, hzone, hnumbers, hdays⟩
    have hfits := (RuleOptions.forall_fits_iff h.toNormalized).2 ⟨hlast, hordinals, hnumbers⟩
    have hread := (RuleOptions.readRequest_textChars_eq_ok h hzone hdays).2 ⟨⟨hstart, hfits⟩, rfl⟩
    have hoptions : (RuleOptions.ofRequest ctx
        (rule.options.readBack ctx.digitLimit)).outcome answers = .ok rule.options :=
      RuleOptions.outcome_ofRequest_written h hdays RuleOptions.value_readBack
    refine ⟨_, { options := rule.options, memo := newMemo keepsMemo }, hdays.written_eq _, ?_, rfl⟩
    rw [Rule.ofText, String.toList_ofList, Calculation.outcome_bind_ok hread, Rule.ofRequest,
      Calculation.outcome_bind_ok hoptions]
    rfl

end Rule

namespace RuleOptions

/-- Every other month of 1446 to 1450 in the mornings of its first day, of its last day and of its
last Friday, in weeks that start on Monday. -/
def monthEnds : RuleOptions where
  frequency := .monthly
  start := { year := 1446, month := 9, day := 1, hour := 10, minute := 30, variant := .tabular }
  interval := 2
  weekStart := 0
  last := some
    { year := 1450, month := 1, day := 29, hour := 23, minute := 59, second := 59,
      variant := .tabular }
  timeZone := .str "Asia/Riyadh"
  monthDays := [1]
  monthDaysFromEnd := [-1]
  nthWeekdays := [⟨4, some (-1)⟩]
  hours := [5, 6]
  skip := .backward
  variant := .tabular

theorem ofText_text_iff_monthEnds :
    monthEnds.Canonical .hostless .unknown ∧
      (Rule.mk monthEnds none).ComesBack .hostless .unknown true := by
  have hnormalized : monthEnds.Normalized .hostless .unknown := normalized_of_inBounds (by decide)
  have hcanonical : monthEnds.Canonical .hostless .unknown :=
    { hnormalized with plain := by decide, timeZone := .inr ⟨"Asia/Riyadh", by decide, rfl⟩ }
  have hzone : ∀ zone, monthEnds.timeZone = .str zone → IsField zone.toList := by
    intro zone hzone
    obtain rfl : "Asia/Riyadh" = zone := Value.str.inj hzone
    exact isField_of_solid (by decide)
  have hsmall : ∀ n ∈ monthEnds.unbounded, n.natAbs < 1000 := by decide
  have hroom : ∀ n ∈ monthEnds.unbounded, hasRoomFor Context.hostless.digitLimit n = true :=
    fun n hn => hasRoomFor_of_lt _ (hsmall n hn)
  have hdays : monthEnds.WithinWeek := ⟨by decide, by decide⟩
  exact ⟨hcanonical, (Rule.ofText_text_iff { options := monthEnds } hcanonical true).2
    ⟨by decide, by decide, by decide, hzone, forall_hasRoomFor_iff.1 hroom, hdays⟩⟩

/-- A rule for every so many days, on weekdays if any are given. -/
def everySoManyDays (interval : Int) (weekdays : List Weekday) : RuleOptions where
  frequency := .daily
  start := { year := 1446, month := 1, day := 1, variant := .tabular }
  interval := interval
  weekdays := weekdays
  variant := .tabular

/-- Nothing stands against such a rule but its interval and the numbers of its weekdays. -/
theorem canonical_everySoManyDays {interval : Int} {weekdays : List Weekday}
    (hinterval : 1 ≤ interval) (hplain : ∀ w ∈ weekdays, w.ordinal = none)
    (hbounds : (everySoManyDays 1 weekdays).InBounds) :
    let o := everySoManyDays interval weekdays
    o.Canonical .hostless .unknown ∧
      o.start.year ≤ 9999 ∧ (∀ last ∈ o.last, last.year ≤ 9999) ∧
      (∀ w ∈ o.allWeekdays, ∀ n ∈ w.ordinal?, n.natAbs ≤ 99) ∧
      ∀ zone, o.timeZone = .str zone → IsField zone.toList := by
  have hinBounds : (everySoManyDays interval weekdays).InBounds :=
    ⟨hbounds.1, hbounds.2.1, hbounds.2.2.1, hinterval, hbounds.2.2.2.2⟩
  have hyear : (1446 : Int) ≤ 9999 := by decide
  refine ⟨{ normalized_of_inBounds hinBounds with plain := hplain, timeZone := .inl rfl }, hyear,
    fun last hlast => (by cases hlast), fun w hw n hn => ?_, fun zone hzone => (by cases hzone)⟩
  have hmem : w ∈ weekdays := (List.mem_append.1 hw).resolve_right List.not_mem_nil
  rw [Weekday.ordinal?, hplain w hmem] at hn
  cases hn

/-- An interval of 4301 digits is not read.  A weekday that is counted back from Sunday is written by
the code of the day that it comes to, and is that day when it is read. -/
theorem not_comesBack_everySoManyDays :
    (∀ o ∈ [everySoManyDays (10 ^ DigitLimit.usual.digits) [], everySoManyDays 1 [⟨-1, none⟩]],
      (o.Canonical .hostless .unknown ∧
        o.start.year ≤ 9999 ∧ (∀ last ∈ o.last, last.year ≤ 9999) ∧
        (∀ w ∈ o.allWeekdays, ∀ n ∈ w.ordinal?, n.natAbs ≤ 99) ∧
        ∀ zone, o.timeZone = .str zone → IsField zone.toList) ∧
      ¬(Rule.mk o none).ComesBack .hostless .unknown true) ∧
    (everySoManyDays 1 [⟨-1, none⟩]).text = (everySoManyDays 1 [⟨6, none⟩]).text := by
  refine ⟨List.forall_mem_cons.2 ⟨?_, List.forall_mem_singleton.2 ?_⟩, rfl⟩
  · have hlong : (1 : Int) ≤ 10 ^ DigitLimit.usual.digits := one_le_pow₀ (by decide)
    have hrule := canonical_everySoManyDays hlong (List.forall_mem_nil _) (by decide)
    refine ⟨hrule, fun hcomes => ?_⟩
    obtain ⟨-, -, -, -, hnumbers⟩ := hcomes.fits hrule.1
    have hread := hnumbers _ List.mem_cons_self
    exact Bool.false_ne_true ((hasRoomFor_pow .usual).symm.trans hread)
  · refine ⟨canonical_everySoManyDays (by decide) (by decide) (by decide), fun hcomes => ?_⟩
    exact absurd (hcomes.withinWeek.weekdays _ List.mem_cons_self) (by decide)

end RuleOptions

end HijriRecurrence
