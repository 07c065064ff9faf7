import HijriRecurrence.Proofs.Recurrence.CivilQuery
import HijriRecurrence.Proofs.RuleText.SetText

/-!
# The round trip of a set

A set that is read from a text with a rule in it can be written and read again.  Its rules come back
as they were.  Its dates are written without their calendar, so they come back in the calendar of
the rules: all of them, or the text is not read at all (`outcome_read_textPieces`).  Nothing that a
set does looks at the calendar of a date, so the set that is read has the same occurrences, in the
calendar of the rules (`exists_text_of_read`).
-/

namespace HijriRecurrence

open Text RuleText

variable {ctx : Context} {answers : Answers}

/-- The occurrences of a set do not hang on the memos of its rules. -/
theorem RuleSet.occurrences_renew (memo memo' memo'' : Bool) (rules exRules : List Rule)
    (dates exDates : List LunarDate) :
    (ofRules memo (rules.map (·.renew memo')) (exRules.map (·.renew memo')) dates exDates).occurrences
        ctx = (ofRules memo'' rules exRules dates exDates).occurrences ctx := by
  have hwalks (sources : List Rule) : Source.walks ctx ((sources.map (·.renew memo')).map .rule) =
      Source.walks ctx (sources.map .rule) := by
    rw [Source.walks_rules, Source.walks_rules, List.map_map]
    rfl
  simp only [occurrences, walks, ofRules, hwalks]

namespace RuleText

/-- **The text of a set is read exactly when its dates exist in the calendar of its rules**, and then
as the set of the same rules and of these dates. -/
theorem outcome_read_textPieces {start : LunarDate} {rules exRules : List Rule}
    {dates exDates : List LunarDate}
    (h : IsTogether ctx answers start (rules ++ exRules) (dates ++ exDates)) (hne : rules ≠ [])
    (keepsMemo : Bool) {found : Recurrence} :
    (read ctx (['\n'].intercalate (RuleSet.textPieces rules exRules dates exDates))
        { keepsMemo, wantsSet := true }).outcome answers = .ok found ↔
      (∀ d ∈ dates ++ exDates, (d.inVariant start.variant).Built ctx answers) ∧
        .set (.ofRules keepsMemo (rules.map (·.renew keepsMemo)) (exRules.map (·.renew keepsMemo))
          (dates.map (·.inVariant start.variant)) (exDates.map (·.inVariant start.variant))) =
            found := by
  obtain ⟨hlines, -⟩ := plainLines_of_lines (RuleSet.lines_textPieces h)
    fun _ hline => RuleSet.isWrittenLine_of_mem_textLines h hline
  have hsort := sortLines_textLines h hne
  have hblank : (trim (['\n'].intercalate
      (RuleSet.textPieces rules exRules dates exDates))).isEmpty = false := by
    refine not_blank_of_plainLines ?_
    rw [hlines]
    cases rules with
    | nil => exact absurd rfl hne
    | cons r rest => simp [RuleSet.textLines]
  rw [outcome_read_eq_ok rfl, and_iff_right hblank]
  simp only [Bool.false_eq_true, if_false, hlines, hsort, Except.ok.injEq, exists_eq_left']
  constructor
  · intro hfinish
    obtain ⟨s, rfl⟩ := exists_set_of_finish rfl hfinish
    obtain ⟨-, hset⟩ := outcome_finish_eq_set.1 hfinish
    obtain ⟨hbuilt, rfl⟩ := (buildSet_textProperties_eq_ok h rfl).1 hset
    exact ⟨hbuilt, rfl⟩
  · rintro ⟨hbuilt, rfl⟩
    exact outcome_finish_eq_set.2 ⟨rfl, (buildSet_textProperties_eq_ok h rfl).2 ⟨hbuilt, rfl⟩⟩

/-- **A set that is read from a text with a rule in it can be written and read again.**  All its
rules are in one calendar, its text is read exactly when its dates exist in this calendar, and the
set that is read then has the same occurrences there, day by day and to the same end. -/
theorem exists_text_of_read (hctx : ctx.IsCurrent) {text : List Char}
    {keepsMemo unfolds wantsSet : Bool} {s : RuleSet}
    (hread : (read ctx text { keepsMemo, unfolds, wantsSet }).outcome answers = .ok (.set s))
    (hrules : s.rules ≠ []) :
    ∃ variant printed, (∀ source ∈ s.rules ++ s.exRules, source.IsIn variant) ∧
      s.text ctx = .ok printed ∧ ∀ memo : Bool,
        ((∃ back, (read ctx printed.toList { keepsMemo := memo, wantsSet := true }).outcome answers =
            .ok back) ↔
          ∀ d ∈ s.dates ++ s.exDates, (d.inVariant variant).Built ctx answers) ∧
        ∀ back, (read ctx printed.toList { keepsMemo := memo, wantsSet := true }).outcome answers =
            .ok back →
          ∃ s', back = .set s' ∧
            s'.occurrences ctx = (s.occurrences ctx).map (·.inVariant variant) := by
  obtain ⟨start, rules, exRules, dates, exDates, rfl, hne, h⟩ :=
    exists_rules_of_read hctx rfl rfl hread hrules
  have hin : ∀ r ∈ rules ++ exRules, r.options.variant = start.variant := by
    intro r hr
    rw [← h.start r hr, (h.fitsText r hr).start_variant]
  have hsources {items : List Rule} (hitems : ∀ r ∈ items, r ∈ rules ++ exRules) :
      ∀ source ∈ items.map Source.rule, source.IsIn start.variant := by
    intro source hsource
    obtain ⟨r, hr, rfl⟩ := List.mem_map.1 hsource
    exact hin r (hitems r hr)
  have hrulesIn := hsources fun _ hr => List.mem_append_left exRules hr
  have hexRulesIn := hsources fun _ hr => List.mem_append_right rules hr
  refine ⟨start.variant, _, List.forall_mem_append.2 ⟨hrulesIn, hexRulesIn⟩,
    RuleSet.text_ofRules ctx keepsMemo (fun r hr => (h.fitsText r hr).withinWeek) dates exDates,
    fun memo => ?_⟩
  rw [String.toList_ofList]
  simp only [outcome_read_textPieces h hne memo]
  constructor
  · exact ⟨fun ⟨_, hbuilt, _⟩ => hbuilt, fun hbuilt => ⟨_, hbuilt, rfl⟩⟩
  · rintro back ⟨-, rfl⟩
    refine ⟨_, rfl, ?_⟩
    rw [RuleSet.occurrences_renew memo memo keepsMemo]
    exact @RuleSet.occurrences_inVariant ctx start.variant
      (.ofRules keepsMemo rules exRules dates exDates) hrulesIn hexRulesIn

/-- The first three days of Ramadan 1446, and of Shawwal the first, without the first two. -/
def fastText : List Char :=
  ("DTSTART;CALENDAR=HIJRI-TABULAR:14460901\nRRULE:FREQ=DAILY;COUNT=3\nRDATE:14461001\n" ++
    "EXRULE:FREQ=DAILY;COUNT=1\nEXDATE:14460902").toList

def dayOf (month day : Int) : LunarDate := { year := 1446, month, day, variant := .tabular }

def firstDays (count : Int) : RuleOptions :=
  { frequency := .daily, start := dayOf 9 1, count := some count, variant := .tabular }

def fast : RuleSet :=
  .ofRules false [{ options := firstDays 3, memo := none }] [{ options := firstDays 1, memo := none }]
    [dayOf 10 1] [dayOf 9 2]

theorem isCurrent_hostless : Context.IsCurrent .hostless where
  valid := by decide
  host _ h := by cases h

set_option maxRecDepth 1000 in
theorem exists_text_of_read_fast :
    (read .hostless fastText {}).outcome .unknown = .ok (.set fast) ∧ fast.rules ≠ [] ∧
      ∃ printed s', fast.text .hostless = .ok printed ∧
        (read .hostless printed.toList { wantsSet := true }).outcome .unknown = .ok (.set s') ∧
          s'.occurrences .hostless =
            (fast.occurrences .hostless).map (·.inVariant .tabular) := by
  have hread : (read .hostless fastText {}).outcome .unknown = .ok (.set fast) := rfl
  have hrules : fast.rules ≠ [] := List.cons_ne_nil _ _
  obtain ⟨variant, printed, hin, hprinted, hback⟩ :=
    exists_text_of_read isCurrent_hostless hread hrules
  obtain rfl : Variant.tabular = variant := hin _ List.mem_cons_self
  obtain ⟨hiff, hsame⟩ := hback false
  have hbuilt : ∀ d ∈ fast.dates ++ fast.exDates,
      (d.inVariant .tabular).Built .hostless .unknown := by
    intro d hd
    rcases List.mem_pair.1 hd with rfl | rfl <;> rfl
  obtain ⟨back, hread'⟩ := hiff.2 hbuilt
  obtain ⟨s', rfl, hoccurrences⟩ := hsame back hread'
  exact ⟨hread, hrules, printed, s', hprinted, hread', hoccurrences⟩

/-- One day of Muharram 1446 by the tabular calendar, and the last of Safar by the Umm al-Qura
tables. -/
def endOfSafarText : List Char :=
  ("DTSTART;CALENDAR=HIJRI-TABULAR:14460101\nRRULE:FREQ=DAILY;COUNT=1\n" ++
    "RDATE;CALENDAR=HIJRI-UM-AL-QURA:14460230").toList

/-- The last of Safar 1446 by the Umm al-Qura tables. -/
def endOfSafar : LunarDate := { year := 1446, month := 2, day := 30, variant := .ummAlQura }

/-- The first of Muharram 1446 by the tabular calendar. -/
def firstOfMuharram : RuleOptions :=
  { frequency := .daily, start := dayOf 1 1, count := some 1, variant := .tabular }

def acrossCalendars : RuleSet :=
  .ofRules false [{ options := firstOfMuharram, memo := none }] [] [endOfSafar] []

def acrossCalendarsText : String :=
  "DTSTART;CALENDAR=HIJRI-TABULAR:14460101\nRRULE:FREQ=DAILY;COUNT=1\n" ++
    "RDATE;CALENDAR=HIJRI:14460230"

open Recurrence

theorem read_endOfSafarText :
    (read withTables endOfSafarText {}).outcome (Observed.answers UmmAlQura.host) =
      .ok (.set acrossCalendars) := by
  have hsort : (sortLines withTables {} (plainLines endOfSafarText)).outcome
      (Observed.answers UmmAlQura.host) = .ok
        { start := .lunar (dayOf 1 1)
          calendar := some (.known .tabular)
          ruleLines := ["RRULE:FREQ=DAILY;COUNT=1".toList]
          dateLines := ["RDATE;CALENDAR=HIJRI-UM-AL-QURA:14460230".toList] } := rfl
  have hday : UmmAlQura.table.IsDay ⟨1446, 2, 30⟩ := by decide +kernel
  have hbuilt : endOfSafar.Built withTables (Observed.answers UmmAlQura.host) :=
    built_of_isDay_table hday
  have hline : "RDATE;CALENDAR=HIJRI-UM-AL-QURA:14460230".toList =
      "RDATE;CALENDAR=HIJRI-UM-AL-QURA".toList ++ ':' :: endOfSafar.ruleChars := by decide +kernel
  have hdate : (readDateLine withTables "RDATE;CALENDAR=HIJRI-UM-AL-QURA:14460230".toList
      (some (.known .tabular))).outcome (Observed.answers UmmAlQura.host) =
        .ok ⟨[endOfSafar], some (.known .ummAlQura), none⟩ := by
    rw [hline]
    exact (RuleOptions.readDateLine_ruleChars_eq_ok (by decide) rfl hbuilt.inRange).2
      ⟨endOfSafar, (ofRuleChars_eq_ok hbuilt.inRange (by decide)).2 ⟨hbuilt, rfl⟩, rfl⟩
  refine (outcome_read_eq_ok rfl).2 ⟨rfl, _, hsort, outcome_finish_eq_set.2 ⟨rfl, ?_⟩⟩
  exact (outcome_buildSet_eq_ok rfl).2
    ⟨_, .cons rfl .nil, _, .nil, _, .cons hdate .nil, _, .nil, rfl⟩

/-- **A set with a date that the calendar of its rules does not have is not read again**, although it
goes through its occurrences without a failure. -/
theorem read_text_acrossCalendars_fails :
    (read withTables endOfSafarText {}).outcome (Observed.answers UmmAlQura.host) =
        .ok (.set acrossCalendars) ∧
      acrossCalendars.rules ≠ [] ∧
      (acrossCalendars.occurrences withTables).Yields (Observed.answers UmmAlQura.host)
        [dayOf 1 1, endOfSafar] ∧
      acrossCalendars.text withTables = .ok acrossCalendarsText ∧
      (read withTables acrossCalendarsText.toList { wantsSet := true }).outcome
        (Observed.answers UmmAlQura.host) =
          .error (.dayNotInMonth ⟨1446, 2, 30⟩ (.int 29) .tabular) := by
  have hchars : ['\n'].intercalate
      (RuleSet.textPieces [{ options := firstOfMuharram, memo := none }] [] [endOfSafar] []) =
        acrossCalendarsText.toList := by decide +kernel
  have hdays : ∀ r ∈ [Rule.mk firstOfMuharram none] ++ [], r.options.WithinWeek :=
    List.forall_mem_singleton.2 ⟨by decide, by decide⟩
  refine ⟨read_endOfSafarText, List.cons_ne_nil _ _, ⟨by decide +kernel, by decide +kernel⟩, ?_, rfl⟩
  rw [acrossCalendars, RuleSet.text_ofRules withTables false hdays, hchars,
    String.ofList_toList]

end RuleText

end HijriRecurrence
