import HijriRecurrence.Proofs.Outcome
import HijriRecurrence.Proofs.Rule.Enumeration
import HijriRecurrence.Recurrence.Text

/-!
# How the lines of a text of one rule are told apart

A text is read line by line, and a line is taken for what it looks like: one that starts with
DTSTART is a date line (`looksLikeDates`), and another one that starts with RRULE or has FREQ=
somewhere is a rule line (`looksLikeRule`), whatever its property is.  Of several rule lines the last
one counts, and date lines add up.

* `outcome_foldlM_readLine` — what some lines come to;
* `readRequest_eq_ok_iff` — the texts that are read, and the request that each of them makes.
-/

namespace HijriRecurrence.RuleText

open Text

variable {ctx : Context} {answers : Answers} {text : List Char} {line : List Char}
  {found : List (List Char)} {state next : Progress} {r : Request} {name : OptionName}

/-! ### Lines -/

/-- Reading takes the lines that are not blank, without the blanks around them. -/
theorem readLines_eq_foldlM (state : Progress) (texts : List (List Char)) :
    readLines ctx state texts =
      ((texts.filter fun line => !(trim line).isEmpty).map trim).foldlM (readLine ctx) state := by
  induction texts generalizing state with
  | nil => rfl
  | cons line rest ih =>
    rw [readLines]
    by_cases hblank : (trim line).isEmpty = true
    · rw [if_pos hblank, List.filter_cons_of_neg (by simp [hblank]), ih]
    · rw [if_neg hblank, List.filter_cons_of_pos (by simp [hblank]), List.map_cons,
        List.foldlM_cons]
      exact congrArg _ (funext fun next => ih next)

/-- A request with the date and the calendar of a date line in the place of its own. -/
def DateLine.override (d : DateLine) (r : Request) : Request :=
  let r := match d.dates with
    | first :: _ => r.set .start (.lunar first)
    | [] => r
  match d.calendar with
  | some name => r.set .calendar (calendarValue name)
  | none => r

/-- A request with the time zone of a date line, too. -/
def DateLine.addTo (d : DateLine) (r : Request) : Request :=
  match d.timeZone with
  | some zone => if zone.isEmpty then d.override r else (d.override r).set .timeZone (.str zone)
  | none => d.override r

/-- A date line gives a date and a calendar, and nothing else counts over what it is added to. -/
theorem value_override_of_ne (d : DateLine) (r : Request) (hstart : name ≠ .start)
    (hcalendar : name ≠ .calendar) : (d.override r).value name = r.value name := by
  obtain ⟨dates, calendar, timeZone⟩ := d
  cases dates <;> cases calendar <;>
    simp only [DateLine.override, Request.value_set_of_ne _ _ hstart,
      Request.value_set_of_ne _ _ hcalendar]

theorem value_addTo_of_ne (d : DateLine) (r : Request) (hname : name ≠ .timeZone) :
    (d.addTo r).value name = (d.override r).value name := by
  unfold DateLine.addTo
  split
  · split
    · rfl
    · exact Request.value_set_of_ne _ _ hname
  · rfl

/-! ### Kinds of lines -/

def looksLikeDates (line : List Char) : Bool := "DTSTART".toList.isPrefixOf (upper line)

def looksLikeRule (line : List Char) : Bool :=
  !looksLikeDates line &&
    ("RRULE".toList.isPrefixOf (upper line) || occursIn "FREQ=".toList (upper line))

theorem readLine_of_looksLikeDates (h : looksLikeDates line = true) (state : Progress) :
    readLine ctx state line = (do
      let dateLine ← readDateLine ctx line none
      return { state with
        request := dateLine.addTo state.request
        calendar := dateLine.calendar }) := by
  rw [looksLikeDates] at h
  rw [readLine]
  simp only [h, if_true]
  rfl

theorem readLine_of_looksLikeRule (h : looksLikeRule line = true) (state : Progress) :
    readLine ctx state line = pure { state with ruleLine := some line } := by
  rw [looksLikeRule, looksLikeDates, Bool.and_eq_true, Bool.not_eq_true'] at h
  rw [readLine]
  simp only [h.1, h.2, Bool.false_eq_true, if_false, if_true]

/-- A line of neither kind is refused. -/
theorem readLine_of_neither (hdates : looksLikeDates line = false)
    (hrule : looksLikeRule line = false) (state : Progress) :
    readLine ctx state line = throw (Error.unsupportedLine (String.ofList line)) := by
  rw [looksLikeRule, hdates, Bool.not_false, Bool.true_and] at hrule
  rw [looksLikeDates] at hdates
  rw [readLine]
  simp only [hdates, hrule, Bool.false_eq_true, if_false]

/-! ### Lines in a row -/

/-- What has been read after some more date lines and rule lines. -/
def Progress.after (state : Progress) (dates : List DateLine) (rules : List (List Char)) :
    Progress where
  request := dates.foldl (fun r d => d.addTo r) state.request
  ruleLine := rules.getLast?.or state.ruleLine
  calendar := (dates.getLast?.map (·.calendar)).getD state.calendar

theorem Progress.after_nil (state : Progress) : state.after [] [] = state := rfl

theorem Progress.after_cons_date (state : Progress) (d : DateLine) (dates : List DateLine)
    (rules : List (List Char)) :
    { state with request := d.addTo state.request, calendar := d.calendar }.after dates rules =
      state.after (d :: dates) rules := by
  simp [after, List.getLast?_cons]

theorem Progress.after_cons_rule (state : Progress) (line : List Char) (dates : List DateLine)
    (rules : List (List Char)) :
    { state with ruleLine := some line }.after dates rules =
      state.after dates (line :: rules) := by
  simp [after, List.getLast?_cons]

/-- The date lines among some lines are read as some dates. -/
def DatesAreReadAs (ctx : Context) (answers : Answers) (found : List (List Char))
    (dates : List DateLine) : Prop :=
  List.Forall₂ (fun line d => (readDateLine ctx line none).outcome answers = .ok d)
    (found.filter looksLikeDates) dates

/-- **What lines come to:** each is of one of the two kinds, the date lines are read, and the rule
lines are kept as they are. -/
theorem outcome_foldlM_readLine :
    (found.foldlM (readLine ctx) state).outcome answers = .ok next ↔
      (∀ line ∈ found, looksLikeDates line = true ∨ looksLikeRule line = true) ∧
        ∃ dates, DatesAreReadAs ctx answers found dates ∧
          next = state.after dates (found.filter looksLikeRule) := by
  unfold DatesAreReadAs
  induction found generalizing state with
  | nil =>
    simp only [List.foldlM_nil, Calculation.outcome_pure, Except.ok.injEq, List.filter_nil,
      List.forall₂_nil_left_iff, exists_eq_left, Progress.after_nil, List.not_mem_nil,
      false_imp_iff, forall_const, true_and]
    exact eq_comm
  | cons line rest ih =>
    rw [List.foldlM_cons, Calculation.outcome_bind_eq_ok, List.forall_mem_cons]
    cases hdates : looksLikeDates line with
    | true =>
      have hrule : looksLikeRule line = false := by simp [looksLikeRule, hdates]
      simp only [readLine_of_looksLikeDates hdates, Calculation.outcome_bind_eq_ok,
        Calculation.outcome_pure, Except.ok.injEq, ih, List.filter_cons, hdates, hrule,
        if_true, Bool.false_eq_true, if_false, true_or, true_and, List.forall₂_cons_left_iff]
      constructor
      · rintro ⟨_, ⟨d, hd, rfl⟩, hkinds, dates, hread, rfl⟩
        exact ⟨hkinds, d :: dates, ⟨d, dates, hd, hread, rfl⟩,
          Progress.after_cons_date state d dates _⟩
      · rintro ⟨hkinds, _, ⟨d, dates, hd, hread, rfl⟩, rfl⟩
        exact ⟨_, ⟨d, hd, rfl⟩, hkinds, dates, hread,
          (Progress.after_cons_date state d dates _).symm⟩
    | false =>
      cases hrule : looksLikeRule line with
      | true =>
        simp only [readLine_of_looksLikeRule hrule, Calculation.outcome_pure, Except.ok.injEq,
          exists_eq_left', ih, List.filter_cons, hdates, hrule, if_true, Bool.false_eq_true,
          if_false, or_true, true_and, Progress.after_cons_rule]
      | false =>
        simp only [readLine_of_neither hdates hrule, Calculation.outcome_throw, reduceCtorEq,
          false_and, exists_false, Bool.false_eq_true, or_self]

/-! ### A text -/

/-- The calendar that the date lines of a text pin: that of the last one, if it pins any. -/
def calendarOf (dates : List DateLine) : Option CalendarName := dates.getLast?.bind (·.calendar)

/-- What some date lines and a rule line ask for; the rule line counts over the date lines. -/
def requestOf (dates : List DateLine) (q : Request) : Request :=
  (dates.foldl (fun r d => d.addTo r) Request.empty).merge q.given

/-- What no date line gives is what the rule line gives. -/
theorem value_requestOf_of_ne (dates : List DateLine) (q : Request) (hstart : name ≠ .start)
    (hcalendar : name ≠ .calendar) (hzone : name ≠ .timeZone) :
    (requestOf dates q).value name = q.value name := by
  have hdates (r : Request) : (dates.foldl (fun r d => d.addTo r) r).value name = r.value name := by
    induction dates generalizing r with
    | nil => rfl
    | cons d rest ih =>
      rw [List.foldl_cons, ih, value_addTo_of_ne d r hzone, value_override_of_ne d r hstart hcalendar]
  rw [requestOf, Request.value_merge_given, hdates]
  split
  · rename_i hnull
    exact (Value.isNull_iff.1 hnull).symm
  · rfl

/-- Lines are sorted into date lines, which are read, and rule lines, of which the last one is
left. -/
structure AreSorted (ctx : Context) (answers : Answers) (found : List (List Char))
    (dates : List DateLine) (rule : List Char) : Prop where
  kinds : ∀ line ∈ found, looksLikeDates line = true ∨ looksLikeRule line = true
  dates : DatesAreReadAs ctx answers found dates
  rule : (found.filter looksLikeRule).getLast? = some rule

theorem readRequest_eq_foldlM : readRequest ctx text = (do
    let state ← ((plainLines text).map trim).foldlM (readLine ctx) {}
    match state.ruleLine with
    | none => throw Error.noRuleInText
    | some line =>
      let r ← readRuleLine ctx line state.calendar
      return state.request.merge r.given) := by
  rw [readRequest, readLines_eq_foldlM]
  rfl

/-- A text is read when its lines are sorted and the last rule line is read. -/
theorem readRequest_eq_ok_iff :
    (readRequest ctx text).outcome answers = .ok r ↔
      ∃ dates rule q, AreSorted ctx answers ((plainLines text).map trim) dates rule ∧
        (readRuleLine ctx rule (calendarOf dates)).outcome answers = .ok q ∧
        r = requestOf dates q := by
  have hcalendar (dates : List DateLine) (rules : List (List Char)) :
      (Progress.after {} dates rules).calendar = calendarOf dates := by
    show (dates.getLast?.map (·.calendar)).getD none = dates.getLast?.bind (·.calendar)
    cases dates.getLast? <;> rfl
  have hrule (dates : List DateLine) (rules : List (List Char)) :
      (Progress.after {} dates rules).ruleLine = rules.getLast? := Option.or_none
  rw [readRequest_eq_foldlM, Calculation.outcome_bind_eq_ok]
  simp only [outcome_foldlM_readLine]
  constructor
  · rintro ⟨_, ⟨hkinds, dates, hdates, rfl⟩, h⟩
    split at h
    · cases h
    · rename_i rule hlast
      obtain ⟨q, hq, h⟩ := Calculation.outcome_bind_eq_ok.1 h
      rw [hrule] at hlast
      rw [hcalendar] at hq
      exact ⟨dates, rule, q, ⟨hkinds, hdates, hlast⟩, hq, (Except.ok.inj h).symm⟩
  · rintro ⟨dates, rule, q, ⟨hkinds, hdates, hlast⟩, hq, rfl⟩
    refine ⟨_, ⟨hkinds, dates, hdates, rfl⟩, ?_⟩
    rw [← hrule dates] at hlast
    rw [← hcalendar dates] at hq
    rw [hlast]
    exact (Calculation.outcome_bind_ok hq _).trans rfl

/-- A line of neither kind stops the reading, when the lines before it are sorted. -/
theorem readRequest_of_neither {before after : List (List Char)} {dates : List DateLine}
    (hlines : (plainLines text).map trim = before ++ line :: after)
    (hkinds : ∀ l ∈ before, looksLikeDates l = true ∨ looksLikeRule l = true)
    (hdates : DatesAreReadAs ctx answers before dates)
    (hnot : looksLikeDates line = false) (hnor : looksLikeRule line = false) :
    (readRequest ctx text).outcome answers = .error (.unsupportedLine (String.ofList line)) := by
  have hbefore : (before.foldlM (readLine ctx) {}).outcome answers =
      .ok (Progress.after {} dates (before.filter looksLikeRule)) :=
    outcome_foldlM_readLine.2 ⟨hkinds, dates, hdates, rfl⟩
  rw [readRequest_eq_foldlM, hlines, List.foldlM_append, bind_assoc,
    Calculation.outcome_bind_ok hbefore, List.foldlM_cons, readLine_of_neither hnot hnor]
  rfl

/-- **Which texts of one rule are read, and as what.**  Each line is taken for a date line when it
starts with DTSTART, and else for a rule line when it starts with RRULE or has FREQ= anywhere; the
first line of neither kind is refused.  All date lines have to be read and add up; of the rule lines
only the last one is looked at, whatever its property is. -/
theorem readRequest_accepts :
    ((readRequest ctx text).outcome answers = .ok r ↔
      ∃ dates rule q, AreSorted ctx answers ((plainLines text).map trim) dates rule ∧
        (readRuleLine ctx rule (calendarOf dates)).outcome answers = .ok q ∧
        r = requestOf dates q) ∧
    ∀ (before after : List (List Char)) (line : List Char) (dates : List DateLine),
      (plainLines text).map trim = before ++ line :: after →
      (∀ l ∈ before, looksLikeDates l = true ∨ looksLikeRule l = true) →
      DatesAreReadAs ctx answers before dates →
      looksLikeDates line = false → looksLikeRule line = false →
      (readRequest ctx text).outcome answers = .error (.unsupportedLine (String.ofList line)) :=
  ⟨readRequest_eq_ok_iff, fun _ _ _ _ hlines hkinds hdates hnot hnor =>
    readRequest_of_neither hlines hkinds hdates hnot hnor⟩

/-- A line of another property stops the reading, and only the last of the rule lines is read. -/
theorem readRequest_accepts_lastRule :
    (∃ r, (readRequest .hostless "RRULE:BYWEEK=7\nRRULE:FREQ=YEARLY".toList).outcome .unknown =
      .ok r) ∧
    (readRequest .hostless "RDATE:14460902\nRRULE:FREQ=YEARLY".toList).outcome .unknown =
      .error (.unsupportedLine "RDATE:14460902") := by
  have hsorted : AreSorted .hostless .unknown
      ((plainLines "RRULE:BYWEEK=7\nRRULE:FREQ=YEARLY".toList).map trim) []
      "RRULE:FREQ=YEARLY".toList :=
    ⟨by decide +kernel, .nil, by decide +kernel⟩
  refine ⟨⟨_, readRequest_accepts.1.2 ⟨_, _, _, hsorted, rfl, rfl⟩⟩, ?_⟩
  exact (@readRequest_accepts _ _ _ Request.empty).2 [] ["RRULE:FREQ=YEARLY".toList]
    "RDATE:14460902".toList [] (by decide +kernel) (by simp) .nil (by decide +kernel)
    (by decide +kernel)

/-- A line of excluding rules is read as a rule, and a rule line before the last one is dropped. -/
theorem readRequest_excludingRule :
    propertyName "EXRULE:FREQ=DAILY;COUNT=1".toList = "EXRULE".toList ∧
    (∃ r, (readRequest .hostless "EXRULE:FREQ=DAILY;COUNT=1".toList).outcome .unknown = .ok r ∧
      r.value .frequency = .int 3 ∧ r.value .count = .int 1) ∧
    ∃ r, (readRequest .hostless "RRULE:FREQ=DAILY;COUNT=1\nRRULE:FREQ=YEARLY".toList).outcome
      .unknown = .ok r ∧ r.value .frequency = .int 0 ∧ r.value .count = .null :=
  ⟨rfl, ⟨_, rfl, rfl, rfl⟩, ⟨_, rfl, rfl, rfl⟩⟩

end HijriRecurrence.RuleText
