import HijriRecurrence.Proofs.RuleText.LineKinds
import HijriRecurrence.Proofs.RuleText.PartValues
import HijriRecurrence.Proofs.RuleText.RoundTrip
import HijriRecurrence.Recurrence.Text
import Mathlib.Data.List.DropRight

/-!
# A text of one rule, read in two ways

A text of one rule line, with a date line before or after it or without one, can be read as a rule
(`Rule.ofText`) and as any recurrence (`RuleText.read`).  The two sort the lines by different tests
and put together the request from them in a different order.  They come to the same failure or to
the same options, except for one: the time zone of the date line is kept in the one and dropped in
the other (`outcome_ofText_read`).

* `readRequest_eq`, `read_eq` — the two as one sequence of steps, however the lines are ordered;
* `merge_eq_override` — the requests that they put together differ in the time zone alone;
* `ofRequest_set_timeZone` — options hang on the time zone of a request in one place only.
-/

namespace HijriRecurrence

open Text

variable {ctx : Context} {answers : Answers}

/-! ### Blank texts -/

namespace Text

/-- Trimming leaves nothing of a text of blanks, and of no other. -/
theorem trim_eq_nil_iff {text : List Char} : trim text = [] ↔ ∀ c ∈ text, isBlank c = true := by
  rw [trim, trimRight, List.reverse_eq_nil_iff, List.dropWhile_eq_nil_iff]
  simp only [List.mem_reverse]
  rw [← List.dropWhile_eq_nil_iff, List.dropWhile_idempotent isBlank text,
    List.dropWhile_eq_nil_iff]

/-- The characters of a line are the text's. -/
theorem mem_of_mem_lines {text line : List Char} (h : line ∈ lines text) {c : Char}
    (hc : c ∈ line) : c ∈ text := by
  induction text using lines.induct generalizing line with
  | case1 => exact absurd h List.not_mem_nil
  | case2 rest ih =>
    rcases List.mem_cons.1 h with rfl | hmem
    · exact absurd hc List.not_mem_nil
    · exact List.mem_cons_of_mem _ (List.mem_cons_of_mem _ (ih hmem hc))
  | case3 d rest hpair hd ih =>
    rw [lines.eq_3 d rest hpair, if_pos hd] at h
    rcases List.mem_cons.1 h with rfl | hmem
    · exact absurd hc List.not_mem_nil
    · exact List.mem_cons_of_mem d (ih hmem hc)
  | case4 d rest hpair hd ih =>
    rw [lines.eq_3 d rest hpair, if_neg hd] at h
    rcases mem_consFirst h with ⟨tail, rfl, htail⟩ | hmem
    · rcases List.mem_cons.1 hc with rfl | hc
      · exact List.mem_cons_self
      · rcases htail with rfl | htail
        · exact absurd hc List.not_mem_nil
        · exact List.mem_cons_of_mem d (ih htail hc)
    · exact List.mem_cons_of_mem d (ih hmem hc)

/-- What stands before the first separator is a front of the text. -/
theorem cutAt_fst_front (separator : Char) (text : List Char) :
    (cutAt separator text).1 <+: text := by
  induction text with
  | nil => exact List.nil_prefix
  | cons c rest ih =>
    rw [cutAt]
    split
    · exact List.nil_prefix
    · exact (List.prefix_cons_inj c).2 ih

end Text

namespace RuleText

/-! ### Lines -/

theorem sortLines_eq_foldlM (p : Properties) (texts : List (List Char)) :
    sortLines ctx p texts = (texts.map trim).foldlM (sortLine ctx) p := by
  induction texts generalizing p with
  | nil => rfl
  | cons line rest ih =>
    rw [sortLines, List.map_cons, List.foldlM_cons]
    exact congrArg _ (funext fun next => ih next)

/-- A text with a line that is not blank is not blank. -/
theorem not_blank_of_plainLines {text : List Char} (h : plainLines text ≠ []) :
    (trim text).isEmpty = false := by
  by_contra hblank
  have hblank := trim_eq_nil_iff.1 (List.isEmpty_iff.1 (by simpa using hblank))
  refine h (List.filter_eq_nil_iff.2 fun line hline => ?_)
  have hempty : trim line = [] :=
    trim_eq_nil_iff.2 fun c hc => hblank c (mem_of_mem_lines hline hc)
  simp [hempty]

/-- A line that says on which date rules start. -/
def IsStartLine (line : List Char) : Prop := propertyName line = "DTSTART".toList

/-- A line that says a rule: under its property name, or without any when it says how often the rule
recurs. -/
structure IsRuleLine (line : List Char) : Prop where
  property : propertyName line = "RRULE".toList
  kind : ("RRULE".toList.isPrefixOf (upper line) || occursIn "FREQ=".toList (upper line)) = true
  no_start : "DTSTART".toList.isPrefixOf (upper line) = false

/-- A text of one rule line, and of a date line before or after it, or of none. -/
structure IsSingleRule (text : List Char) (start : Option (List Char)) (rule : List Char) :
    Prop where
  lines : (plainLines text).map trim = start.toList ++ [rule] ∨
    (plainLines text).map trim = rule :: start.toList
  start : ∀ line ∈ start, IsStartLine line
  rule : IsRuleLine rule

theorem isPrefixOf_of_isStartLine {line : List Char} (h : IsStartLine line) :
    "DTSTART".toList.isPrefixOf (upper line) = true := by
  unfold IsStartLine propertyName at h
  split at h
  · exact absurd h (by decide)
  · rename_i head value hcut
    have hhead : head <+: line := by
      have hfront := cutAt_fst_front ':' line
      rwa [hcut] at hfront
    obtain ⟨rest, hrest⟩ := (cutAt_fst_front ';' head).trans hhead
    rw [← hrest]
    exact RuleOptions.isPrefixOf_upper_append (h ▸ List.prefix_refl _) rest

/-- A line that both ways of reading take for a date line. -/
theorem readLine_of_isStartLine {line : List Char} (h : IsStartLine line) (state : Progress) :
    readLine ctx state line = (do
      let dateLine ← readDateLine ctx line none
      return { state with
        request := dateLine.addTo state.request
        calendar := dateLine.calendar }) :=
  readLine_of_looksLikeDates (isPrefixOf_of_isStartLine h) state

theorem sortLine_of_isStartLine {line : List Char} (h : IsStartLine line) (p : Properties) :
    sortLine ctx p line = (do
      let dateLine ← readDateLine ctx line none
      return { p with
        start := match dateLine.dates with
          | first :: _ => .lunar first
          | [] => p.start
        calendar := dateLine.calendar }) := by
  unfold IsStartLine at h
  rw [sortLine, h]
  rfl

/-- A line that both ways of reading take for a rule. -/
theorem readLine_of_isRuleLine {line : List Char} (h : IsRuleLine line) (state : Progress) :
    readLine ctx state line = pure { state with ruleLine := some line } := by
  refine readLine_of_looksLikeRule ?_ state
  rw [looksLikeRule, looksLikeDates, h.no_start, h.kind]
  rfl

theorem sortLine_of_isRuleLine {line : List Char} (h : IsRuleLine line) (p : Properties) :
    sortLine ctx p line = pure { p with ruleLines := p.ruleLines ++ [line] } := by
  rw [sortLine, h.property]
  rfl

/-! ### The two readings -/

def readStartLine (ctx : Context) (start : Option (List Char)) : Calculation DateLine :=
  match start with
  | none => pure ⟨[], none, none⟩
  | some line => readDateLine ctx line none

variable {text rule : List Char} {start : Option (List Char)}

/-- A text with a rule in it is not blank. -/
theorem IsSingleRule.not_blank (h : IsSingleRule text start rule) :
    (trim text).isEmpty = false := by
  refine not_blank_of_plainLines fun hnone => ?_
  rcases h.lines with hlines | hlines <;> simp [hnone] at hlines

/-- **The lines of a text of one rule come to the same in either order,** where it makes no difference
whether a step takes the date line or the rule line first. -/
theorem IsSingleRule.foldlM_eq {σ : Type} {step : σ → List Char → Calculation σ}
    {onStart : σ → DateLine → σ} {onRule : σ → σ} (h : IsSingleRule text start rule) (s : σ)
    (hstart : ∀ s line, IsStartLine line → step s line = (do
      let d ← readDateLine ctx line none
      return onStart s d))
    (hrule : ∀ s, step s rule = pure (onRule s))
    (hswap : ∀ s d, onStart (onRule s) d = onRule (onStart s d))
    (hnone : onStart s ⟨[], none, none⟩ = s) :
    ((plainLines text).map trim).foldlM step s = (do
      let d ← readStartLine ctx start
      return onRule (onStart s d)) := by
  cases start with
  | none =>
    have hlines : (plainLines text).map trim = [rule] := h.lines.elim id id
    rw [hlines, readStartLine, pure_bind, hnone]
    simp only [List.foldlM_cons, List.foldlM_nil, hrule, pure_bind]
  | some line =>
    have hline := fun s => hstart s line (h.start line rfl)
    rw [readStartLine]
    rcases h.lines with hlines | hlines
    · simp only [hlines, Option.toList_some, List.cons_append, List.nil_append, List.foldlM_cons,
        List.foldlM_nil, hline, hrule, bind_assoc, pure_bind]
    · simp only [hlines, Option.toList_some, List.foldlM_cons, List.foldlM_nil, hline, hrule, hswap,
        bind_assoc, pure_bind]

/-- The request of a text of one rule, step by step. -/
theorem readRequest_eq (h : IsSingleRule text start rule) :
    readRequest ctx text = (do
      let d ← readStartLine ctx start
      let r ← readRuleLine ctx rule d.calendar
      return (d.addTo Request.empty).merge r.given) := by
  rw [readRequest_eq_foldlM, h.foldlM_eq {} (fun state line hline => readLine_of_isStartLine hline state)
    (readLine_of_isRuleLine h.rule) (fun _ _ => rfl) rfl, bind_assoc]
  simp only [pure_bind]
  rfl

/-- What the lines of a text of one rule say, sorted by kind. -/
def DateLine.properties (d : DateLine) (rule : List Char) : Properties where
  start := match d.dates with
    | first :: _ => .lunar first
    | [] => .null
  calendar := d.calendar
  ruleLines := [rule]

theorem sortLines_eq (h : IsSingleRule text start rule) :
    sortLines ctx {} (plainLines text) = (do
      let d ← readStartLine ctx start
      return d.properties rule) := by
  rw [sortLines_eq_foldlM, h.foldlM_eq {} (fun p line hline => sortLine_of_isStartLine hline p)
    (sortLine_of_isRuleLine h.rule) (fun _ _ => rfl) rfl]
  rfl

theorem buildRule_properties (d : DateLine) (keepsMemo : Bool) :
    buildRule ctx { keepsMemo } (d.properties rule) rule = (do
      let r ← readRuleLine ctx rule d.calendar
      Rule.ofRequest ctx (d.override r) keepsMemo) := by
  obtain ⟨dates, calendar, timeZone⟩ := d
  cases dates <;> cases calendar <;> rfl

/-- The recurrence of a text of one rule, step by step. -/
theorem read_eq (h : IsSingleRule text start rule) (keepsMemo : Bool) :
    read ctx text { keepsMemo } = (do
      let d ← readStartLine ctx start
      let r ← readRuleLine ctx rule d.calendar
      let found ← Rule.ofRequest ctx (d.override r) keepsMemo
      return .rule found) := by
  rw [read, h.not_blank]
  show (sortLines ctx {} (plainLines text) >>= fun p => _) = _
  rw [sortLines_eq h, bind_assoc]
  refine congrArg _ (funext fun d => ?_)
  -- one rule line does not need a set
  rw [pure_bind]
  show (buildRule ctx { keepsMemo } (d.properties rule) rule >>= _) = _
  rw [buildRule_properties, bind_assoc]

/-! ### What the requests have in common -/

/-- The time zone that a date line names, as a value; an empty name is none. -/
def DateLine.zone (d : DateLine) : Value :=
  match d.timeZone with
  | some zone => if zone.isEmpty then .null else .str zone
  | none => .null

variable {r r' : Request} {name : OptionName}

/-- What a date line does not give stays as it is. -/
theorem value_override_congr (d : DateLine) (h : r.value name = r'.value name) :
    (d.override r).value name = (d.override r').value name := by
  obtain ⟨dates, calendar, timeZone⟩ := d
  cases dates <;> cases calendar <;> simp only [DateLine.override, Request.set, h]

theorem value_addTo_empty (d : DateLine) : (d.addTo Request.empty).value .timeZone = d.zone := by
  have hnone : (d.override Request.empty).value .timeZone = .null :=
    value_override_of_ne d _ (by decide) (by decide)
  unfold DateLine.addTo DateLine.zone
  cases d.timeZone with
  | none => exact hnone
  | some zone =>
    dsimp only
    split
    · exact hnone
    · exact Request.value_set_self _ _ _

/-- **The two requests differ in the time zone alone.**  The one takes the date line's where the
rule line gives none. -/
theorem merge_eq_override (d : DateLine) (hstart : r.value .start = .null)
    (hcalendar : r.value .calendar = .null) :
    (d.addTo Request.empty).merge r.given = (d.override r).set .timeZone
      (if (r.value .timeZone).isNull then d.zone else r.value .timeZone) := by
  have hvalue (name : OptionName) : ((d.addTo Request.empty).merge r.given).value name =
      ((d.override r).set .timeZone
        (if (r.value .timeZone).isNull then d.zone else r.value .timeZone)).value name := by
    rw [Request.value_merge_given]
    by_cases hzone : name = .timeZone
    · rw [hzone, value_addTo_empty, Request.value_set_self]
    · rw [value_addTo_of_ne d _ hzone, Request.value_set_of_ne _ _ hzone]
      split
      · rename_i hnull
        have hnone : Request.empty.value name = r.value name := (Value.isNull_iff.1 hnull).symm
        exact value_override_congr d hnone
      · -- the rule line gives the option, so the date line does not
        rename_i hgiven
        refine (value_override_of_ne d r ?_ ?_).symm
        · rintro rfl
          exact hgiven (Value.isNull_iff.2 hstart)
        · rintro rfl
          exact hgiven (Value.isNull_iff.2 hcalendar)
  exact congrArg Request.mk (funext hvalue)

end RuleText

/-- Options in another time zone. -/
def RuleOptions.inZone (o : RuleOptions) (zone : Value) : RuleOptions :=
  { o with timeZone := if zone.truthy then zone else .null }

/-- Options hang on the time zone of a request in one place only. -/
theorem RuleOptions.ofRequest_set_timeZone (r : Request) (zone : Value) :
    ofRequest ctx (r.set .timeZone zone) = (do
      let o ← ofRequest ctx r
      return o.inZone zone) := by
  have hother {name : OptionName} (h : name ≠ .timeZone) :
      (r.set .timeZone zone).value name = r.value name := Request.value_set_of_ne r zone h
  have hints {name : OptionName} (h : name ≠ .timeZone) (bounds : Bounds) :
      readInts ctx (r.set .timeZone zone) name bounds = readInts ctx r name bounds := by
    rw [readInts, readInts, hother h]
  unfold ofRequest
  simp only [ne_eq, reduceCtorEq, not_false_eq_true, hother, hints, Request.value_set_self,
    bind_assoc, pure_bind]
  rfl

/-- Options are in the time zone that their request names. -/
theorem RuleOptions.inZone_of_ofRequest {r : Request} {o : RuleOptions}
    (h : (ofRequest ctx r).outcome answers = .ok o) : o.inZone (r.value .timeZone) = o := by
  have hsame : r.set .timeZone (r.value .timeZone) = r := by
    refine congrArg Request.mk (funext fun name => ?_)
    show (r.set .timeZone (r.value .timeZone)).value name = r.value name
    by_cases hname : name = .timeZone
    · rw [hname, Request.value_set_self]
    · exact Request.value_set_of_ne r _ hname
  have hboth : (ofRequest ctx r).outcome answers = .ok (o.inZone (r.value .timeZone)) := by
    conv_lhs => rw [← hsame]
    rw [ofRequest_set_timeZone, Calculation.outcome_bind_ok h]
    rfl
  exact Except.ok.inj (hboth.symm.trans h)

namespace RuleText

variable {text rule : List Char} {start : Option (List Char)}

/-- The time zone of a date line is none exactly when it does not count. -/
theorem DateLine.truthy_zone (d : DateLine) : d.zone.truthy = !d.zone.isNull := by
  unfold DateLine.zone
  split
  · split
    · rfl
    · rename_i hne
      simpa [Value.truthy, Value.isNull] using hne
  · rfl

/-- The two zones that options can be put in come to the same exactly when the rule line names one
or the date line names none. -/
theorem inZone_eq_inZone_iff (o : RuleOptions) (d : DateLine) (zone : Value) :
    o.inZone (if zone.isNull then d.zone else zone) = o.inZone zone ↔
      zone.isNull = false ∨ d.zone = .null := by
  by_cases hnull : zone.isNull = true
  · obtain rfl := Value.isNull_iff.1 hnull
    have hzone : (if d.zone.truthy then d.zone else .null) = d.zone := by
      rw [d.truthy_zone]
      split
      · rfl
      · rename_i hzone
        exact (Value.isNull_iff.1 (by simpa using hzone)).symm
    rw [if_pos hnull]
    simp only [RuleOptions.inZone, hzone, RuleOptions.mk.injEq, true_and, and_true]
    exact ⟨.inr, fun h => h.resolve_left nofun⟩
  · rw [if_neg hnull]
    exact iff_of_true rfl (.inl (by simpa using hnull))

/-- **A text of one rule is read alike in both ways, up to the time zone of its date line.**  Either
both fail, for the same reason, or both succeed and keep a memo alike.  The options are then the
same but for the time zone: both take that of the rule line, and where it gives none the one takes
that of the date line and the other takes none.  So they are the same throughout exactly when the
rule line gives a time zone or the date line gives none. -/
theorem outcome_ofText_read (h : IsSingleRule text start rule) (keepsMemo : Bool) :
    (∃ e, (Rule.ofText ctx (String.ofList text) keepsMemo).outcome answers = .error e ∧
      (read ctx text { keepsMemo }).outcome answers = .error e) ∨
    ∃ d q r s, (readStartLine ctx start).outcome answers = .ok d ∧
      (readRuleLine ctx rule d.calendar).outcome answers = .ok q ∧
      (Rule.ofText ctx (String.ofList text) keepsMemo).outcome answers = .ok r ∧
      (read ctx text { keepsMemo }).outcome answers = .ok (.rule s) ∧
      r.memo = s.memo ∧
      r.options = s.options.inZone
        (if (q.value .timeZone).isNull then d.zone else q.value .timeZone) ∧
      s.options = s.options.inZone (q.value .timeZone) ∧
      (r.options = s.options ↔ (q.value .timeZone).isNull = false ∨ d.zone = .null) := by
  rw [Rule.ofText, String.toList_ofList, readRequest_eq h, read_eq h]
  simp only [bind_assoc, pure_bind]
  cases hd : (readStartLine ctx start).outcome answers with
  | error e =>
    left
    exact ⟨e, by rw [Calculation.outcome_bind, hd]; rfl,
      by rw [Calculation.outcome_bind, hd]; rfl⟩
  | ok d =>
    simp only [Calculation.outcome_bind_ok hd]
    cases hq : (readRuleLine ctx rule d.calendar).outcome answers with
    | error e =>
      left
      exact ⟨e, by rw [Calculation.outcome_bind, hq]; rfl,
        by rw [Calculation.outcome_bind, hq]; rfl⟩
    | ok q =>
      have hgiven := givenByParts_readRuleLine hq
      have hstart : q.value .start = .null := hgiven.eq_null (by decide)
      have hcalendar : q.value .calendar = .null := hgiven.eq_null (by decide)
      simp only [Calculation.outcome_bind_ok hq, merge_eq_override d hstart hcalendar,
        Rule.ofRequest, RuleOptions.ofRequest_set_timeZone, bind_assoc, pure_bind]
      cases ho : (RuleOptions.ofRequest ctx (d.override q)).outcome answers with
      | error e =>
        left
        exact ⟨e, by rw [Calculation.outcome_bind, ho]; rfl,
          by rw [Calculation.outcome_bind, ho]; rfl⟩
      | ok o =>
        right
        simp only [Calculation.outcome_bind_ok ho]
        have hzone : o.inZone (q.value .timeZone) = o := by
          have hsame : (d.override q).value .timeZone = q.value .timeZone :=
            value_override_of_ne d q (by decide) (by decide)
          exact hsame ▸ RuleOptions.inZone_of_ofRequest ho
        refine ⟨d, q, _, _, rfl, hq, rfl, rfl, rfl, rfl, hzone.symm, ?_⟩
        rw [← inZone_eq_inZone_iff o d, hzone]

def startInRiyadh : List Char := "DTSTART;CALENDAR=HIJRI-TABULAR;TZID=Asia/Riyadh:14460901".toList

def onOneDay : List Char := "RRULE:FREQ=DAILY;COUNT=1".toList

def onOneDayInAden : List Char := "RRULE:FREQ=DAILY;COUNT=1;TZID=Asia/Aden".toList

theorem isStartLine_startInRiyadh : IsStartLine startInRiyadh := by
  unfold IsStartLine
  decide +kernel

/-- A time zone of the rule line is all that counts, here in front of the date line. -/
theorem outcome_ofText_read_inAden :
    IsSingleRule (onOneDayInAden ++ '\n' :: startInRiyadh) (some startInRiyadh) onOneDayInAden ∧
      ∃ r s, (Rule.ofText .hostless (String.ofList (onOneDayInAden ++ '\n' :: startInRiyadh))
          true).outcome .unknown = .ok r ∧
        (read .hostless (onOneDayInAden ++ '\n' :: startInRiyadh) { keepsMemo := true }).outcome
          .unknown = .ok (.rule s) ∧
        r.memo = s.memo ∧ r.options = s.options := by
  have hsingle :
      IsSingleRule (onOneDayInAden ++ '\n' :: startInRiyadh) (some startInRiyadh)
        onOneDayInAden := by
    refine ⟨.inr (by decide +kernel), ?_, ⟨by decide +kernel, by decide +kernel, by decide +kernel⟩⟩
    exact fun line hline => Option.some.inj hline ▸ isStartLine_startInRiyadh
  refine ⟨hsingle, ?_⟩
  rcases @outcome_ofText_read .hostless .unknown _ _ _ hsingle true with
    ⟨e, hfail, -⟩ | ⟨d, q, r, s, hd, hq, hr, hs, hmemo, -, -, hsame⟩
  · rw [Rule.ofText, String.toList_ofList] at hfail
    cases hfail
  · have hzone : ((readRuleLine .hostless onOneDayInAden d.calendar).outcome .unknown).map
        (fun q => (q.value .timeZone).isNull) = .ok false := by
      rw [← Except.ok.inj hd]
      rfl
    rw [hq] at hzone
    exact ⟨r, s, hr, hs, hmemo, hsame.2 (.inl (Except.ok.inj hzone))⟩

/-- What the rule lines ask for, from the first of Ramadan 1446 on and without a time zone. -/
def oneDay : RuleOptions where
  frequency := .daily
  start := { year := 1446, month := 9, day := 1, variant := .tabular }
  count := some 1
  variant := .tabular

/-- The time zone of a date line is kept in the one reading and dropped in the other. -/
theorem ofText_ne_read_inRiyadh :
    IsSingleRule (startInRiyadh ++ '\n' :: onOneDay) (some startInRiyadh) onOneDay ∧
      (Rule.ofText .hostless (String.ofList (startInRiyadh ++ '\n' :: onOneDay)) true).outcome
        .unknown = .ok { options := { oneDay with timeZone := .str "Asia/Riyadh" } } ∧
      (read .hostless (startInRiyadh ++ '\n' :: onOneDay) { keepsMemo := true }).outcome .unknown =
        .ok (.rule { options := oneDay }) ∧
      ({ oneDay with timeZone := .str "Asia/Riyadh" } : RuleOptions) ≠ oneDay := by
  have hsingle :
      IsSingleRule (startInRiyadh ++ '\n' :: onOneDay) (some startInRiyadh) onOneDay := by
    refine ⟨.inl (by decide +kernel), ?_, ⟨by decide +kernel, by decide +kernel, by decide +kernel⟩⟩
    exact fun line hline => Option.some.inj hline ▸ isStartLine_startInRiyadh
  refine ⟨hsingle, ?_, rfl, fun hsame => ?_⟩
  · rw [Rule.ofText, String.toList_ofList]
    rfl
  · exact absurd (congrArg RuleOptions.timeZone hsame) (by simp [oneDay])

end RuleText

end HijriRecurrence
