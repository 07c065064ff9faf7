import HijriRecurrence.Proofs.Observed.Estimate
import HijriRecurrence.Proofs.Observed.Search
import HijriRecurrence.Proofs.RuleText.LineKinds
import HijriRecurrence.Proofs.RuleText.PartValues
import HijriRecurrence.Proofs.Tabular.Date

/-!
# How reading a text of one rule fails

Whatever is wrong with a text, it is refused as a rule text, with one exception.  A date that is
written properly but cannot be built (`BuildFailure`) is refused as part of a rule line.  In a date
line it is not: there the failure of building goes out as it is (`readRequest_fails_iff`).

* `buildFailure_iff` — how building a date from its compact form fails;
* `isRefusal_of_readForm` — whatever fails in a rule line is turned into a refusal;
* `readDateLine_fails_iff`, `readRequest_fails` — the failures that are not.

Month lengths are those that a search finds.
-/

namespace HijriRecurrence

open Text

variable {ctx : Context} {e : Error}

/-! ### The length of a month -/

namespace Observed

variable {host : Host} {year month : Int}

/-- The length of a month of a year of four digits is found, or there is no day to be found, or the
search goes beyond the last civil date. -/
theorem error_of_probeMonth (hy : 1 ≤ year ∧ year ≤ 9999) (hm : 1 ≤ month ∧ month ≤ 12)
    (h : probeMonth host year month = .error e) :
    e = .noCivilDay ⟨year, month, 29⟩ ∨
      ∃ n, lastCivilOrdinal < n ∧ n ≤ Error.lastWord ∧ e = .civilBeyondEnd n := by
  have hsearch {day : Int} (hd : 29 ≤ day ∧ day ≤ 30) {e : Error}
      (h : toCivil host ⟨year, month, day⟩ = .error e) :
      e = .noCivilDay ⟨year, month, day⟩ ∨
        ∃ n, lastCivilOrdinal < n ∧ n ≤ Error.lastWord ∧ e = .civilBeyondEnd n := by
    obtain ⟨expected, hexpected, -, hbound⟩ :=
      @estimate_spec ⟨year, month, day⟩ ⟨hy.1, by dsimp only; omega⟩ hm (by dsimp only; omega)
    rw [toCivil_of_inShape ⟨hy.1, hm, by dsimp only; omega, hd.2⟩] at h
    refine (error_of_search hexpected h).imp_right ?_
    rintro ⟨n, hend, hn, he⟩
    refine ⟨n, hend, ?_, he⟩
    unfold meanMillionths epochOrdinal at hbound
    unfold searchWindow at hn
    unfold Error.lastWord
    dsimp only at hbound
    omega
  unfold probeMonth at h
  split at h
  · cases h
  · rename_i e' h30
    rcases hsearch (by omega) h30 with rfl | ⟨n, hend, hn, rfl⟩
    · have hkind : (Error.noCivilDay ⟨year, month, 30⟩).kind = .conversionFailure := rfl
      rw [if_pos hkind] at h
      cases h29 : toCivil host ⟨year, month, 29⟩ with
      | ok g =>
        rw [h29] at h
        cases h
      | error e' =>
        rw [h29] at h
        obtain rfl := Except.error.inj h
        exact hsearch (by omega) h29
    · have hkind : (Error.civilBeyondEnd n).kind ≠ .conversionFailure := by
        simp [Error.kind, hn]
      rw [if_neg hkind] at h
      exact .inr ⟨n, hend, hn, (Except.error.inj h).symm⟩

end Observed

/-! ### Building a date -/

namespace LunarDate

variable {d : LunarDate}

/-- Why a date is not built although its parts could be those of a date: the year is 0, the month
lacks the day, or the observed calendar does not tell how long the month is. -/
inductive BuildFailure (ctx : Context) (d : LunarDate) : Error → Prop where
  | yearZero (h : d.year = 0) : BuildFailure ctx d (.beforeFirstYear (.int 0))
  | missingDay {length : Int} (hrange : d.InRange)
      (hlength : (d.daysInMonth ctx).outcome (Observed.answers ctx.host) = .ok (.whole length))
      (hday : length < d.day) :
      BuildFailure ctx d (.dayNotInMonth d.toLunarDay (.int length) d.variant)
  | unknownMonth (hrange : d.InRange)
      (hlength : (d.daysInMonth ctx).outcome (Observed.answers ctx.host) =
        .error (.noCivilDay ⟨d.year, d.month, 29⟩)) :
      BuildFailure ctx d (.noCivilDay ⟨d.year, d.month, 29⟩)
  | beyondCivil {n : Int} (hrange : d.InRange)
      (hn : lastCivilOrdinal < n ∧ n ≤ Error.lastWord)
      (hlength : (d.daysInMonth ctx).outcome (Observed.answers ctx.host) =
        .error (.civilBeyondEnd n)) :
      BuildFailure ctx d (.civilBeyondEnd n)

/-- The kinds of failures to build a date. -/
theorem BuildFailure.kind (h : BuildFailure ctx d e) :
    e.kind = .outOfRange ∨ e.kind = .invalidDate ∨ e.kind = .conversionFailure ∨
      e.kind = .badValue := by
  cases h with
  | yearZero => exact .inl rfl
  | missingDay => exact .inr (.inl rfl)
  | unknownMonth => exact .inr (.inr (.inl rfl))
  | beyondCivil hrange hn => exact .inr (.inr (.inr (by simp [Error.kind, hn.2])))

/-- A check that throws at once fails so, or later. -/
theorem guard_eq_error {p : Prop} [Decidable p] {error : Error} {next : Except Error Unit} :
    (if p then (throw error : Except Error Unit) >>= fun _ => next else pure () >>= fun _ => next) =
      .error e ↔ p ∧ e = error ∨ ¬p ∧ next = .error e := by
  by_cases hp : p <;>
    simp [hp, throw, throwThe, MonadExceptOf.throw, bind, Except.bind, pure, Except.pure, eq_comm]

/-- Parts out of their ranges are invalid input, but for a year before the first one. -/
theorem checkParts_eq_error (h : d.checkParts = .error e) :
    d.year < 1 ∧ e = .beforeFirstYear (.int d.year) ∨ e.kind = .invalidInput := by
  unfold checkParts at h
  rcases guard_eq_error.1 h with hyear | ⟨-, h⟩
  · exact .inl hyear
  refine .inr ?_
  rcases guard_eq_error.1 h with ⟨-, rfl⟩ | ⟨-, h⟩
  · rfl
  rcases guard_eq_error.1 h with ⟨-, rfl⟩ | ⟨-, h⟩
  · rfl
  rcases guard_eq_error.1 h with ⟨-, rfl⟩ | ⟨-, h⟩
  · rfl
  rcases guard_eq_error.1 h with ⟨-, rfl⟩ | ⟨-, h⟩
  · rfl
  split at h
  · obtain rfl := Except.error.inj h
    rfl
  · cases h

theorem checkParts_of_year (h : d.year < 1) :
    d.checkParts = .error (.beforeFirstYear (.int d.year)) := by
  unfold checkParts
  exact guard_eq_error.2 (.inl ⟨h, rfl⟩)

/-- The month of a date whose parts are in their ranges has a length that is a whole number, or the
observed calendar does not tell it. -/
theorem daysInMonth_cases (ctx : Context) (hd : d.InRange) (hy : d.year ≤ 9999) :
    (∃ length, (d.daysInMonth ctx).outcome (Observed.answers ctx.host) = .ok (.whole length)) ∨
      ∃ e, (d.daysInMonth ctx).outcome (Observed.answers ctx.host) = .error e ∧
        (e = .noCivilDay ⟨d.year, d.month, 29⟩ ∨
          ∃ n, lastCivilOrdinal < n ∧ n ≤ Error.lastWord ∧ e = .civilBeyondEnd n) := by
  rw [daysInMonth, calendar, Context.serve]
  cases ctx.resolve d.variant with
  | tabular => exact .inl ⟨_, Tabular.outcome_monthLength hd.month⟩
  | ummAlQura =>
    show (∃ length, (Observed.monthLength d.year d.month).outcome _ = _) ∨
      ∃ e, (Observed.monthLength d.year d.month).outcome _ = _ ∧ _
    rw [Observed.outcome_monthLength hd.month]
    cases hprobe : Observed.probeMonth ctx.host d.year d.month with
    | ok length => exact .inl ⟨length, rfl⟩
    | error e => exact .inr ⟨e, rfl, Observed.error_of_probeMonth ⟨hd.year, hy⟩ hd.month hprobe⟩

theorem checkDay_eq : d.checkDay ctx = (do
    let length ← d.daysInMonth ctx
    let fits ← (Quantity.whole d.day).atMost length
    if !fits then throw (Error.dayNotInMonth d.toLunarDay length.value d.variant)) := by
  rw [checkDay, daysInMonth, bind_assoc]

theorem outcome_checkDay_of_whole {answers : Answers} {length : Int}
    (h : (d.daysInMonth ctx).outcome answers = .ok (.whole length)) :
    (d.checkDay ctx).outcome answers =
      if d.day ≤ length then .ok ()
      else .error (.dayNotInMonth d.toLunarDay (.int length) d.variant) := by
  rw [checkDay_eq, Calculation.outcome_bind_ok h, Quantity.whole_atMost_whole]
  by_cases hday : d.day ≤ length
  · rw [if_pos hday, decide_eq_true hday]
    rfl
  · rw [if_neg hday, decide_eq_false hday]
    rfl

theorem outcome_checkDay_of_error {answers : Answers}
    (h : (d.daysInMonth ctx).outcome answers = .error e) :
    (d.checkDay ctx).outcome answers = .error e := by
  rw [checkDay_eq, Calculation.outcome_bind_eq_error]
  exact .inl h

/-- Building fails at the parts of a date or else at its day. -/
theorem outcome_build_eq_error {answers : Answers} :
    (build ctx d).outcome answers = .error e ↔
      d.checkParts = .error e ∨ d.InRange ∧ (d.checkDay ctx).outcome answers = .error e := by
  rw [build, Calculation.outcome_bind_eq_error, Calculation.outcome_liftM]
  refine or_congr_right ?_
  simp only [Calculation.outcome_bind_eq_error, Calculation.outcome_pure, reduceCtorEq, and_false,
    exists_false, or_false, ← checkParts_eq_ok]
  constructor
  · rintro ⟨⟨⟩, hparts, hday⟩
    exact ⟨hparts, hday⟩
  · rintro ⟨hparts, hday⟩
    exact ⟨(), hparts, hday⟩

/-- **How building a date fails that has no part of the wrong kind.** -/
theorem buildFailure_iff (hy : 0 ≤ d.year ∧ d.year ≤ 9999) :
    (build ctx d).outcome (Observed.answers ctx.host) = .error e ∧ e.kind ≠ .invalidInput ↔
      BuildFailure ctx d e := by
  constructor
  · rintro ⟨h, hkind⟩
    rcases outcome_build_eq_error.1 h with hparts | ⟨hd, hday⟩
    · rcases checkParts_eq_error hparts with ⟨hyear, rfl⟩ | hinvalid
      · obtain hzero : d.year = 0 := by omega
        rw [hzero]
        exact .yearZero hzero
      · exact absurd hinvalid hkind
    · rcases daysInMonth_cases ctx hd hy.2 with ⟨length, hlength⟩ | ⟨e', hlength, he⟩
      · rw [outcome_checkDay_of_whole hlength] at hday
        split at hday
        · cases hday
        · obtain rfl := Except.error.inj hday
          exact .missingDay hd hlength (by omega)
      · rw [outcome_checkDay_of_error hlength] at hday
        obtain rfl := Except.error.inj hday
        rcases he with rfl | ⟨n, hend, hn, rfl⟩
        · exact .unknownMonth hd hlength
        · exact .beyondCivil hd ⟨hend, hn⟩ hlength
  · intro h
    refine ⟨outcome_build_eq_error.2 ?_, fun hinvalid => ?_⟩
    · cases h with
      | yearZero hzero =>
        rw [← hzero]
        exact .inl (checkParts_of_year (by omega))
      | missingDay hd hlength hday =>
        rw [outcome_checkDay_of_whole hlength, if_neg (by omega)]
        exact .inr ⟨hd, rfl⟩
      | unknownMonth hd hlength => exact .inr ⟨hd, outcome_checkDay_of_error hlength⟩
      | beyondCivil hd hn hlength => exact .inr ⟨hd, outcome_checkDay_of_error hlength⟩
    · have hkind := h.kind
      rw [hinvalid] at hkind
      simp at hkind

end LunarDate

namespace RuleText

/-! ### Dates of a text -/

open LunarDate

variable {answers : Answers} {text : List Char} {variant : Variant} {d : LunarDate}

/-- The date that the compact form of a text writes, whether or not it exists. -/
def writtenDate? (variant : Variant) (text : List Char) : Option LunarDate :=
  (ruleParts? (trim text)).map fun (day, hour, minute, second) =>
    { day with hour, minute, second, variant }

/-- The year of a written date has four digits at most. -/
theorem year_of_writtenDate? (h : writtenDate? variant text = some d) :
    0 ≤ d.year ∧ d.year ≤ 9999 := by
  obtain ⟨parts, hparts, rfl⟩ := Option.map_eq_some_iff.1 h
  exact year_of_ruleParts? hparts

/-- A date is read by building the one that is written. -/
theorem ofRuleChars_eq (pinned : Option Variant) :
    ofRuleChars ctx text (pinned.map .known) =
      match writtenDate? (pinned.getD ctx.defaultVariant) text with
      | some d => build ctx d
      | none => throw (Error.badDateText (String.ofList text)) := by
  unfold ofRuleChars writtenDate?
  cases ruleParts? (trim text) with
  | none => rfl
  | some parts => cases pinned <;> rfl

/-- Whatever is wrong with a date, it is refused as part of a rule line. -/
theorem isRefusal_of_ofRuleChars {name : Option CalendarName}
    (h : (ofRuleChars ctx text name).outcome (Observed.answers ctx.host) = .error e) :
    e.isRefusal = true := by
  have hinvalid (h : e.kind = .invalidInput) : e.isRefusal = true := by rw [Error.isRefusal, h]
  unfold ofRuleChars at h
  split at h
  · rename_i day hour minute second hparts
    have hyear := year_of_ruleParts? hparts
    have hbuild {variant : Variant}
        (h : (build ctx { day with hour, minute, second, variant }).outcome
          (Observed.answers ctx.host) = .error e) : e.isRefusal = true := by
      by_cases hkind : e.kind = .invalidInput
      · exact hinvalid hkind
      · rcases ((buildFailure_iff hyear).1 ⟨h, hkind⟩).kind with hk | hk | hk | hk <;>
          rw [Error.isRefusal, hk]
    unfold buildNamed at h
    split at h
    · exact hbuild h
    · exact hbuild h
    · rcases Calculation.outcome_bind_eq_error.1 h with h | ⟨_, -, h⟩
      · rw [Calculation.outcome_liftM] at h
        rcases checkParts_eq_error h with ⟨-, rfl⟩ | hkind
        · rfl
        · exact hinvalid hkind
      · obtain rfl := Except.error.inj h
        rfl
  · obtain rfl := Except.error.inj h
    rfl

/-! ### Rule lines -/

theorem isRefusal_of_readWeekdayTokens {tokens : List (List Char)}
    (h : readWeekdayTokens tokens = .error e) : e.isRefusal = true := by
  induction tokens with
  | nil => cases h
  | cons token rest ih =>
    rw [readWeekdayTokens] at h
    cases hw : Weekday.ofToken (.str (String.ofList token)) token with
    | error e' =>
      rw [hw] at h
      obtain rfl := Except.error.inj h
      unfold Weekday.ofToken at hw
      split at hw
      · obtain rfl := Except.error.inj hw
        rfl
      · obtain rfl := Except.error.inj hw
        rfl
      · cases hw
    | ok w =>
      rw [hw] at h
      cases hrest : readWeekdayTokens rest with
      | error e' =>
        rw [hrest] at h
        obtain rfl := Except.error.inj h
        exact ih hrest
      | ok ws =>
        rw [hrest] at h
        cases h

/-- **Whatever is wrong with the value of a part, the part is refused.** -/
theorem isRefusal_of_readForm {name : Option CalendarName} {refusal : Error} {form : PartForm}
    (hrefusal : refusal.isRefusal = true)
    (h : (readForm ctx name refusal form text).outcome (Observed.answers ctx.host) = .error e) :
    e.isRefusal = true := by
  cases form with
  | lastDate =>
    have h' : ((ofRuleChars ctx text name >>= fun d => pure (.lunar d)) :
        Calculation Value).outcome (Observed.answers ctx.host) = .error e := h
    rcases Calculation.outcome_bind_eq_error.1 h' with hdate | ⟨_, -, hdone⟩
    · exact isRefusal_of_ofRuleChars hdate
    · cases hdone
  | weekdays =>
    rcases Calculation.outcome_bind_eq_error.1 h with htokens | ⟨_, -, hdone⟩
    · rw [Calculation.outcome_liftM] at htokens
      exact isRefusal_of_readWeekdayTokens htokens
    · cases hdone
  | timeZone => cases h
  | _ =>
    rw [eq_of_orRefuse_eq_error h]
    exact hrefusal

theorem kind_of_readPart {name : Option CalendarName} {r : Request}
    (h : (readPart ctx name r text).outcome (Observed.answers ctx.host) = .error e) :
    e.kind = .invalidRule := by
  unfold readPart at h
  split at h
  · obtain rfl := Except.error.inj h
    rfl
  · dsimp only at h
    split at h
    · obtain rfl := Except.error.inj h
      rfl
    · rcases Calculation.outcome_bind_eq_error.1 h with hread | ⟨_, -, hdone⟩
      · rw [Calculation.outcome_tryCatch] at hread
        split at hread
        · cases hread
        · rename_i e' he'
          rw [if_pos (isRefusal_of_readForm rfl he')] at hread
          obtain rfl := Except.error.inj hread
          rfl
      · cases hdone

theorem kind_of_readPartsFrom {name : Option CalendarName} {r : Request}
    {texts : List (List Char)}
    (h : (readPartsFrom ctx name r texts).outcome (Observed.answers ctx.host) = .error e) :
    e.kind = .invalidRule := by
  induction texts generalizing r with
  | nil => cases h
  | cons text rest ih =>
    rw [readPartsFrom] at h
    split at h
    · exact ih h
    · rcases Calculation.outcome_bind_eq_error.1 h with hpart | ⟨_, -, hlater⟩
      · exact kind_of_readPart hpart
      · exact ih hlater

/-- **A rule line is read, or refused as a rule text.** -/
theorem kind_of_readRuleLine {name : Option CalendarName}
    (h : (readRuleLine ctx text name).outcome (Observed.answers ctx.host) = .error e) :
    e.kind = .invalidRule := by
  have hparts {parts : List Char}
      (h : (readParts ctx parts name).outcome (Observed.answers ctx.host) = .error e) :
      e.kind = .invalidRule := by
    rcases Calculation.outcome_bind_eq_error.1 h with hread | ⟨r, -, h⟩
    · exact kind_of_readPartsFrom hread
    · split at h
      · obtain rfl := Except.error.inj h
        rfl
      · cases h
  unfold readRuleLine at h
  split at h
  · exact hparts h
  · exact hparts h

/-! ### Date lines -/

/-- What the parameters of a date line name is a calendar that is known, or none. -/
theorem readParameters_cases (property : List Char) (pinned : Option Variant)
    (zone : Option String) (texts : List (List Char)) :
    (∃ (pinned' : Option Variant) (zone' : Option String),
      readParameters property (pinned.map .known) zone texts = .ok (pinned'.map .known, zone')) ∨
    ∃ e, readParameters property (pinned.map .known) zone texts = .error e ∧
      e.kind = .invalidRule := by
  induction texts generalizing pinned zone with
  | nil => exact .inl ⟨pinned, zone, rfl⟩
  | cons text rest ih =>
    rw [readParameters]
    split
    · split
      · exact .inr ⟨_, rfl, rfl⟩
      · exact ih pinned zone
      · rename_i variant _
        exact ih (some variant) zone
    · split
      · exact ih pinned _
      · split
        · exact ih pinned zone
        · exact .inr ⟨_, rfl, rfl⟩

theorem kind_of_readParameters {property : List Char} {zone : Option String}
    {texts : List (List Char)} (pinned : Option Variant)
    (h : readParameters property (pinned.map .known) zone texts = .error e) :
    e.kind = .invalidRule := by
  rcases readParameters_cases property pinned zone texts with ⟨_, _, hread⟩ | ⟨e', hfail, hkind⟩
  · rw [hread] at h
    cases h
  · rw [hfail] at h
    rwa [← Except.error.inj h]

theorem pinned_of_readParameters {property : List Char} {zone zone' : Option String}
    {texts : List (List Char)} {calendar : Option CalendarName} (pinned : Option Variant)
    (h : readParameters property (pinned.map .known) zone texts = .ok (calendar, zone')) :
    ∃ pinned' : Option Variant, calendar = pinned'.map .known := by
  rcases readParameters_cases property pinned zone texts with ⟨pinned', _, hread⟩ | ⟨_, hfail, -⟩
  · rw [hread] at h
    exact ⟨pinned', (congrArg Prod.fst (Except.ok.inj h)).symm⟩
  · rw [hfail] at h
    cases h

/-- The dates of a date line are those of its pieces that are not blank. -/
theorem readDates_eq_mapM {name : Option CalendarName} (texts : List (List Char)) :
    readDates ctx name texts =
      (texts.filter fun text => !(trim text).isEmpty).mapM fun text => ofRuleChars ctx text name := by
  induction texts with
  | nil => rfl
  | cons text rest ih =>
    rw [readDates]
    by_cases hblank : (trim text).isEmpty = true
    · rw [if_pos hblank, List.filter_cons_of_neg (by simp [hblank]), ih]
    · rw [if_neg hblank, List.filter_cons_of_pos (by simp [hblank]), List.mapM_cons, ih]

/-- What a date line with good parameters writes: the calendar that it pins, and its dates. -/
def Writes (line : List Char) (pinned : Option Variant) (texts : List (List Char)) : Prop :=
  ∃ (head value : List Char) (zone : Option String),
    cutAt ':' line = (head, some value) ∧
    readParameters (upper (trim ((splitOn ';' head).headD []))) none none (splitOn ';' head).tail =
      .ok (pinned.map .known, zone) ∧
    ((splitOn ',' (trim value)).filter fun text => !(trim text).isEmpty) = texts

/-- The first date of some texts that is not read is written properly, but cannot be built. -/
structure LacksDate (ctx : Context) (pinned : Option Variant) (before : List (List Char))
    (text : List Char) (e : Error) : Prop where
  before : ∀ earlier ∈ before, ∃ found, (ofRuleChars ctx earlier (pinned.map .known)).outcome
    (Observed.answers ctx.host) = .ok found
  failure : ∃ d, writtenDate? (pinned.getD ctx.defaultVariant) text = some d ∧
    BuildFailure ctx d e

theorem LacksDate.kind {pinned : Option Variant} {before : List (List Char)}
    (h : LacksDate ctx pinned before text e) :
    e.kind = .outOfRange ∨ e.kind = .invalidDate ∨ e.kind = .conversionFailure ∨
      e.kind = .badValue := by
  obtain ⟨d, -, hfailure⟩ := h.failure
  exact hfailure.kind

/-- How reading dates fails, when it is not their form that is wrong. -/
theorem readDates_fails_iff {pinned : Option Variant} {texts : List (List Char)} :
    (readDates ctx (pinned.map .known) texts).outcome (Observed.answers ctx.host) = .error e ∧
        e.kind.isInvalidInput = false ↔
      ∃ before text after,
        (texts.filter fun text => !(trim text).isEmpty) = before ++ text :: after ∧
          LacksDate ctx pinned before text e := by
  rw [readDates_eq_mapM, Calculation.outcome_mapM_eq_error]
  constructor
  · rintro ⟨⟨before, text, after, htexts, hbefore, h⟩, hkind⟩
    refine ⟨before, text, after, htexts, hbefore, ?_⟩
    rw [ofRuleChars_eq] at h
    split at h
    · rename_i d hd
      refine ⟨d, hd, (buildFailure_iff (year_of_writtenDate? hd)).1 ⟨h, fun hinvalid => ?_⟩⟩
      rw [hinvalid] at hkind
      cases hkind
    · obtain rfl := Except.error.inj h
      cases hkind
  · rintro ⟨before, text, after, htexts, hlacks⟩
    obtain ⟨d, hd, hfailure⟩ := hlacks.failure
    refine ⟨⟨before, text, after, htexts, hlacks.before, ?_⟩, ?_⟩
    · rw [ofRuleChars_eq, hd]
      exact ((buildFailure_iff (year_of_writtenDate? hd)).2 hfailure).1
    · rcases hlacks.kind with hk | hk | hk | hk <;> rw [hk] <;> rfl

/-- **The failures of a date line that are not those of a rule text.** -/
theorem readDateLine_fails_iff {line : List Char} :
    (readDateLine ctx line none).outcome (Observed.answers ctx.host) = .error e ∧
        e.kind ≠ .invalidRule ↔
      ∃ pinned before text after, Writes line pinned (before ++ text :: after) ∧
        LacksDate ctx pinned before text e := by
  constructor
  · rintro ⟨h, hkind⟩
    unfold readDateLine at h
    split at h
    · obtain rfl := Except.error.inj h
      exact absurd rfl hkind
    rename_i head value hcut
    rcases Calculation.outcome_bind_eq_error.1 h with hread | ⟨⟨calendar, zone⟩, hread, h⟩ <;>
      rw [Calculation.outcome_liftM] at hread
    · exact absurd (kind_of_readParameters none hread) hkind
    obtain ⟨pinned, rfl⟩ := pinned_of_readParameters none hread
    rcases Calculation.outcome_bind_eq_error.1 h with hdates | ⟨dates, -, h⟩
    · obtain ⟨e', he', hhandled⟩ := Calculation.outcome_tryCatch_eq_error.1 hdates
      split at hhandled
      · obtain rfl := Except.error.inj hhandled
        exact absurd rfl hkind
      · rename_i hinput
        obtain rfl := Except.error.inj hhandled
        obtain ⟨before, text, after, htexts, hlacks⟩ :=
          readDates_fails_iff.1 ⟨he', by simpa using hinput⟩
        exact ⟨pinned, before, text, after, ⟨head, value, zone, hcut, hread, htexts⟩, hlacks⟩
    · split at h
      · obtain rfl := Except.error.inj h
        exact absurd rfl hkind
      · cases h
  · rintro ⟨pinned, before, text, after, ⟨head, value, zone, hcut, hread, htexts⟩, hlacks⟩
    obtain ⟨hdates, hinput⟩ := readDates_fails_iff.2 ⟨before, text, after, htexts, hlacks⟩
    refine ⟨?_, fun hinvalid => ?_⟩
    · unfold readDateLine
      rw [hcut]
      dsimp only
      rw [Calculation.outcome_bind_ok ((Calculation.outcome_liftM _).trans hread)]
      refine Calculation.outcome_bind_eq_error.2 (.inl (Calculation.outcome_tryCatch_eq_error.2
        ⟨e, hdates, ?_⟩))
      simp [hinput]
    · rcases hlacks.kind with hk | hk | hk | hk <;> rw [hk] at hinvalid <;> cases hinvalid

/-! ### A text -/

/-- Reading a text fails as a rule text, or at a date line that lacks a date. -/
theorem failure_of_readRequest
    (h : (readRequest ctx text).outcome (Observed.answers ctx.host) = .error e)
    (hkind : e.kind ≠ .invalidRule) :
    ∃ before line after state, (plainLines text).map trim = before ++ line :: after ∧
      (before.foldlM (readLine ctx) {}).outcome (Observed.answers ctx.host) = .ok state ∧
      looksLikeDates line = true ∧
      (readDateLine ctx line none).outcome (Observed.answers ctx.host) = .error e := by
  rw [readRequest_eq_foldlM] at h
  rcases Calculation.outcome_bind_eq_error.1 h with hlines | ⟨state, -, h⟩
  · obtain ⟨before, line, after, state, hlines, hbefore, hline⟩ :=
      Calculation.outcome_foldlM_eq_error.1 hlines
    cases hdates : looksLikeDates line with
    | true =>
      rw [readLine_of_looksLikeDates hdates] at hline
      rcases Calculation.outcome_bind_eq_error.1 hline with hread | ⟨_, -, hdone⟩
      · exact ⟨before, line, after, state, hlines, hbefore, hdates, hread⟩
      · cases hdone
    | false =>
      cases hrule : looksLikeRule line with
      | true =>
        rw [readLine_of_looksLikeRule hrule] at hline
        cases hline
      | false =>
        rw [readLine_of_neither hdates hrule] at hline
        obtain rfl := Except.error.inj hline
        exact absurd rfl hkind
  · split at h
    · obtain rfl := Except.error.inj h
      exact absurd rfl hkind
    · rcases Calculation.outcome_bind_eq_error.1 h with hrule | ⟨_, -, hdone⟩
      · exact absurd (kind_of_readRuleLine hrule) hkind
      · cases hdone

/-- **How reading a text fails.**  It fails as a rule text, or else with the failure to build a
date, which is of one of four kinds.

The latter comes about in one way only.  Lines up to one are sorted and read; that line looks like a
date line, and the first of its dates that is not read is written properly but cannot be built.
Whatever else is wrong with a text, and with the dates of its rule line, it is refused as a rule
text. -/
theorem readRequest_fails :
    ((readRequest ctx text).outcome (Observed.answers ctx.host) = .error e →
      e.kind = .invalidRule ∨ e.kind = .outOfRange ∨ e.kind = .invalidDate ∨
        e.kind = .conversionFailure ∨ e.kind = .badValue) ∧
    ((readRequest ctx text).outcome (Observed.answers ctx.host) = .error e ∧
        e.kind ≠ .invalidRule ↔
      ∃ (before after : List (List Char)) (line : List Char) (dates : List DateLine)
        (pinned : Option Variant) (earlier later : List (List Char)) (written : List Char),
        (plainLines text).map trim = before ++ line :: after ∧
        (∀ l ∈ before, looksLikeDates l = true ∨ looksLikeRule l = true) ∧
        DatesAreReadAs ctx (Observed.answers ctx.host) before dates ∧
        looksLikeDates line = true ∧ Writes line pinned (earlier ++ written :: later) ∧
        LacksDate ctx pinned earlier written e) := by
  refine ⟨fun h => or_iff_not_imp_left.2 fun hkind => ?_, ⟨fun ⟨h, hkind⟩ => ?_, ?_⟩⟩
  · obtain ⟨_, _, _, _, -, -, -, hread⟩ := failure_of_readRequest h hkind
    obtain ⟨_, _, _, _, -, hlacks⟩ := readDateLine_fails_iff.1 ⟨hread, hkind⟩
    exact hlacks.kind
  · obtain ⟨before, line, after, state, hlines, hbefore, hdates, hread⟩ :=
      failure_of_readRequest h hkind
    obtain ⟨hkinds, dates, hreads, -⟩ := outcome_foldlM_readLine.1 hbefore
    obtain ⟨pinned, earlier, written, later, hwrites, hlacks⟩ :=
      readDateLine_fails_iff.1 ⟨hread, hkind⟩
    exact ⟨before, after, line, dates, pinned, earlier, later, written, hlines, hkinds, hreads,
      hdates, hwrites, hlacks⟩
  · rintro ⟨before, after, line, dates, pinned, earlier, later, written, hlines, hkinds, hreads,
      hdates, hwrites, hlacks⟩
    obtain ⟨hread, hkind⟩ := readDateLine_fails_iff.2 ⟨pinned, earlier, written, later, hwrites, hlacks⟩
    refine ⟨?_, hkind⟩
    rw [readRequest_eq_foldlM]
    refine Calculation.outcome_bind_eq_error.2 (.inl (Calculation.outcome_foldlM_eq_error.2
      ⟨before, line, after, _, hlines, outcome_foldlM_readLine.2 ⟨hkinds, dates, hreads, rfl⟩, ?_⟩))
    rw [readLine_of_looksLikeDates hdates]
    exact Calculation.outcome_bind_eq_error.2 (.inl hread)

/-- A text that starts on a day that its month lacks. -/
def startOnMissingDay : List Char :=
  "DTSTART;CALENDAR=HIJRI-TABULAR:14460230\nFREQ=DAILY".toList

def missingStart : Error := .dayNotInMonth ⟨1446, 2, 30⟩ (.int 29) .tabular

theorem readRequest_fails_missingStart :
    (readRequest .hostless startOnMissingDay).outcome (Observed.answers Context.hostless.host) =
      .error missingStart ∧
    ∃ (line : List Char) (pinned : Option Variant) (earlier later : List (List Char))
      (written : List Char), Writes line pinned (earlier ++ written :: later) ∧
        LacksDate .hostless pinned earlier written missingStart := by
  have hfails : (readRequest .hostless startOnMissingDay).outcome
      (Observed.answers Context.hostless.host) = .error missingStart := rfl
  obtain ⟨-, -, line, -, pinned, earlier, later, written, -, -, -, -, hwrites, hlacks⟩ :=
    readRequest_fails.2.1 ⟨hfails, by decide⟩
  exact ⟨hfails, line, pinned, earlier, later, written, hwrites, hlacks⟩

/-- A day that its month lacks goes out as it is from a date line, and is refused in a rule line. -/
theorem readRequest_missingStart_kind :
    ((readRequest .hostless startOnMissingDay).outcome
      (Observed.answers Context.hostless.host)).mapError Error.kind = .error .invalidDate ∧
    ((readRequest .hostless
      "DTSTART;CALENDAR=HIJRI-TABULAR:14460201\nFREQ=DAILY;UNTIL=14460230".toList).outcome
      (Observed.answers Context.hostless.host)).mapError Error.kind = .error .invalidRule :=
  ⟨rfl, rfl⟩

end RuleText

end HijriRecurrence
