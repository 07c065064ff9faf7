import HijriRecurrence.Proofs.RuleText.ReadOptions
import HijriRecurrence.Recurrence.Text

/-!
# Sets that are read from a text

The lines of a text are sorted by kind, and then each rule line makes a rule and each date line its
dates (`outcome_buildSet_eq_ok`).  The first date and the calendar of the text count over those of
every line, so the rules of a text start together (`IsTogether`).  All of them come back from their
text, and the dates have years of four digits at most (`exists_rules_of_read`).

The lines themselves are kept track of while they are sorted: a rule line holds no line boundary,
and the first date is one that exists (`Properties.Sound`).
-/

namespace HijriRecurrence

open Text

variable {ctx : Context} {answers : Answers}

namespace RuleText

/-! ### Lines -/

/-- A text of one line at most. -/
def IsLine (text : List Char) : Prop := ∀ c ∈ text, isLineBoundary c = false

theorem isLine_of_mem_plainLines {text line : List Char} (h : line ∈ plainLines text) :
    IsLine line :=
  fun _ hc => isLineBoundary_of_mem_lines (List.mem_of_mem_filter h) hc

/-- Joining folded lines leaves lines. -/
theorem isLine_of_mem_unfoldLine {done : List (List Char)} {line : List Char}
    (hdone : ∀ l ∈ done, IsLine l) (hline : IsLine line) :
    ∀ l ∈ unfoldLine done line, IsLine l := by
  have hjoined {last rest : List Char} (hlast : last ∈ done) (hrest : ∀ c ∈ rest, c ∈ line) :
      ∀ l ∈ done.dropLast ++ [last ++ rest], IsLine l := by
    intro l hl
    rcases List.mem_append.1 hl with hl | hl
    · exact hdone l (List.dropLast_subset done hl)
    · obtain rfl := List.mem_singleton.1 hl
      intro c hc
      exact (List.mem_append.1 hc).elim (hdone last hlast c) fun hc => hline c (hrest c hc)
  unfold unfoldLine
  split
  · rename_i hlast
    exact hjoined (List.mem_of_getLast? hlast) fun c hc => List.mem_cons_of_mem _ hc
  · rename_i hlast
    exact hjoined (List.mem_of_getLast? hlast) fun c hc => List.mem_cons_of_mem _ hc
  · split
    · exact hdone
    · intro l hl
      rcases List.mem_append.1 hl with hl | hl
      · exact hdone l hl
      · obtain rfl := List.mem_singleton.1 hl
        exact fun c hc => hline c (mem_of_mem_trimRight hc)

theorem isLine_of_mem_unfold {text line : List Char} (h : line ∈ unfold text) : IsLine line := by
  have hall : ∀ l ∈ unfold text, IsLine l := by
    refine List.foldlRecOn (motive := fun done => ∀ l ∈ done, IsLine l) (lines text) unfoldLine
      (fun l hl => absurd hl List.not_mem_nil) fun done hdone line hline => ?_
    exact isLine_of_mem_unfoldLine hdone fun c hc => isLineBoundary_of_mem_lines hline hc
  exact hall line h

/-! ### Date lines -/

/-- Dates that are read exist, and their years have four digits at most. -/
theorem built_of_mem_readDates {name : Option CalendarName} {texts : List (List Char)}
    {dates : List LunarDate} (h : (readDates ctx name texts).outcome answers = .ok dates) :
    ∀ d ∈ dates, d.Built ctx answers ∧ d.year ≤ 9999 := by
  induction texts generalizing dates with
  | nil =>
    obtain rfl := Except.ok.inj h
    exact fun d hd => absurd hd List.not_mem_nil
  | cons text rest ih =>
    rw [readDates] at h
    split at h
    · exact ih h
    · obtain ⟨first, hfirst, h⟩ := Calculation.outcome_bind_eq_ok.1 h
      obtain ⟨others, hothers, h⟩ := Calculation.outcome_bind_eq_ok.1 h
      obtain rfl := Except.ok.inj h
      exact List.forall_mem_cons.2 ⟨LunarDate.built_of_ofRuleChars hfirst, ih hothers⟩

theorem built_of_mem_readDateLine {line : List Char} {name : Option CalendarName}
    {dateLine : DateLine} (h : (readDateLine ctx line name).outcome answers = .ok dateLine) :
    ∀ d ∈ dateLine.dates, d.Built ctx answers ∧ d.year ≤ 9999 := by
  unfold readDateLine at h
  split at h
  · cases h
  · obtain ⟨parameters, -, h⟩ := Calculation.outcome_bind_eq_ok.1 h
    obtain ⟨dates, hdates, h⟩ := Calculation.outcome_bind_eq_ok.1 h
    have hread := (Calculation.outcome_tryCatch_eq_ok (fun e ds => by split <;> simp)).1 hdates
    split at h
    · cases h
    · obtain rfl := Except.ok.inj h
      exact built_of_mem_readDates hread

/-! ### Sorted lines -/

namespace Properties

/-- Sorted lines of which the first date exists and each rule line is one line. -/
structure Sound (ctx : Context) (answers : Answers) (p : Properties) : Prop where
  start : p.start = .null ∨ IsShortDate ctx answers p.start
  ruleLines : ∀ line ∈ p.ruleLines, IsLine line
  exRuleLines : ∀ line ∈ p.exRuleLines, IsLine line

theorem sound_empty : Sound ctx answers {} where
  start := .inl rfl
  ruleLines _ h := absurd h List.not_mem_nil
  exRuleLines _ h := absurd h List.not_mem_nil

end Properties

variable {p p' : Properties}

theorem sound_sortLine {line : List Char} (hline : IsLine line) (hp : p.Sound ctx answers)
    (h : (sortLine ctx p line).outcome answers = .ok p') : p'.Sound ctx answers := by
  have hsnoc {done : List (List Char)} (hdone : ∀ l ∈ done, IsLine l) :
      ∀ l ∈ done ++ [line], IsLine l := by
    intro l hl
    rcases List.mem_append.1 hl with hl | hl
    · exact hdone l hl
    · exact List.mem_singleton.1 hl ▸ hline
  unfold sortLine at h
  dsimp only at h
  split at h
  · obtain ⟨dateLine, hread, h⟩ := Calculation.outcome_bind_eq_ok.1 h
    have hbuilt := built_of_mem_readDateLine hread
    obtain rfl := Except.ok.inj h
    refine ⟨?_, hp.ruleLines, hp.exRuleLines⟩
    dsimp only
    split
    · rename_i first rest hdates
      have hfirst := hbuilt first (hdates ▸ List.mem_cons_self)
      exact .inr ⟨first, rfl, hfirst⟩
    · exact hp.start
  · split at h
    · obtain rfl := Except.ok.inj h
      exact ⟨hp.start, hsnoc hp.ruleLines, hp.exRuleLines⟩
    split at h
    · obtain rfl := Except.ok.inj h
      exact ⟨hp.start, hp.ruleLines, hsnoc hp.exRuleLines⟩
    -- other lines give no rules
    split at h
    · obtain rfl := Except.ok.inj h
      exact ⟨hp.start, hp.ruleLines, hp.exRuleLines⟩
    split at h
    · obtain rfl := Except.ok.inj h
      exact ⟨hp.start, hp.ruleLines, hp.exRuleLines⟩
    split at h
    · obtain rfl := Except.ok.inj h
      exact hp
    · cases h

/-- **Sorting keeps the first date one that exists, and every rule line one line.** -/
theorem sound_sortLines {texts : List (List Char)} (htexts : ∀ text ∈ texts, IsLine text)
    (hp : p.Sound ctx answers) (h : (sortLines ctx p texts).outcome answers = .ok p') :
    p'.Sound ctx answers := by
  induction texts generalizing p with
  | nil =>
    obtain rfl := Except.ok.inj h
    exact hp
  | cons text rest ih =>
    obtain ⟨htext, hrest⟩ := List.forall_mem_cons.1 htexts
    obtain ⟨next, hnext, h⟩ := Calculation.outcome_bind_eq_ok.1 h
    exact ih hrest (sound_sortLine (fun c hc => htext c (mem_of_mem_trim hc)) hp hnext) h

/-! ### Rules -/

namespace Properties

/-- A request with the start and the calendar of a whole text in the place of its own. -/
def override (p : Properties) (r : Request) : Request :=
  let r := if p.start.isNull then r else r.set .start p.start
  match p.calendar with
  | some name => r.set .calendar (calendarValue name)
  | none => r

def calendarGiven (p : Properties) : Value := (p.calendar.map calendarValue).getD .null

/-- The values of a rule: the start and the calendar of the whole text, and all else of its line. -/
def ruleValue (p : Properties) (r : Request) : OptionName → Value
  | .start => p.start
  | .calendar => p.calendarGiven
  | name => r.value name

theorem value_override (p : Properties) {r : Request} (hstart : r.value .start = .null)
    (hcalendar : r.value .calendar = .null) (name : OptionName) :
    (p.override r).value name = p.ruleValue r name := by
  have hgiven : (if p.start.isNull then r else r.set .start p.start) = r.set .start p.start := by
    split
    · rename_i hnull
      refine congrArg Request.mk (funext fun name => ?_)
      rw [Value.isNull_iff.1 hnull]
      by_cases hname : name = .start
      · simp [hname, hstart]
      · simp [hname]
    · rfl
  unfold override
  dsimp only
  rw [hgiven]
  cases hnone : p.calendar with
  | none => cases name <;> simp [ruleValue, calendarGiven, Request.set, hnone, hcalendar]
  | some calendar => cases name <;> simp [ruleValue, calendarGiven, Request.set, hnone]

end Properties

/-- A rule has the values of its line, but for the start and the calendar. -/
theorem buildRule_eq {how : Reading} (hzone : how.timeZone = .null) (line : List Char) :
    buildRule ctx how p line = (do
      let r ← readRuleLine ctx line p.calendar
      Rule.ofRequest ctx (p.override r) how.keepsMemo) := by
  rw [buildRule, hzone]
  rfl

/-- A rule line is read into a rule with its values. -/
theorem exists_of_buildRule {how : Reading} (hzone : how.timeZone = .null) {line : List Char}
    {rule : Rule} (h : (buildRule ctx how p line).outcome answers = .ok rule) :
    ∃ q, (readRuleLine ctx line p.calendar).outcome answers = .ok q ∧
      (RuleOptions.ofRequest ctx (p.override q)).outcome answers = .ok rule.options ∧
      rule.memo = Rule.newMemo how.keepsMemo ∧
      ∀ name, (p.override q).value name = p.ruleValue q name := by
  rw [buildRule_eq hzone] at h
  obtain ⟨q, hq, h⟩ := Calculation.outcome_bind_eq_ok.1 h
  obtain ⟨o, ho, h⟩ := Calculation.outcome_bind_eq_ok.1 h
  obtain rfl := Except.ok.inj h
  have hgiven := givenByParts_readRuleLine hq
  exact ⟨q, hq, ho, rfl, p.value_override (hgiven.eq_null (by decide)) (hgiven.eq_null (by decide))⟩

/-- The calendar and the first date of a rule are those of the whole text. -/
theorem start_of_buildRule {how : Reading} (hzone : how.timeZone = .null) {line : List Char}
    {rule : Rule} (h : (buildRule ctx how p line).outcome answers = .ok rule) :
    RuleOptions.readCalendar ctx p.calendarGiven = .ok rule.options.variant ∧
      (RuleOptions.readStart ctx p.start rule.options.variant).outcome answers =
        .ok rule.options.start := by
  obtain ⟨q, -, ho, -, hvalue⟩ := exists_of_buildRule hzone h
  have hread (name : OptionName) := hvalue name ▸ RuleOptions.outcome_ofRequest_eq_ok.1 ho name
  exact ⟨hread .calendar, hread .start⟩

/-- **A rule that is read comes back from its text.** -/
theorem fitsText_of_buildRule (hctx : ctx.IsCurrent) (hp : p.Sound ctx answers) {how : Reading}
    (hzone : how.timeZone = .null) {line : List Char} (hline : IsLine line) {rule : Rule}
    (h : (buildRule ctx how p line).outcome answers = .ok rule) :
    rule.options.FitsText ctx answers := by
  obtain ⟨q, hq, ho, -, hvalue⟩ := exists_of_buildRule hzone h
  refine RuleOptions.fitsText_of_ofRequest hctx ?_ (givenByParts_readRuleLine hq)
    (zoneIsField_readRuleLine hline hq) (fun name hstart hcalendar => ?_) ho
  · rw [hvalue]
    exact hp.start
  · rw [hvalue]
    cases name with
    | start => exact absurd rfl hstart
    | calendar => exact absurd rfl hcalendar
    | _ => rfl

end RuleText

/-! ### Sets -/

namespace RuleSet

def ofRules (keepsMemo : Bool) (rules exRules : List Rule) (dates exDates : List LunarDate) :
    RuleSet where
  rules := rules.map .rule
  dates := dates
  exRules := exRules.map .rule
  exDates := exDates
  memo := Rule.newMemo keepsMemo

section Add

variable (keepsMemo : Bool) (rules exRules : List Rule) (dates exDates : List LunarDate)

/-- An empty memo is forgotten as it is. -/
theorem map_newMemo : (Rule.newMemo keepsMemo).map (fun _ => ({} : Memo)) =
    Rule.newMemo keepsMemo := by
  cases keepsMemo <;> rfl

theorem addRule_ofRules (rule : Rule) :
    (ofRules keepsMemo rules exRules dates exDates).addRule rule =
      ofRules keepsMemo (rules ++ [rule]) exRules dates exDates := by
  simp [addRule, addSource, forget, ofRules, map_newMemo]

theorem addExRule_ofRules (rule : Rule) :
    (ofRules keepsMemo rules exRules dates exDates).addExRule rule =
      ofRules keepsMemo rules (exRules ++ [rule]) dates exDates := by
  simp [addExRule, addExSource, forget, ofRules, map_newMemo]

theorem addDate_ofRules (d : LunarDate) :
    (ofRules keepsMemo rules exRules dates exDates).addDate d =
      ofRules keepsMemo rules exRules (dates ++ [d]) exDates := by
  simp [addDate, forget, ofRules, map_newMemo]

theorem addExDate_ofRules (d : LunarDate) :
    (ofRules keepsMemo rules exRules dates exDates).addExDate d =
      ofRules keepsMemo rules exRules dates (exDates ++ [d]) := by
  simp [addExDate, forget, ofRules, map_newMemo]

end Add

end RuleSet

namespace RuleText

/-- Items that are put one by one at the end of a list are put there as a list. -/
theorem foldl_eq_append {σ α : Type} {add : σ → α → σ} (made : List α → σ)
    (h : ∀ done a, add (made done) a = made (done ++ [a])) (done items : List α) :
    items.foldl add (made done) = made (done ++ items) := by
  induction items generalizing done with
  | nil => rw [List.append_nil]; rfl
  | cons a rest ih => rw [List.foldl_cons, h, ih, List.append_assoc, List.singleton_append]

theorem addRules_eq (how : Reading) (add : RuleSet → Rule → RuleSet) (s : RuleSet)
    (texts : List (List Char)) :
    addRules ctx how p add s texts = (do
      let rules ← texts.mapM (buildRule ctx how p)
      return rules.foldl add s) := by
  induction texts generalizing s with
  | nil => rfl
  | cons text rest ih =>
    simp only [addRules, ih, List.mapM_cons, bind_assoc, pure_bind, List.foldl_cons]

theorem addDates_eq (add : RuleSet → LunarDate → RuleSet) (s : RuleSet)
    (texts : List (List Char)) :
    addDates ctx p add s texts = (do
      let lines ← texts.mapM fun line => readDateLine ctx line p.calendar
      return (lines.flatMap (·.dates)).foldl add s) := by
  induction texts generalizing s with
  | nil => rfl
  | cons text rest ih =>
    simp only [addDates, ih, List.mapM_cons, bind_assoc, pure_bind, List.flatMap_cons,
      List.foldl_append]

/-- **The set that sorted lines make:** a rule for each rule line, and the dates of each date
line. -/
theorem outcome_buildSet_eq_ok {how : Reading} (hzone : how.timeZone = .null) {s : RuleSet} :
    (buildSet ctx how p).outcome answers = .ok s ↔
      ∃ rules, List.Forall₂ (fun line rule =>
          (buildRule ctx how p line).outcome answers = .ok rule) p.ruleLines rules ∧
        ∃ exRules, List.Forall₂ (fun line rule =>
          (buildRule ctx how p line).outcome answers = .ok rule) p.exRuleLines exRules ∧
        ∃ dates, List.Forall₂ (fun line dateLine =>
          (readDateLine ctx line p.calendar).outcome answers = .ok dateLine) p.dateLines dates ∧
        ∃ exDates, List.Forall₂ (fun line dateLine =>
          (readDateLine ctx line p.calendar).outcome answers = .ok dateLine) p.exDateLines exDates ∧
        RuleSet.ofRules how.keepsMemo rules exRules (dates.flatMap (·.dates))
          (exDates.flatMap (·.dates)) = s := by
  have hrules (rules : List Rule) : rules.foldl RuleSet.addRule (.empty how.keepsMemo) =
      .ofRules how.keepsMemo rules [] [] [] :=
    foldl_eq_append (RuleSet.ofRules how.keepsMemo · [] [] [])
      (fun _ _ => RuleSet.addRule_ofRules ..) [] rules
  have hexRules (rules exRules : List Rule) :
      exRules.foldl RuleSet.addExRule (.ofRules how.keepsMemo rules [] [] []) =
        .ofRules how.keepsMemo rules exRules [] [] :=
    foldl_eq_append (RuleSet.ofRules how.keepsMemo rules · [] [])
      (fun _ _ => RuleSet.addExRule_ofRules ..) [] exRules
  have hdates (rules exRules : List Rule) (dates : List LunarDate) :
      dates.foldl RuleSet.addDate (.ofRules how.keepsMemo rules exRules [] []) =
        .ofRules how.keepsMemo rules exRules dates [] :=
    foldl_eq_append (RuleSet.ofRules how.keepsMemo rules exRules · [])
      (fun _ _ => RuleSet.addDate_ofRules ..) [] dates
  have hexDates (rules exRules : List Rule) (dates exDates : List LunarDate) :
      exDates.foldl RuleSet.addExDate (.ofRules how.keepsMemo rules exRules dates []) =
        .ofRules how.keepsMemo rules exRules dates exDates :=
    foldl_eq_append (RuleSet.ofRules how.keepsMemo rules exRules dates ·)
      (fun _ _ => RuleSet.addExDate_ofRules ..) [] exDates
  have hresult {s' : RuleSet} :
      ((pure (if how.timeZone.truthy then s'.nameZone how.timeZone else s') :
        Calculation RuleSet)).outcome answers = .ok s ↔ s' = s := by
    rw [hzone]
    exact ⟨Except.ok.inj, congrArg Except.ok⟩
  simp only [buildSet, addRules_eq, addDates_eq, bind_assoc, pure_bind,
    Calculation.outcome_bind_eq_ok, Calculation.outcome_mapM_eq_ok, hresult, hrules, hexRules,
    hdates, hexDates]

/-! ### Whole texts -/

/-- What is made of the sorted lines of a text. -/
def finish (ctx : Context) (how : Reading) (p : Properties) : Calculation Recurrence :=
  if needsSet how p then do
    let s ← buildSet ctx how p
    return .set s
  else
    match p.ruleLines with
    | [] => throw Error.noRuleLine
    | line :: _ => do
      let rule ← buildRule ctx how p line
      return .rule rule

/-- A text is read by its sorted lines, unless it is blank. -/
theorem outcome_read_eq_ok {text : List Char} {how : Reading} (hstart : how.start = .null)
    {found : Recurrence} :
    (read ctx text how).outcome answers = .ok found ↔
      (trim text).isEmpty = false ∧
        ∃ p, (sortLines ctx {} (if how.unfolds then unfold text else plainLines text)).outcome
            answers = .ok p ∧ (finish ctx how p).outcome answers = .ok found := by
  have hread (hblank : (trim text).isEmpty = false) : read ctx text how =
      sortLines ctx {} (if how.unfolds then unfold text else plainLines text) >>=
        finish ctx how := by
    rw [read, hblank, hstart]
    rfl
  by_cases hblank : (trim text).isEmpty = true
  · have hfail : read ctx text how = throw Error.emptyText := by
      rw [read, hblank]
      rfl
    simp [hfail, hblank]
  · have hblank : (trim text).isEmpty = false := by simpa using hblank
    rw [hread hblank, Calculation.outcome_bind_eq_ok]
    exact (and_iff_right hblank).symm

theorem outcome_finish_eq_set {how : Reading} {s : RuleSet} :
    (finish ctx how p).outcome answers = .ok (.set s) ↔
      needsSet how p = true ∧ (buildSet ctx how p).outcome answers = .ok s := by
  unfold finish
  split
  · rename_i hneeds
    rw [Calculation.outcome_bind_eq_ok, and_iff_right hneeds]
    constructor
    · rintro ⟨s', hs', h⟩
      exact Recurrence.set.inj (Except.ok.inj h) ▸ hs'
    · exact fun hs => ⟨s, hs, rfl⟩
  · rename_i hneeds
    refine iff_of_false (fun h => ?_) fun h => hneeds h.1
    split at h
    · cases h
    · obtain ⟨rule, -, h⟩ := Calculation.outcome_bind_eq_ok.1 h
      cases h

/-- Where a set is wanted, a set is what is found. -/
theorem exists_set_of_finish {how : Reading} (hwants : how.wantsSet = true) {found : Recurrence}
    (h : (finish ctx how p).outcome answers = .ok found) : ∃ s, found = .set s := by
  have hneeds : needsSet how p = true := by simp [needsSet, hwants]
  rw [finish, if_pos hneeds] at h
  obtain ⟨s, -, h⟩ := Calculation.outcome_bind_eq_ok.1 h
  exact ⟨s, (Except.ok.inj h).symm⟩

/-- Rules that come back from their text and start together, and dates that could be written in
one. -/
structure IsTogether (ctx : Context) (answers : Answers) (start : LunarDate) (rules : List Rule)
    (dates : List LunarDate) : Prop where
  fitsText : ∀ rule ∈ rules, rule.options.FitsText ctx answers
  start : ∀ rule ∈ rules, rule.options.start = start
  dates : ∀ d ∈ dates, d.InRange ∧ d.year ≤ 9999

/-- What holds of all that may stand in the place of an item holds of what stands there. -/
theorem forall_mem_of_forall₂ {α β : Type} {R : α → β → Prop} {P : β → Prop} {items : List α}
    {images : List β} (h : List.Forall₂ R items images)
    (hP : ∀ a ∈ items, ∀ b, R a b → P b) : ∀ b ∈ images, P b := by
  induction h with
  | nil => exact fun b hb => absurd hb List.not_mem_nil
  | cons hab _ ih =>
    obtain ⟨ha, hrest⟩ := List.forall_mem_cons.1 hP
    exact List.forall_mem_cons.2 ⟨ha _ hab, ih hrest⟩

/-- Where each item has one image at most, so has a list of them. -/
theorem forall₂_map_iff {α β γ : Type} {R : β → γ → Prop} {P : α → Prop} {f : α → β} {g : α → γ}
    {items : List α} {images : List γ} (h : ∀ a ∈ items, ∀ c, R (f a) c ↔ P a ∧ g a = c) :
    List.Forall₂ R (items.map f) images ↔ (∀ a ∈ items, P a) ∧ items.map g = images := by
  induction items generalizing images with
  | nil => simp [eq_comm]
  | cons a rest ih =>
    obtain ⟨ha, hrest⟩ := List.forall_mem_cons.1 h
    rw [List.map_cons, List.forall₂_cons_left_iff, List.forall_mem_cons, List.map_cons]
    constructor
    · rintro ⟨c, others, hc, hothers, rfl⟩
      obtain ⟨hP, rfl⟩ := (ha c).1 hc
      obtain ⟨hPs, rfl⟩ := (ih hrest).1 hothers
      exact ⟨⟨hP, hPs⟩, rfl⟩
    · rintro ⟨⟨hP, hPs⟩, rfl⟩
      exact ⟨g a, rest.map g, (ha _).2 ⟨hP, rfl⟩, (ih hrest).2 ⟨hPs, rfl⟩, rfl⟩

/-- All dates of date lines could be written in a text. -/
theorem short_of_mem_dates {texts : List (List Char)} {name : Option CalendarName}
    {found : List DateLine} (h : List.Forall₂ (fun line dateLine =>
      (readDateLine ctx line name).outcome answers = .ok dateLine) texts found) :
    ∀ d ∈ found.flatMap (·.dates), d.InRange ∧ d.year ≤ 9999 := by
  intro d hd
  obtain ⟨dateLine, hdateLine, hd⟩ := List.mem_flatMap.1 hd
  obtain ⟨hbuilt, hyear⟩ := forall_mem_of_forall₂ h
    (fun _ _ _ hread => built_of_mem_readDateLine hread) dateLine hdateLine d hd
  exact ⟨hbuilt.inRange, hyear⟩

/-- Two rules of one text start together. -/
theorem start_eq_of_buildRule {how : Reading} (hzone : how.timeZone = .null)
    {line line' : List Char} {rule rule' : Rule}
    (h : (buildRule ctx how p line).outcome answers = .ok rule)
    (h' : (buildRule ctx how p line').outcome answers = .ok rule') :
    rule'.options.start = rule.options.start := by
  obtain ⟨hvariant, hstart⟩ := start_of_buildRule hzone h
  obtain ⟨hvariant', hstart'⟩ := start_of_buildRule hzone h'
  rw [← Except.ok.inj (hvariant.symm.trans hvariant'), hstart] at hstart'
  exact (Except.ok.inj hstart').symm

/-- **A set that is read from a text with a rule in it** is made of rules that start together and
come back from their text, and of dates that could be written in one. -/
theorem exists_rules_of_read (hctx : ctx.IsCurrent) {text : List Char} {how : Reading}
    (hstart : how.start = .null) (hzone : how.timeZone = .null) {s : RuleSet}
    (h : (read ctx text how).outcome answers = .ok (.set s)) (hrules : s.rules ≠ []) :
    ∃ start rules exRules dates exDates,
      .ofRules how.keepsMemo rules exRules dates exDates = s ∧ rules ≠ [] ∧
        IsTogether ctx answers start (rules ++ exRules) (dates ++ exDates) := by
  obtain ⟨-, p, hp, h⟩ := (outcome_read_eq_ok hstart).1 h
  obtain ⟨-, hset⟩ := outcome_finish_eq_set.1 h
  have hsound : p.Sound ctx answers := by
    refine sound_sortLines (fun line hline => ?_) Properties.sound_empty hp
    split at hline
    · exact isLine_of_mem_unfold hline
    · exact isLine_of_mem_plainLines hline
  obtain ⟨rules, hbuilt, exRules, hexBuilt, dates, hdates, exDates, hexDates, rfl⟩ :=
    (outcome_buildSet_eq_ok hzone).1 hset
  have hfits {texts : List (List Char)} {found : List Rule} (htexts : ∀ line ∈ texts, IsLine line)
      (hfound : List.Forall₂ (fun line rule =>
        (buildRule ctx how p line).outcome answers = .ok rule) texts found) :
      ∀ rule ∈ found, ∃ line, IsLine line ∧
        (buildRule ctx how p line).outcome answers = .ok rule :=
    forall_mem_of_forall₂ hfound fun line hline rule hrule => ⟨line, htexts line hline, hrule⟩
  have hall : ∀ rule ∈ rules ++ exRules, ∃ line, IsLine line ∧
      (buildRule ctx how p line).outcome answers = .ok rule := fun rule hrule =>
    (List.mem_append.1 hrule).elim (hfits hsound.ruleLines hbuilt rule)
      (hfits hsound.exRuleLines hexBuilt rule)
  have hne : rules ≠ [] := by
    rintro rfl
    exact hrules rfl
  obtain ⟨first, hfirst⟩ := List.exists_mem_of_ne_nil rules hne
  obtain ⟨firstLine, -, hfirstLine⟩ := hall first (List.mem_append_left _ hfirst)
  refine ⟨first.options.start, rules, exRules, _, _, rfl, hne, ?_⟩
  constructor
  · intro rule hrule
    obtain ⟨line, hline, hbuild⟩ := hall rule hrule
    exact fitsText_of_buildRule hctx hsound hzone hline hbuild
  · intro rule hrule
    obtain ⟨line, -, hbuild⟩ := hall rule hrule
    exact start_eq_of_buildRule hzone hfirstLine hbuild
  · intro d hd
    exact (List.mem_append.1 hd).elim (short_of_mem_dates hdates d) (short_of_mem_dates hexDates d)

end RuleText

end HijriRecurrence
