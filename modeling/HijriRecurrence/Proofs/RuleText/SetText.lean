import HijriRecurrence.Proofs.Recurrence.OneCalendar
import HijriRecurrence.Proofs.RuleText.ReadSet
import HijriRecurrence.Proofs.RuleText.SingleRule

/-!
# The lines of a set, read back

The text of a set has the two lines of each rule, a line for each date and one for each excluding
rule.  Each is one line without blanks around it, so all of them are found again
(`RuleSet.lines_textPieces`) and sorted by kind as they were (`sortLines_textLines`).  Each rule
brings its own start and calendar, and the last one counts for the whole text; where rules start
together that makes no difference, and every rule is read as it was (`buildRule_partsLine`).  The
line of a date pins no calendar, so the date is read in the calendar of the rules, if there is such
a date in it (`readDateLine_setLine_eq_ok`).
-/

namespace HijriRecurrence

open Text RuleText

variable {ctx : Context} {answers : Answers}

/-! ### Joined lines -/

namespace Text

/-- A line that is found again in a text as it was written. -/
structure IsWrittenLine (line : List Char) : Prop where
  ne_nil : line ≠ []
  isLine : IsLine line
  trimmed : trim line = line

theorem isWrittenLine_of_not_blank {line : List Char} (hne : line ≠ [])
    (h : ∀ c ∈ line, isBlank c = false) : IsWrittenLine line where
  ne_nil := hne
  isLine c hc := isLineBoundary_of_not_isBlank (h c hc)
  trimmed := trim_eq_self_of_forall h

/-- Joined pieces have the lines of all of them, where each piece ends with a whole line. -/
theorem lines_intercalate {pieces : List (List Char)}
    (h : ∀ piece ∈ pieces, ∀ rest, lines (piece ++ '\n' :: rest) = lines piece ++ lines rest) :
    lines (['\n'].intercalate pieces) = pieces.flatMap lines := by
  induction pieces with
  | nil => rfl
  | cons piece rest ih =>
    obtain ⟨hpiece, hrest⟩ := List.forall_mem_cons.1 h
    cases rest with
    | nil => simp
    | cons next rest =>
      rw [List.intercalate_cons_cons, List.append_assoc, List.singleton_append, hpiece, ih hrest]
      exact List.flatMap_cons.symm

/-- A written line is one of the lines of a text. -/
theorem IsWrittenLine.lines_append {line : List Char} (h : IsWrittenLine line)
    (rest : List Char) : lines (line ++ '\n' :: rest) = lines line ++ lines rest := by
  rw [Text.lines_append h.isLine, lines_eq_singleton h.ne_nil h.isLine]
  rfl

theorem flatMap_lines {pieces : List (List Char)} (h : ∀ piece ∈ pieces, IsWrittenLine piece) :
    pieces.flatMap lines = pieces := by
  induction pieces with
  | nil => rfl
  | cons piece rest ih =>
    obtain ⟨hpiece, hrest⟩ := List.forall_mem_cons.1 h
    rw [List.flatMap_cons, ih hrest, lines_eq_singleton hpiece.ne_nil hpiece.isLine]
    rfl

/-- Written lines are all kept, as they are. -/
theorem plainLines_of_lines {text : List Char} {found : List (List Char)}
    (hlines : lines text = found) (h : ∀ line ∈ found, IsWrittenLine line) :
    plainLines text = found ∧ found.map trim = found := by
  constructor
  · rw [plainLines, hlines, List.filter_eq_self]
    intro line hline
    simp [(h line hline).trimmed, (h line hline).ne_nil]
  · exact (List.map_congr_left fun line hline => (h line hline).trimmed).trans (List.map_id found)

end Text

/-! ### Lines of a set -/

namespace LunarDate

/-- The line of a date of a set under a property name. -/
def setLine (name : List Char) (d : LunarDate) : List Char :=
  name ++ ";CALENDAR=HIJRI".toList ++ ':' :: d.ruleChars

theorem isWrittenLine_setLine {name : List Char} (hname : ∀ c ∈ name, isBlank c = false)
    {d : LunarDate} (hd : d.InRange) : IsWrittenLine (d.setLine name) := by
  have hcalendar : ∀ c ∈ ";CALENDAR=HIJRI".toList, isBlank c = false := by decide
  refine isWrittenLine_of_not_blank (List.append_ne_nil_of_right_ne_nil _ (List.cons_ne_nil _ _)) ?_
  intro c hc
  rcases List.mem_append.1 hc with hc | hc
  · exact (List.mem_append.1 hc).elim (hname c) (hcalendar c)
  · rcases List.mem_cons.1 hc with rfl | hc
    · decide
    · exact forall_mem_ruleChars (P := (isBlank · = false)) (by decide) (by decide) hd c hc

end LunarDate

namespace RuleOptions

def exRuleLine (o : RuleOptions) : List Char := "EXRULE".toList ++ ':' :: o.partsText

namespace FitsText

variable {o : RuleOptions} (h : o.FitsText ctx answers)
include h

theorem isWrittenLine_startLine : IsWrittenLine o.startLine :=
  isWrittenLine_of_not_blank (List.append_ne_nil_of_right_ne_nil _ (List.cons_ne_nil _ _))
    (isBlank_startLine h.start.inRange)

theorem isWrittenLine_ruleLine : IsWrittenLine o.ruleLine := by
  obtain ⟨hline, htrim⟩ := ruleLine_clean h.toCanonical h.zone_isField
  exact ⟨List.append_ne_nil_of_left_ne_nil (by decide) _, hline, htrim⟩

theorem isWrittenLine_exRuleLine : IsWrittenLine o.exRuleLine := by
  have hclean : IsLine o.exRuleLine ∧ trim o.exRuleLine = o.exRuleLine :=
    partsLine_clean h.toCanonical h.zone_isField (by decide) (by decide)
  exact ⟨List.append_ne_nil_of_left_ne_nil (by decide) _, hclean.1, hclean.2⟩

/-- The text of a rule ends with a whole line. -/
theorem lines_textChars : lines o.textChars = [o.startLine, o.ruleLine] ∧
    ∀ rest, lines (o.textChars ++ '\n' :: rest) = lines o.textChars ++ lines rest := by
  have htext : o.textChars = o.startLine ++ '\n' :: o.ruleLine := rfl
  have hstart := h.isWrittenLine_startLine
  have hrule := h.isWrittenLine_ruleLine
  have hlines : lines o.textChars = [o.startLine, o.ruleLine] := by
    rw [htext, lines_append hstart.isLine, lines_eq_singleton hrule.ne_nil hrule.isLine]
  refine ⟨hlines, fun rest => ?_⟩
  rw [hlines, htext, List.append_assoc, List.cons_append, lines_append hstart.isLine,
    lines_append hrule.isLine]
  rfl

end FitsText

end RuleOptions

namespace RuleSet

def textLines (rules exRules : List Rule) (dates exDates : List LunarDate) : List (List Char) :=
  rules.flatMap (fun r => [r.options.startLine, r.options.ruleLine]) ++
    dates.map (·.setLine "RDATE".toList) ++ exRules.map (·.options.exRuleLine) ++
      exDates.map (·.setLine "EXDATE".toList)

/-- The pieces that the text of a set is joined from. -/
def textPieces (rules exRules : List Rule) (dates exDates : List LunarDate) : List (List Char) :=
  rules.map (·.options.textChars) ++ dates.map (·.setLine "RDATE".toList) ++
    exRules.map (·.options.exRuleLine) ++ exDates.map (·.setLine "EXDATE".toList)

/-- Rules are written one by one. -/
theorem mapM_rules {items : List Rule} {write : Source → Except Error String}
    {text : Rule → String} (h : ∀ r ∈ items, write (.rule r) = .ok (text r)) :
    (items.map Source.rule).mapM write = .ok (items.map text) := by
  induction items with
  | nil => rfl
  | cons r rest ih =>
    obtain ⟨hr, hrest⟩ := List.forall_mem_cons.1 h
    rw [List.map_cons, List.mapM_cons, hr, ih hrest]
    rfl

theorem text_ofRules (ctx : Context) (keepsMemo : Bool) {rules exRules : List Rule}
    (hdays : ∀ r ∈ rules ++ exRules, r.options.WithinWeek) (dates exDates : List LunarDate) :
    (ofRules keepsMemo rules exRules dates exDates).text ctx =
      .ok (String.ofList (['\n'].intercalate (textPieces rules exRules dates exDates))) := by
  have hrules : (rules.map Source.rule).mapM (·.text ctx) =
      .ok (rules.map fun r => String.ofList r.options.textChars) :=
    mapM_rules fun r hr => (hdays r (List.mem_append_left _ hr)).written_eq _
  have hexRules : (exRules.map Source.rule).mapM (·.partsText) =
      .ok (exRules.map fun r => String.ofList r.options.partsText) :=
    mapM_rules fun r hr => (hdays r (List.mem_append_right _ hr)).written_eq _
  have hline (name : String) (d : LunarDate) :
      (name ++ ";CALENDAR=HIJRI:" ++ d.ruleText).toList = d.setLine name.toList := by
    simp [LunarDate.setLine, LunarDate.ruleText]
  have hexRule (o : RuleOptions) :
      ("EXRULE:" ++ String.ofList o.partsText).toList = o.exRuleLine := by
    simp [RuleOptions.exRuleLine]
  rw [text, ofRules, hrules, hexRules]
  refine congrArg Except.ok (String.toList_inj.1 ?_)
  rw [String.toList_ofList, String.toList_intercalate]
  refine congrArg (List.intercalate ['\n']) ?_
  simp only [List.map_append, List.map_map, Function.comp_def, hline, hexRule, String.toList_ofList,
    textPieces]

section Lines

variable {start : LunarDate} {rules exRules : List Rule} {dates exDates : List LunarDate}
  (h : IsTogether ctx answers start (rules ++ exRules) (dates ++ exDates))
include h

theorem isWrittenLine_of_mem_textLines {line : List Char}
    (hline : line ∈ textLines rules exRules dates exDates) : IsWrittenLine line := by
  simp only [textLines, List.mem_append, List.mem_flatMap, List.mem_map, List.mem_cons,
    List.not_mem_nil, or_false] at hline
  rcases hline with ((⟨r, hr, rfl | rfl⟩ | ⟨d, hd, rfl⟩) | ⟨r, hr, rfl⟩) | ⟨d, hd, rfl⟩
  · exact (h.fitsText r (List.mem_append_left _ hr)).isWrittenLine_startLine
  · exact (h.fitsText r (List.mem_append_left _ hr)).isWrittenLine_ruleLine
  · exact LunarDate.isWrittenLine_setLine (by decide) (h.dates d (List.mem_append_left _ hd)).1
  · exact (h.fitsText r (List.mem_append_right _ hr)).isWrittenLine_exRuleLine
  · exact LunarDate.isWrittenLine_setLine (by decide) (h.dates d (List.mem_append_right _ hd)).1

/-- **The lines of the text of a set are found again.** -/
theorem lines_textPieces : lines (['\n'].intercalate (textPieces rules exRules dates exDates)) =
    textLines rules exRules dates exDates := by
  have hwritten := @isWrittenLine_of_mem_textLines _ _ _ _ _ _ _ h
  have hrules (r : Rule) (hr : r ∈ rules) := (h.fitsText r (List.mem_append_left _ hr)).lines_textChars
  have hdates : ∀ line ∈ dates.map (·.setLine "RDATE".toList), IsWrittenLine line :=
    fun _ hline => hwritten
      (List.mem_append_left _ (List.mem_append_left _ (List.mem_append_right _ hline)))
  have hexRules : ∀ line ∈ exRules.map (·.options.exRuleLine), IsWrittenLine line :=
    fun _ hline => hwritten (List.mem_append_left _ (List.mem_append_right _ hline))
  have hexDates : ∀ line ∈ exDates.map (·.setLine "EXDATE".toList), IsWrittenLine line :=
    fun _ hline => hwritten (List.mem_append_right _ hline)
  have hpieces : ∀ piece ∈ textPieces rules exRules dates exDates, ∀ rest,
      lines (piece ++ '\n' :: rest) = lines piece ++ lines rest := by
    intro piece hpiece
    rcases List.mem_append.1 hpiece with hpiece | hpiece
    · rcases List.mem_append.1 hpiece with hpiece | hpiece
      · rcases List.mem_append.1 hpiece with hpiece | hpiece
        · obtain ⟨r, hr, rfl⟩ := List.mem_map.1 hpiece
          exact (hrules r hr).2
        · exact (hdates piece hpiece).lines_append
      · exact (hexRules piece hpiece).lines_append
    · exact (hexDates piece hpiece).lines_append
  rw [lines_intercalate hpieces, textPieces, List.flatMap_append, List.flatMap_append,
    List.flatMap_append, flatMap_lines hdates, flatMap_lines hexRules, flatMap_lines hexDates,
    List.flatMap_map, List.flatMap_congr fun r hr => (hrules r hr).1]
  rfl

end Lines

end RuleSet

/-! ### Sorted lines of a set -/

/-- A rule with an empty memo, if it is to keep one. -/
def Rule.renew (keepsMemo : Bool) (r : Rule) : Rule := { r with memo := newMemo keepsMemo }

namespace RuleText

theorem propertyName_append {front : List Char} (h : ':' ∉ front) (rest : List Char) :
    propertyName (front ++ ':' :: rest) = upper (cutAt ';' front).1 := by
  rw [propertyName, cutAt_append h]

section SortLine

variable (p : Properties) (o : RuleOptions) (d : LunarDate)

/-- The line of a first date is sorted in as the start and the calendar of the whole text. -/
theorem sortLine_startLine {o : RuleOptions} (h : o.FitsText ctx answers) :
    (sortLine ctx p o.startLine).outcome answers =
      .ok { p with start := .lunar o.start, calendar := some (.known o.variant) } := by
  have hname : ∀ v : Variant,
      upper (cutAt ';' ("DTSTART;CALENDAR=".toList ++ v.parameter.toList)).1 =
        "DTSTART".toList := by
    intro v
    cases v <;> decide
  have hstart : IsStartLine o.startLine :=
    (propertyName_append (RuleOptions.readParameters_startLine o.variant).1 _).trans
      (hname o.variant)
  rw [sortLine_of_isStartLine hstart]
  have hread := (RuleOptions.readDateLine_startLine_eq_ok h.toCanonical).2 ⟨h.start_year, rfl⟩
  rw [Calculation.outcome_bind_ok hread]
  rfl

theorem sortLine_ruleLine : sortLine ctx p o.ruleLine =
    pure { p with ruleLines := p.ruleLines ++ [o.ruleLine] } := by
  have hname : propertyName o.ruleLine = "RRULE".toList := by
    rw [RuleOptions.ruleLine_eq]
    exact (propertyName_append (by decide) _).trans (by decide)
  rw [sortLine, hname]
  rfl

theorem sortLine_exRuleLine : sortLine ctx p o.exRuleLine =
    pure { p with exRuleLines := p.exRuleLines ++ [o.exRuleLine] } := by
  have hname : propertyName o.exRuleLine = "EXRULE".toList :=
    (propertyName_append (by decide) _).trans (by decide)
  rw [sortLine, hname]
  rfl

theorem sortLine_dateLine : sortLine ctx p (d.setLine "RDATE".toList) =
    pure { p with dateLines := p.dateLines ++ [d.setLine "RDATE".toList] } := by
  have hname : propertyName (d.setLine "RDATE".toList) = "RDATE".toList :=
    (propertyName_append (by decide) _).trans (by decide)
  rw [sortLine, hname]
  rfl

theorem sortLine_exDateLine : sortLine ctx p (d.setLine "EXDATE".toList) =
    pure { p with exDateLines := p.exDateLines ++ [d.setLine "EXDATE".toList] } := by
  have hname : propertyName (d.setLine "EXDATE".toList) = "EXDATE".toList :=
    (propertyName_append (by decide) _).trans (by decide)
  rw [sortLine, hname]
  rfl

end SortLine

/-- Lines that are put one by one at the end of a list are put there as a list. -/
theorem foldlM_eq_append {σ α : Type} {add : σ → List Char → Calculation σ} {write : α → List Char}
    (made : List (List Char) → σ)
    (h : ∀ done a, add (made done) (write a) = pure (made (done ++ [write a])))
    (done : List (List Char)) (items : List α) :
    (items.map write).foldlM add (made done) = pure (made (done ++ items.map write)) := by
  induction items generalizing done with
  | nil => simp
  | cons a rest ih =>
    rw [List.map_cons, List.foldlM_cons, h, pure_bind, ih, List.append_assoc, List.singleton_append]

/-- The lines of some rules are sorted in rule by rule, each with the start and the calendar that
all of them share. -/
theorem sortLines_rules {start : LunarDate} {rules : List Rule} (hne : rules ≠ [])
    (h : ∀ r ∈ rules, r.options.FitsText ctx answers ∧ r.options.start = start)
    (p : Properties) :
    ((rules.flatMap fun r => [r.options.startLine, r.options.ruleLine]).foldlM (sortLine ctx)
      p).outcome answers = .ok
        { p with
          start := .lunar start
          calendar := some (.known start.variant)
          ruleLines := p.ruleLines ++ rules.map (·.options.ruleLine) } := by
  induction rules generalizing p with
  | nil => exact absurd rfl hne
  | cons r rest ih =>
    obtain ⟨⟨hfits, hstart⟩, hrest⟩ := List.forall_mem_cons.1 h
    have hvariant : r.options.variant = start.variant := by rw [← hstart, hfits.start_variant]
    have hrule : ([r.options.startLine, r.options.ruleLine].foldlM (sortLine ctx) p).outcome
        answers = .ok
          { p with
            start := .lunar start
            calendar := some (.known start.variant)
            ruleLines := p.ruleLines ++ [r.options.ruleLine] } := by
      rw [List.foldlM_cons, Calculation.outcome_bind_ok (sortLine_startLine p hfits),
        List.foldlM_cons, sortLine_ruleLine, hstart, hvariant]
      rfl
    rw [List.flatMap_cons, List.foldlM_append, Calculation.outcome_bind_ok hrule]
    by_cases hlast : rest = []
    · rw [hlast]
      rfl
    · rw [ih hlast hrest, List.map_cons, List.append_assoc, List.singleton_append]

/-- What the lines of the text of a set say, sorted by kind. -/
def textProperties (start : LunarDate) (rules exRules : List Rule) (dates exDates : List LunarDate) :
    Properties where
  start := .lunar start
  calendar := some (.known start.variant)
  ruleLines := rules.map (·.options.ruleLine)
  exRuleLines := exRules.map (·.options.exRuleLine)
  dateLines := dates.map (·.setLine "RDATE".toList)
  exDateLines := exDates.map (·.setLine "EXDATE".toList)

/-! ### What the lines of a set are read as -/

/-- The compact form of a date is read in any calendar in which there is such a date. -/
theorem ofRuleChars_eq_ok {d e : LunarDate} (hd : d.InRange) (hyear : d.year ≤ 9999)
    {variant : Variant} :
    (LunarDate.ofRuleChars ctx d.ruleChars (some (.known variant))).outcome answers = .ok e ↔
      (d.inVariant variant).Built ctx answers ∧ d.inVariant variant = e := by
  rw [LunarDate.ofRuleChars, (LunarDate.isField_ruleChars hd).trimmed,
    LunarDate.ruleParts?_ruleChars hd hyear]
  exact LunarDate.build_eq_ok.trans (and_comm.trans (and_congr_right' eq_comm))

/-- **The line of a date is read in the calendar of the rules**, exactly when there is such a date
in it. -/
theorem readDateLine_setLine_eq_ok {name : List Char}
    (hname : name = "RDATE".toList ∨ name = "EXDATE".toList) {d : LunarDate}
    (hd : d.InRange ∧ d.year ≤ 9999) {variant : Variant} {dateLine : DateLine} :
    (readDateLine ctx (d.setLine name) (some (.known variant))).outcome answers = .ok dateLine ↔
      (d.inVariant variant).Built ctx answers ∧
        DateLine.mk [d.inVariant variant] (some (.known variant)) none = dateLine := by
  have hcolon : ':' ∉ name ++ ";CALENDAR=HIJRI".toList := by
    rcases hname with rfl | rfl <;> decide
  have hpieces : (splitOn ';' (name ++ ";CALENDAR=HIJRI".toList)).tail =
      ["CALENDAR=HIJRI".toList] := by
    rcases hname with rfl | rfl <;> decide
  have hparameters (property : List Char) : readParameters property (some (.known variant)) none
      (splitOn ';' (name ++ ";CALENDAR=HIJRI".toList)).tail =
        .ok (some (.known variant), none) := by
    rw [hpieces]
    rfl
  unfold LunarDate.setLine
  generalize name ++ ";CALENDAR=HIJRI".toList = front at hcolon hparameters ⊢
  rw [RuleOptions.readDateLine_ruleChars_eq_ok hcolon (hparameters _) hd.1]
  simp only [ofRuleChars_eq_ok hd.1 hd.2]
  constructor
  · rintro ⟨e, ⟨hbuilt, rfl⟩, hline⟩
    exact ⟨hbuilt, hline⟩
  · rintro ⟨hbuilt, hline⟩
    exact ⟨_, ⟨hbuilt, rfl⟩, hline⟩

/-- **The parts of a rule are read as the rule**, where its start and its calendar are those of the
whole text. -/
theorem buildRule_partsLine {o : RuleOptions} (h : o.FitsText ctx answers) {p : Properties}
    (hstart : p.start = .lunar o.start) (hcalendar : p.calendar = some (.known o.variant))
    {how : Reading} (hzone : how.timeZone = .null) {word : List Char} (hne : word ≠ [])
    (hword : ∀ c ∈ word, isBlank c = false) (hcolon : ':' ∉ word) :
    (buildRule ctx how p (word ++ ':' :: o.partsText)).outcome answers =
      .ok { options := o, memo := Rule.newMemo how.keepsMemo } := by
  have hread : (readRuleLine ctx (word ++ ':' :: o.partsText) p.calendar).outcome answers =
      .ok (Request.empty.merge ((o.entries ctx.digitLimit).map (·.change))) := by
    rw [hcalendar]
    exact (RuleOptions.readRuleLine_partsLine_eq_ok h.toCanonical h.zone_isField h.withinWeek hne
      hword hcolon).2 ⟨h.entries_fit, rfl⟩
  have hvalue (name : OptionName) : (p.override (Request.empty.merge
      ((o.entries ctx.digitLimit).map (·.change)))).value name =
        o.writtenValue ctx.digitLimit name := by
    rw [p.value_override (RuleOptions.value_merge_entries _) (RuleOptions.value_merge_entries _)]
    cases name with
    | start => exact hstart
    | calendar => rw [Properties.ruleValue, Properties.calendarGiven, hcalendar]; rfl
    | _ => exact RuleOptions.value_merge_entries _
  rw [buildRule_eq hzone, Calculation.outcome_bind_ok hread, Rule.ofRequest,
    Calculation.outcome_bind_ok
      (RuleOptions.outcome_ofRequest_written h.toCanonical h.withinWeek hvalue)]
  rfl

section Set

variable {start : LunarDate} {rules exRules : List Rule} {dates exDates : List LunarDate}
  (h : IsTogether ctx answers start (rules ++ exRules) (dates ++ exDates))
include h

/-- **The lines of the text of a set are sorted by kind again.** -/
theorem sortLines_textLines (hne : rules ≠ []) :
    (sortLines ctx {} (RuleSet.textLines rules exRules dates exDates)).outcome answers =
      .ok (textProperties start rules exRules dates exDates) := by
  have hfits : ∀ r ∈ rules, r.options.FitsText ctx answers ∧ r.options.start = start :=
    fun r hr => ⟨h.fitsText r (List.mem_append_left _ hr), h.start r (List.mem_append_left _ hr)⟩
  have hdates (p : Properties) :
      (dates.map (·.setLine "RDATE".toList)).foldlM (sortLine ctx) p =
        pure { p with dateLines := p.dateLines ++ dates.map (·.setLine "RDATE".toList) } :=
    foldlM_eq_append (fun done => { p with dateLines := done })
      (fun _ d => sortLine_dateLine _ d) p.dateLines dates
  have hexRules (p : Properties) :
      (exRules.map (·.options.exRuleLine)).foldlM (sortLine ctx) p =
        pure { p with exRuleLines := p.exRuleLines ++ exRules.map (·.options.exRuleLine) } :=
    foldlM_eq_append (fun done => { p with exRuleLines := done })
      (fun _ r => sortLine_exRuleLine _ r.options) p.exRuleLines exRules
  have hexDates (p : Properties) :
      (exDates.map (·.setLine "EXDATE".toList)).foldlM (sortLine ctx) p =
        pure { p with exDateLines := p.exDateLines ++ exDates.map (·.setLine "EXDATE".toList) } :=
    foldlM_eq_append (fun done => { p with exDateLines := done })
      (fun _ d => sortLine_exDateLine _ d) p.exDateLines exDates
  have htrim := (Text.plainLines_of_lines (RuleSet.lines_textPieces h)
    fun _ hline => RuleSet.isWrittenLine_of_mem_textLines h hline).2
  rw [sortLines_eq_foldlM, htrim, RuleSet.textLines, List.foldlM_append, List.foldlM_append,
    List.foldlM_append, bind_assoc, bind_assoc,
    Calculation.outcome_bind_ok (sortLines_rules hne hfits {}), hdates, pure_bind, hexRules,
    pure_bind, hexDates]
  rfl

/-- Lines of parts are read as the rules that they are of. -/
theorem forall₂_buildRule {how : Reading} (hzone : how.timeZone = .null) {word : List Char}
    (hne : word ≠ []) (hword : ∀ c ∈ word, isBlank c = false) (hcolon : ':' ∉ word)
    {items : List Rule} (hitems : ∀ r ∈ items, r ∈ rules ++ exRules) (built : List Rule) :
    List.Forall₂ (fun line rule => (buildRule ctx how
      (textProperties start rules exRules dates exDates) line).outcome answers = .ok rule)
        (items.map fun r => word ++ ':' :: r.options.partsText) built ↔
      items.map (·.renew how.keepsMemo) = built := by
  have hread (r : Rule) (hr : r ∈ items) (found : Rule) : (buildRule ctx how
      (textProperties start rules exRules dates exDates)
        (word ++ ':' :: r.options.partsText)).outcome answers = .ok found ↔
          True ∧ r.renew how.keepsMemo = found := by
    have hfits := h.fitsText r (hitems r hr)
    have hstart := h.start r (hitems r hr)
    have hcalendar : (textProperties start rules exRules dates exDates).calendar =
        some (.known r.options.variant) := by
      rw [← hfits.start_variant, hstart]
      rfl
    rw [buildRule_partsLine hfits (congrArg Value.lunar hstart.symm) hcalendar hzone hne hword
      hcolon, true_and]
    exact ⟨Except.ok.inj, congrArg Except.ok⟩
  exact (forall₂_map_iff hread).trans (and_iff_right fun _ _ => trivial)

/-- Lines of dates are read as these dates in the calendar of the rules. -/
theorem forall₂_readDateLine {name : List Char}
    (hname : name = "RDATE".toList ∨ name = "EXDATE".toList) (variant : Variant)
    {items : List LunarDate} (hitems : ∀ d ∈ items, d ∈ dates ++ exDates) (found : List DateLine) :
    List.Forall₂ (fun line dateLine =>
      (readDateLine ctx line (some (.known variant))).outcome answers = .ok dateLine)
        (items.map (·.setLine name)) found ↔
      (∀ d ∈ items, (d.inVariant variant).Built ctx answers) ∧
        items.map (fun d => ⟨[d.inVariant variant], some (.known variant), none⟩) = found :=
  forall₂_map_iff fun d hd _ => readDateLine_setLine_eq_ok hname (h.dates d (hitems d hd))

/-- **The set that the lines of a set make** has the same rules, and the same dates in the calendar
of the rules, provided that there are such dates in it. -/
theorem buildSet_textProperties_eq_ok {how : Reading} (hzone : how.timeZone = .null)
    {s : RuleSet} :
    (buildSet ctx how (textProperties start rules exRules dates exDates)).outcome answers = .ok s ↔
      (∀ d ∈ dates ++ exDates, (d.inVariant start.variant).Built ctx answers) ∧
        RuleSet.ofRules how.keepsMemo (rules.map (·.renew how.keepsMemo))
          (exRules.map (·.renew how.keepsMemo)) (dates.map (·.inVariant start.variant))
          (exDates.map (·.inVariant start.variant)) = s := by
  have hlines : (textProperties start rules exRules dates exDates).ruleLines =
      rules.map fun r => "RRULE".toList ++ ':' :: r.options.partsText :=
    List.map_congr_left fun r _ => r.options.ruleLine_eq
  have hdates (items : List LunarDate) : (items.map fun d =>
      DateLine.mk [d.inVariant start.variant] (some (.known start.variant)) none).flatMap (·.dates) =
        items.map (·.inVariant start.variant) := by
    rw [List.flatMap_map]
    exact List.map_eq_flatMap.symm
  have hruleLines (built : List Rule) := forall₂_buildRule h hzone
    (by decide : "RRULE".toList ≠ []) (by decide) (by decide) (fun _ => List.mem_append_left _) built
  have hexRuleLines (built : List Rule) := forall₂_buildRule h hzone
    (by decide : "EXRULE".toList ≠ []) (by decide) (by decide) (fun _ => List.mem_append_right _)
    built
  have hdateLines (found : List DateLine) :=
    forall₂_readDateLine h (.inl rfl) start.variant (fun _ => List.mem_append_left _) found
  have hexDateLines (found : List DateLine) :=
    forall₂_readDateLine h (.inr rfl) start.variant (fun _ => List.mem_append_right _) found
  rw [outcome_buildSet_eq_ok hzone, hlines, List.forall_mem_append]
  constructor
  · rintro ⟨built, hbuilt, exBuilt, hexBuilt, found, hfound, exFound, hexFound, rfl⟩
    obtain rfl := (hruleLines _).1 hbuilt
    obtain rfl := (hexRuleLines _).1 hexBuilt
    obtain ⟨hexist, rfl⟩ := (hdateLines _).1 hfound
    obtain ⟨hexExist, rfl⟩ := (hexDateLines _).1 hexFound
    rw [hdates, hdates]
    exact ⟨⟨hexist, hexExist⟩, rfl⟩
  · rintro ⟨⟨hexist, hexExist⟩, rfl⟩
    refine ⟨_, (hruleLines _).2 rfl, _, (hexRuleLines _).2 rfl, _, (hdateLines _).2 ⟨hexist, rfl⟩,
      _, (hexDateLines _).2 ⟨hexExist, rfl⟩, ?_⟩
    rw [hdates, hdates]

end Set

end RuleText

end HijriRecurrence
