import HijriRecurrence.Proofs.Rule.Canonical
import HijriRecurrence.Proofs.RuleText.Lists
import HijriRecurrence.Proofs.RuleText.Parts
import HijriRecurrence.Proofs.Text.ReadNumber

/-!
# What the parts of a rule line give

A part is read as a value of its form, and that value could be written again: integers are no longer
than they may be, dates exist and have years of four digits, and weekdays are days of the week with
ordinals of two digits
(`PartForm.Gives`, `gives_of_readForm`).  Every option that a rule line gives is the value of a part
of that option (`gives_of_readRuleLine`), and a rule line gives neither a first date nor a calendar.
-/

namespace HijriRecurrence

open Text

variable {ctx : Context} {answers : Answers}

/-! ### Dates and weekdays -/

theorem LunarDate.built_year_of_buildNamed {name : Option CalendarName} {day : LunarDay}
    {hour minute second : Int} {d : LunarDate}
    (h : (buildNamed ctx name day hour minute second).outcome answers = .ok d) :
    d.Built ctx answers ∧ d.year = day.year := by
  unfold buildNamed at h
  split at h
  · obtain ⟨rfl, hd⟩ := build_eq_ok.1 h
    exact ⟨hd, rfl⟩
  · obtain ⟨rfl, hd⟩ := build_eq_ok.1 h
    exact ⟨hd, rfl⟩
  · obtain ⟨_, _, h⟩ := Calculation.outcome_bind_eq_ok.1 h
    cases h

/-- A date that is read from its compact form exists, and its year has four digits at most. -/
theorem LunarDate.built_of_ofRuleChars {text : List Char} {name : Option CalendarName}
    {d : LunarDate} (h : (ofRuleChars ctx text name).outcome answers = .ok d) :
    d.Built ctx answers ∧ d.year ≤ 9999 := by
  unfold ofRuleChars at h
  split at h
  · rename_i day hour minute second hparts
    obtain ⟨hd, hyear⟩ := built_year_of_buildNamed h
    have hbounds := year_of_ruleParts? hparts
    exact ⟨hd, by omega⟩
  · cases h

/-- The ordinal of a weekday that is read from a token has two digits at most. -/
theorem Weekday.fits_of_ofToken {given : Value} {text : List Char} {w : Weekday}
    (h : ofToken given text = .ok w) : w.Fits := by
  unfold ofToken at h
  split at h
  · cases h
  · cases h
  · rename_i ordinal day _ hparts
    obtain rfl := Except.ok.inj h
    intro n hn
    obtain rfl : ordinal = some n := (Option.filter_eq_some_iff.1 hn).1
    rw [tokenParts?] at hparts
    by_cases hshort : (upper (trim text)).length < 2
    · rw [if_pos hshort] at hparts
      cases hparts
    · rw [if_neg hshort] at hparts
      obtain ⟨found, -, hparts⟩ := Option.bind_eq_some_iff.1 hparts
      split at hparts
      · cases hparts
      · obtain ⟨m, hm, hparts⟩ := Option.bind_eq_some_iff.1 hparts
        obtain rfl : m = n := Option.some.inj (congrArg Prod.fst (Option.some.inj hparts))
        exact natAbs_le_of_readOrdinal? hm

namespace RuleText

theorem fits_of_mem_readWeekdayTokens {tokens : List (List Char)} {ws : List Weekday}
    (h : readWeekdayTokens tokens = .ok ws) :
    ∀ w ∈ ws, IsWeekday w.number ∧ w.Proper ∧ w.Fits := by
  induction tokens generalizing ws with
  | nil =>
    obtain rfl := Except.ok.inj h
    exact fun w hw => absurd hw List.not_mem_nil
  | cons token rest ih =>
    obtain ⟨w, hw, h⟩ := Calculation.except_bind_eq_ok.1 h
    obtain ⟨others, hothers, h⟩ := Calculation.except_bind_eq_ok.1 h
    obtain rfl := Except.ok.inj h
    exact List.forall_mem_cons.2
      ⟨⟨Weekday.isWeekday_of_ofToken hw, Weekday.proper_of_ofToken hw,
        Weekday.fits_of_ofToken hw⟩, ih hothers⟩

/-! ### Forms -/

/-- A date that exists and whose year has four digits at most. -/
def IsShortDate (ctx : Context) (answers : Answers) (value : Value) : Prop :=
  ∃ d : LunarDate, value = .lunar d ∧ d.Built ctx answers ∧ d.year ≤ 9999

/-- What a part of a form may be read as. -/
def PartForm.Gives (ctx : Context) (answers : Answers) : PartForm → Value → Prop
  | integer _, value => ∃ n, value = .int n ∧ hasRoomFor ctx.digitLimit n = true
  | integers _, value => ∃ ns : List Int, value = .list (ns.map .int) ∧
      ∀ n ∈ ns, hasRoomFor ctx.digitLimit n = true
  | lastDate, value => IsShortDate ctx answers value
  | weekdays, value => ∃ ws : List Weekday, value = .list (ws.map .weekday) ∧
      ∀ w ∈ ws, IsWeekday w.number ∧ w.Proper ∧ w.Fits
  | weekStart, value => ∃ n, value = .int n
  | timeZone, value => ∃ s, value = .str s
  | frequency, _ | skip, _ => True

/-- **A part is read as a value that its form may give.** -/
theorem gives_of_readForm {calendar : Option CalendarName} {refusal : Error} {form : PartForm}
    {text : List Char} {value : Value}
    (h : (readForm ctx calendar refusal form text).outcome answers = .ok value) :
    form.Gives ctx answers value := by
  cases form with
  | frequency | skip => trivial
  | integer option =>
    have hread : (readInt? ctx.digitLimit text).map Value.int = some value :=
      (outcome_orRefuse _ refusal).1 h
    obtain ⟨n, hn, rfl⟩ := Option.map_eq_some_iff.1 hread
    exact ⟨n, rfl, hasRoomFor_of_readInt? hn⟩
  | integers option =>
    have hread : (readIntegers? ctx.digitLimit text).map (fun ns => Value.list (ns.map .int)) =
        some value := (outcome_orRefuse _ refusal).1 h
    obtain ⟨ns, hns, rfl⟩ := Option.map_eq_some_iff.1 hread
    refine ⟨ns, rfl, fun n hn => ?_⟩
    obtain ⟨piece, -, hpiece⟩ := exists_of_mem_mapM hns hn
    exact hasRoomFor_of_readInt? hpiece
  | lastDate =>
    rw [readForm, ← bind_pure_comp] at h
    obtain ⟨d, hd, h⟩ := Calculation.outcome_bind_eq_ok.1 h
    obtain rfl := Except.ok.inj h
    exact ⟨d, rfl, LunarDate.built_of_ofRuleChars hd⟩
  | weekdays =>
    obtain ⟨ws, hws, h⟩ := Calculation.outcome_bind_eq_ok.1 h
    obtain rfl := Except.ok.inj h
    rw [Calculation.outcome_liftM] at hws
    exact ⟨ws, rfl, fits_of_mem_readWeekdayTokens hws⟩
  | weekStart =>
    have hread : (Weekday.dayOfCode? (upper text)).map (fun day => Value.int (day.val : Int)) =
        some value := (outcome_orRefuse _ refusal).1 h
    obtain ⟨day, -, rfl⟩ := Option.map_eq_some_iff.1 hread
    exact ⟨day.val, rfl⟩
  | timeZone => exact ⟨_, (Except.ok.inj h).symm⟩

/-! ### Lines -/

/-- A request whose options are absent or given by a part. -/
def GivenByParts (ctx : Context) (answers : Answers) (r : Request) : Prop :=
  ∀ name, r.value name = .null ∨
    ∃ entry ∈ partForms, entry.2.option = name ∧ entry.2.Gives ctx answers (r.value name)

variable {calendar : Option CalendarName} {r r' : Request}

theorem givenByParts_readPart {piece : List Char} (hr : GivenByParts ctx answers r)
    (h : (readPart ctx calendar r piece).outcome answers = .ok r') :
    GivenByParts ctx answers r' := by
  unfold readPart at h
  split at h
  · cases h
  dsimp only at h
  split at h
  · cases h
  rename_i form hform
  obtain ⟨entry, hentry, rfl⟩ := Option.map_eq_some_iff.1 hform
  obtain ⟨value, hvalue, h⟩ := Calculation.outcome_bind_eq_ok.1 h
  obtain rfl := Except.ok.inj h
  intro name
  by_cases hname : name = entry.2.option
  · rw [hname, Request.value_set_self]
    refine .inr ⟨entry, List.mem_of_find?_eq_some hentry, rfl, ?_⟩
    refine gives_of_readForm ((Calculation.outcome_tryCatch_eq_ok fun e v => ?_).1 hvalue)
    split <;> simp
  · rw [Request.value_set_of_ne r value hname]
    exact hr name

theorem givenByParts_readPartsFrom {pieces : List (List Char)} (hr : GivenByParts ctx answers r)
    (h : (readPartsFrom ctx calendar r pieces).outcome answers = .ok r') :
    GivenByParts ctx answers r' := by
  induction pieces generalizing r with
  | nil =>
    obtain rfl := Except.ok.inj h
    exact hr
  | cons piece rest ih =>
    rw [readPartsFrom] at h
    split at h
    · exact ih hr h
    · obtain ⟨next, hnext, h⟩ := Calculation.outcome_bind_eq_ok.1 h
      exact ih (givenByParts_readPart hr hnext) h

/-- **What a rule line gives is given by its parts.** -/
theorem givenByParts_readRuleLine {line : List Char}
    (h : (readRuleLine ctx line calendar).outcome answers = .ok r) :
    GivenByParts ctx answers r := by
  have hparts {parts : List Char} (h : (readParts ctx parts calendar).outcome answers = .ok r) :
      GivenByParts ctx answers r := by
    obtain ⟨next, hnext, h⟩ := Calculation.outcome_bind_eq_ok.1 h
    have hempty : GivenByParts ctx answers Request.empty := fun _ => .inl rfl
    split at h
    · cases h
    · obtain rfl := Except.ok.inj h
      exact givenByParts_readPartsFrom hempty hnext
  unfold readRuleLine at h
  split at h
  · exact hparts h
  · exact hparts h

/-- An option that parts of one form alone give. -/
theorem GivenByParts.gives (h : GivenByParts ctx answers r) {name : OptionName} {form : PartForm}
    (hform : ∀ entry ∈ partForms, entry.2.option = name → entry.2 = form) :
    r.value name = .null ∨ form.Gives ctx answers (r.value name) := by
  refine (h name).imp_right ?_
  rintro ⟨entry, hentry, hname, hgives⟩
  exact hform entry hentry hname ▸ hgives

/-- An option that no part gives. -/
theorem GivenByParts.eq_null (h : GivenByParts ctx answers r) {name : OptionName}
    (hname : ∀ entry ∈ partForms, entry.2.option ≠ name) : r.value name = .null := by
  refine (h name).resolve_right ?_
  rintro ⟨entry, hentry, hoption, -⟩
  exact hname entry hentry hoption

end RuleText

end HijriRecurrence
