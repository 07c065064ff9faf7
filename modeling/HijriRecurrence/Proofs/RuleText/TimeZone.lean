import HijriRecurrence.Proofs.Outcome
import HijriRecurrence.Proofs.RuleText.Request
import HijriRecurrence.Recurrence.Basic

/-!
# The time zone of a text

Whatever text is read, a time zone that it names is a field: it was cut out of a line between
semicolons, and trimmed (`RuleText.zoneIsField_readRequest`).  So no rule that is read has a time
zone that could not stand in a text (`Rule.isField_timeZone_of_ofText`).

The property goes along with reading: a request whose time zone is a field (`ZoneIsField`) still is
one after a part, after a rule line and after a date line.
-/

namespace HijriRecurrence

open Text

variable {ctx : Context} {answers : Answers}

/-- A time zone that is a string is a field. -/
def Request.ZoneIsField (r : Request) : Prop := ∀ s, r.value .timeZone = .str s → IsField s.toList

namespace Request

variable {r s : Request}

theorem zoneIsField_empty : ZoneIsField empty := by
  intro s hs
  cases hs

theorem ZoneIsField.set_of_ne (h : r.ZoneIsField) {name : OptionName} (hname : name ≠ .timeZone)
    (value : Value) : (r.set name value).ZoneIsField := by
  intro s hs
  rw [value_set_of_ne r value hname.symm] at hs
  exact h s hs

theorem zoneIsField_set {zone : String} (h : IsField zone.toList) :
    (r.set .timeZone (.str zone)).ZoneIsField := by
  intro s hs
  rw [value_set_self] at hs
  obtain rfl := Value.str.inj hs
  exact h

theorem ZoneIsField.merge_given (hs : s.ZoneIsField) (hr : r.ZoneIsField) :
    (s.merge r.given).ZoneIsField := by
  intro zone hzone
  rw [value_merge_given] at hzone
  split at hzone
  · exact hs zone hzone
  · exact hr zone hzone

end Request

namespace RuleText

open Request

variable {calendar : Option CalendarName} {r r' : Request}

/-! ### Rule lines -/

/-- Only the part for the time zone gives a time zone. -/
theorem partForms_timeZone : ∀ entry ∈ partForms,
    entry.2.option = .timeZone → entry.2 = .timeZone := by decide

theorem zoneIsField_readPart {text : List Char} (hsemicolon : ';' ∉ text)
    (hboundary : ∀ c ∈ text, isLineBoundary c = false) (hr : r.ZoneIsField)
    (h : (readPart ctx calendar r text).outcome answers = .ok r') : r'.ZoneIsField := by
  unfold readPart at h
  split at h
  · cases h
  rename_i before value hcut
  have hafter : (cutAt '=' text).2 = some value := by rw [hcut]
  dsimp only at h
  split at h
  · cases h
  rename_i form hform
  obtain ⟨entry, hentry, rfl⟩ := Option.map_eq_some_iff.1 hform
  obtain ⟨v, hv, hset⟩ := Calculation.outcome_bind_eq_ok.1 h
  obtain rfl := Except.ok.inj hset
  by_cases hoption : entry.2.option = .timeZone
  · have htimeZone := partForms_timeZone entry (List.mem_of_find?_eq_some hentry) hoption
    rw [htimeZone] at hv ⊢
    rw [Calculation.outcome_tryCatch] at hv
    obtain rfl : Value.str (String.ofList (trim value)) = v := Except.ok.inj hv
    refine zoneIsField_set ?_
    rw [String.toList_ofList]
    exact isField_trim (fun hmem => hsemicolon (mem_of_mem_cutAt_snd hafter hmem))
      (fun c hc => hboundary c (mem_of_mem_cutAt_snd hafter hc))
  · exact hr.set_of_ne hoption v

theorem zoneIsField_readPartsFrom {texts : List (List Char)}
    (htexts : ∀ text ∈ texts, ';' ∉ text ∧ ∀ c ∈ text, isLineBoundary c = false)
    (hr : r.ZoneIsField)
    (h : (readPartsFrom ctx calendar r texts).outcome answers = .ok r') : r'.ZoneIsField := by
  induction texts generalizing r with
  | nil =>
    obtain rfl := Except.ok.inj h
    exact hr
  | cons text rest ih =>
    obtain ⟨⟨hsemicolon, hboundary⟩, hrest⟩ := List.forall_mem_cons.1 htexts
    rw [readPartsFrom] at h
    split at h
    · exact ih hrest hr h
    · obtain ⟨next, hnext, h⟩ := Calculation.outcome_bind_eq_ok.1 h
      refine ih hrest (zoneIsField_readPart ?_ ?_ hr hnext) h
      · exact fun hmem => hsemicolon (mem_of_mem_trim hmem)
      · exact fun c hc => hboundary c (mem_of_mem_trim hc)

theorem zoneIsField_readParts {text : List Char} (hboundary : ∀ c ∈ text, isLineBoundary c = false)
    (h : (readParts ctx text calendar).outcome answers = .ok r) : r.ZoneIsField := by
  obtain ⟨next, hnext, h⟩ := Calculation.outcome_bind_eq_ok.1 h
  have hpieces : ∀ piece ∈ splitOn ';' text,
      ';' ∉ piece ∧ ∀ c ∈ piece, isLineBoundary c = false := by
    intro piece hpiece
    obtain ⟨hsemicolon, hsubset⟩ := mem_splitOn hpiece
    exact ⟨hsemicolon, fun c hc => hboundary c (hsubset c hc)⟩
  have hzone := zoneIsField_readPartsFrom hpieces zoneIsField_empty hnext
  split at h
  · cases h
  · obtain rfl := Except.ok.inj h
    exact hzone

/-- A time zone on a rule line is a field. -/
theorem zoneIsField_readRuleLine {line : List Char}
    (hboundary : ∀ c ∈ line, isLineBoundary c = false)
    (h : (readRuleLine ctx line calendar).outcome answers = .ok r) : r.ZoneIsField := by
  have htrim : ∀ c ∈ trim line, isLineBoundary c = false :=
    fun c hc => hboundary c (mem_of_mem_trim hc)
  unfold readRuleLine at h
  split at h
  · rename_i before parts hcut
    refine zoneIsField_readParts (fun c hc => htrim c ?_) h
    exact mem_of_mem_cutAt_snd (by rw [hcut]) hc
  · rename_i parts hcut
    refine zoneIsField_readParts (fun c hc => htrim c ?_) h
    exact mem_of_mem_cutAt_fst (by rw [hcut]) hc

/-! ### Date lines -/

theorem isField_readParameters {property : List Char} {zone : Option String}
    {texts : List (List Char)} {result : Option CalendarName × Option String}
    (htexts : ∀ text ∈ texts, ';' ∉ text ∧ ∀ c ∈ text, isLineBoundary c = false)
    (hzone : ∀ s ∈ zone, IsField s.toList)
    (h : readParameters property calendar zone texts = .ok result) :
    ∀ s ∈ result.2, IsField s.toList := by
  induction texts generalizing calendar zone with
  | nil =>
    obtain rfl := Except.ok.inj h
    exact hzone
  | cons text rest ih =>
    obtain ⟨⟨hsemicolon, hboundary⟩, hrest⟩ := List.forall_mem_cons.1 htexts
    have hargument : IsField (trim ((cutAt '=' (trim text)).2.getD [])) := by
      have hsubset : ∀ c ∈ (cutAt '=' (trim text)).2.getD [], c ∈ text := by
        intro c hc
        cases hcut : (cutAt '=' (trim text)).2 with
        | none =>
          rw [hcut] at hc
          exact absurd hc List.not_mem_nil
        | some after =>
          rw [hcut] at hc
          exact mem_of_mem_trim (mem_of_mem_cutAt_snd hcut hc)
      exact isField_trim (fun hmem => hsemicolon (hsubset ';' hmem))
        (fun c hc => hboundary c (hsubset c hc))
    rw [readParameters] at h
    split at h
    · split at h
      · cases h
      · exact ih hrest hzone h
      · exact ih hrest hzone h
    · split at h
      · refine ih hrest (fun s hs => ?_) h
        obtain rfl := Option.some.inj hs
        rw [String.toList_ofList]
        exact hargument
      · split at h
        · exact ih hrest hzone h
        · cases h

/-- A time zone on a date line is a field. -/
theorem isField_readDateLine {line : List Char} {dateLine : DateLine}
    (hboundary : ∀ c ∈ line, isLineBoundary c = false)
    (h : (readDateLine ctx line calendar).outcome answers = .ok dateLine) :
    ∀ s ∈ dateLine.timeZone, IsField s.toList := by
  unfold readDateLine at h
  split at h
  · cases h
  rename_i head text hcut
  have hpieces : ∀ piece ∈ (splitOn ';' head).tail,
      ';' ∉ piece ∧ ∀ c ∈ piece, isLineBoundary c = false := by
    intro piece hpiece
    obtain ⟨hsemicolon, hsubset⟩ := mem_splitOn (List.mem_of_mem_tail hpiece)
    refine ⟨hsemicolon, fun c hc => hboundary c ?_⟩
    exact mem_of_mem_cutAt_fst (by rw [hcut]) (hsubset c hc)
  obtain ⟨⟨name, zone⟩, hparameters, h⟩ := Calculation.outcome_bind_eq_ok.1 h
  rw [Calculation.outcome_liftM] at hparameters
  have hzone := isField_readParameters hpieces (by simp) hparameters
  obtain ⟨dates, -, h⟩ := Calculation.outcome_bind_eq_ok.1 h
  split at h
  · cases h
  · obtain rfl := Except.ok.inj h
    exact hzone

/-! ### Texts -/

/-- What has been read so far, with a time zone that is a field and a line that is one. -/
structure Progress.Sound (state : Progress) : Prop where
  zone : state.request.ZoneIsField
  line : ∀ line ∈ state.ruleLine, ∀ c ∈ line, isLineBoundary c = false

variable {state state' : Progress}

theorem sound_readLine {line : List Char} (hboundary : ∀ c ∈ line, isLineBoundary c = false)
    (hstate : state.Sound) (h : (readLine ctx state line).outcome answers = .ok state') :
    state'.Sound := by
  unfold readLine at h
  dsimp only at h
  split at h
  · obtain ⟨dateLine, hread, h⟩ := Calculation.outcome_bind_eq_ok.1 h
    have hzone := isField_readDateLine hboundary hread
    obtain rfl := Except.ok.inj h
    refine ⟨?_, hstate.line⟩
    -- the first date and the calendar leave the time zone alone
    have hdates (first : LunarDate) : (state.request.set .start (.lunar first)).ZoneIsField :=
      hstate.zone.set_of_ne (by decide) _
    have hcalendar {request : Request} (hrequest : request.ZoneIsField) (name : CalendarName) :
        (request.set .calendar (calendarValue name)).ZoneIsField :=
      hrequest.set_of_ne (by decide) _
    have hothers {request : Request} (hrequest : request.ZoneIsField) {zone : String}
        (hmem : zone ∈ dateLine.timeZone) :
        (if zone.isEmpty then request else request.set .timeZone (.str zone)).ZoneIsField := by
      split
      · exact hrequest
      · exact zoneIsField_set (hzone zone hmem)
    obtain ⟨dates, calendar, timeZone⟩ := dateLine
    rcases timeZone with _ | zone <;> rcases calendar with _ | name <;>
      rcases dates with _ | ⟨first, rest⟩
    · exact hstate.zone
    · exact hdates first
    · exact hcalendar hstate.zone name
    · exact hcalendar (hdates first) name
    · exact hothers hstate.zone rfl
    · exact hothers (hdates first) rfl
    · exact hothers (hcalendar hstate.zone name) rfl
    · exact hothers (hcalendar (hdates first) name) rfl
  · split at h
    · obtain rfl := Except.ok.inj h
      refine ⟨hstate.zone, fun ruleLine hline => ?_⟩
      obtain rfl := Option.some.inj hline
      exact hboundary
    · cases h

theorem sound_readLines {texts : List (List Char)}
    (hboundary : ∀ text ∈ texts, ∀ c ∈ text, isLineBoundary c = false) (hstate : state.Sound)
    (h : (readLines ctx state texts).outcome answers = .ok state') : state'.Sound := by
  induction texts generalizing state with
  | nil =>
    obtain rfl := Except.ok.inj h
    exact hstate
  | cons text rest ih =>
    obtain ⟨htext, hrest⟩ := List.forall_mem_cons.1 hboundary
    rw [readLines] at h
    split at h
    · exact ih hrest hstate h
    · obtain ⟨next, hnext, h⟩ := Calculation.outcome_bind_eq_ok.1 h
      exact ih hrest (sound_readLine (fun c hc => htext c (mem_of_mem_trim hc)) hstate hnext) h

/-- **A time zone that is read from a text is a field.** -/
theorem zoneIsField_readRequest {text : List Char}
    (h : (readRequest ctx text).outcome answers = .ok r) : r.ZoneIsField := by
  obtain ⟨state, hstate, h⟩ := Calculation.outcome_bind_eq_ok.1 h
  have hsound : state.Sound :=
    sound_readLines (fun _ hline _ hc => isLineBoundary_of_mem_lines hline hc)
      ⟨zoneIsField_empty, by simp⟩ hstate
  split at h
  · cases h
  · rename_i line hline
    obtain ⟨given, hgiven, h⟩ := Calculation.outcome_bind_eq_ok.1 h
    obtain rfl := Except.ok.inj h
    exact hsound.zone.merge_given (zoneIsField_readRuleLine (hsound.line line hline) hgiven)

end RuleText

/-- Options keep the time zone of the request that asks for them, or none. -/
theorem RuleOptions.timeZone_of_ofRequest {r : Request} {o : RuleOptions}
    (h : (ofRequest ctx r).outcome answers = .ok o) :
    o.timeZone = .null ∨ o.timeZone = r.value .timeZone := by
  have hzone : (if (r.value .timeZone).truthy then r.value .timeZone else .null) = o.timeZone :=
    outcome_ofRequest_eq_ok.1 h .timeZone
  rw [← hzone]
  split
  · exact .inr rfl
  · exact .inl rfl

/-- **A rule that is read from a text has no time zone that could not stand in one.** -/
theorem Rule.isField_timeZone_of_ofText {text : String} {keepsMemo : Bool} {rule : Rule}
    (h : (Rule.ofText ctx text keepsMemo).outcome answers = .ok rule) {zone : String}
    (hzone : rule.options.timeZone = .str zone) : IsField zone.toList := by
  obtain ⟨r, hr, h⟩ := Calculation.outcome_bind_eq_ok.1 h
  obtain ⟨o, ho, h⟩ := Calculation.outcome_bind_eq_ok.1 h
  obtain rfl := Except.ok.inj h
  rcases RuleOptions.timeZone_of_ofRequest ho with hnull | hsame
  · rw [hnull] at hzone
    cases hzone
  · exact RuleText.zoneIsField_readRequest hr zone (hsame ▸ hzone)

end HijriRecurrence
