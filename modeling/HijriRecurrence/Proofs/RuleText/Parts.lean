import HijriRecurrence.Proofs.Outcome
import HijriRecurrence.Proofs.Text.Field
import HijriRecurrence.RuleText.Printer
import HijriRecurrence.RuleText.Reader

/-!
# Parts of a rule line read back

An `Entry` is a part of a rule line together with the value that it stands for.  When its name is
known and its text is a field (`WellFormed`), the reader finds the name and the text again, whatever
the other parts are.  So a whole line is read back when every entry on it is: as a request that
gives each option the value of its entry (`readPartsFrom_entries_eq_ok`).
-/

namespace HijriRecurrence.RuleText

open Text

variable {ctx : Context} {answers : Answers} {calendar : Option CalendarName}

/-- Refusing what cannot be read. -/
theorem outcome_orRefuse (read : Option Value) (refusal : Error) {v : Value} :
    (match read with
      | some v => pure v
      | none => throw refusal : Calculation Value).outcome answers = .ok v ↔ read = some v := by
  cases read with
  | none => simp
  | some w => simp

theorem eq_of_orRefuse_eq_error {read : Option Value} {refusal e : Error}
    (h : (match read with
      | some v => pure v
      | none => throw refusal : Calculation Value).outcome answers = .error e) : e = refusal := by
  cases read with
  | none => exact (Except.error.inj h).symm
  | some v => cases h

/-- A part of a rule line with the value that it stands for, and with what it takes for the text to
be read as that value. -/
structure Entry where
  name : String
  form : PartForm
  text : List Char
  value : Value
  fits : Prop := True

namespace Entry

def part (e : Entry) : List Char := RuleOptions.part e.name e.text

/-- What an entry changes in a request. -/
def change (e : Entry) : OptionName × Value := (e.form.option, e.value)

/-- An entry with a known name, whose text stands alone between semicolons. -/
structure WellFormed (e : Entry) : Prop where
  known : partForm? e.name.toList = some e.form
  field : IsField e.text
  ne_nil : e.text ≠ []

/-- The text of an entry is read as its value, and as no other one, exactly when it fits. -/
def Reads (ctx : Context) (answers : Answers) (calendar : Option CalendarName) (e : Entry) : Prop :=
  ∀ refusal v,
    (readForm ctx calendar refusal e.form e.text).outcome answers = .ok v ↔ e.fits ∧ e.value = v

variable {e : Entry}

/-! ### Names -/

/-- Names of parts are written in solid capitals, without an equals sign. -/
theorem partForms_names : ∀ entry ∈ partForms, entry.1.toList ≠ [] ∧ '=' ∉ entry.1.toList ∧
    (∀ c ∈ entry.1.toList, isSolid c = true) ∧ upper (trim entry.1.toList) = entry.1.toList := by
  decide

theorem WellFormed.exists_mem (h : e.WellFormed) :
    ∃ entry ∈ partForms, entry.1.toList = e.name.toList := by
  obtain ⟨entry, hentry, -⟩ := Option.map_eq_some_iff.1 h.known
  exact ⟨entry, List.mem_of_find?_eq_some hentry, by simpa using List.find?_some hentry⟩

/-- A part of a rule line is a field. -/
theorem WellFormed.isField_part (h : e.WellFormed) : IsField e.part := by
  obtain ⟨entry, hentry, hname⟩ := h.exists_mem
  obtain ⟨-, -, hsolid, -⟩ := partForms_names entry hentry
  have hfront : ∀ c ∈ e.name.toList ++ ['='], isSolid c = true := by
    intro c hc
    rcases List.mem_append.1 hc with hc | hc
    · exact hsolid c (hname ▸ hc)
    · obtain rfl := List.mem_singleton.1 hc
      decide
  have hpart : e.part = (e.name.toList ++ ['=']) ++ e.text := by simp [part, RuleOptions.part]
  rw [hpart]
  exact IsField.append hfront h.ne_nil h.field

theorem part_ne_nil (e : Entry) : e.part ≠ [] := by simp [part, RuleOptions.part]

/-! ### Reading -/

/-- One part is read as the change that its entry makes, exactly when the entry fits. -/
theorem readPart_eq_ok (h : e.WellFormed) (hreads : e.Reads ctx answers calendar) {r r' : Request} :
    (readPart ctx calendar r e.part).outcome answers = .ok r' ↔
      e.fits ∧ r.set e.form.option e.value = r' := by
  obtain ⟨entry, hentry, hname⟩ := h.exists_mem
  obtain ⟨-, hequals, -, hupper⟩ := partForms_names entry hentry
  rw [hname] at hequals hupper
  have hcut : cutAt '=' e.part = (e.name.toList, some e.text) := cutAt_append hequals e.text
  simp only [readPart, hcut, hupper, h.known, h.field.trimmed]
  have hfail (refusal e : Error) (v : Value) :
      (if e.isRefusal then throw refusal else throw e : Calculation Value).outcome answers ≠
        .ok v := by
    split <;> simp
  simp only [Calculation.outcome_bind_eq_ok, Calculation.outcome_tryCatch_eq_ok (hfail _),
    hreads _ _]
  constructor
  · rintro ⟨v, ⟨hfits, rfl⟩, hset⟩
    exact ⟨hfits, Except.ok.inj hset⟩
  · rintro ⟨hfits, rfl⟩
    exact ⟨e.value, ⟨hfits, rfl⟩, rfl⟩

end Entry

/-- **A rule line is read as the changes of its entries, exactly when all of them fit.** -/
theorem readPartsFrom_entries_eq_ok {entries : List Entry} (hform : ∀ e ∈ entries, e.WellFormed)
    (hreads : ∀ e ∈ entries, e.Reads ctx answers calendar) {r r' : Request} :
    (readPartsFrom ctx calendar r (entries.map (·.part))).outcome answers = .ok r' ↔
      (∀ e ∈ entries, e.fits) ∧ r.merge (entries.map (·.change)) = r' := by
  induction entries generalizing r with
  | nil => exact ⟨fun h => ⟨by simp, Except.ok.inj h⟩, fun h => congrArg Except.ok h.2⟩
  | cons e rest ih =>
    obtain ⟨he, hrest⟩ := List.forall_mem_cons.1 hform
    obtain ⟨hread, hreadRest⟩ := List.forall_mem_cons.1 hreads
    have hnonempty : (trim e.part).isEmpty = false := by
      rw [he.isField_part.trimmed]
      simp [e.part_ne_nil]
    rw [List.map_cons, readPartsFrom, hnonempty, he.isField_part.trimmed, List.forall_mem_cons]
    simp only [Bool.false_eq_true, if_false]
    rw [Calculation.outcome_bind_eq_ok]
    constructor
    · rintro ⟨next, hnext, hr'⟩
      obtain ⟨hfits, rfl⟩ := (Entry.readPart_eq_ok he hread).1 hnext
      obtain ⟨hall, hmerge⟩ := (ih hrest hreadRest).1 hr'
      exact ⟨⟨hfits, hall⟩, hmerge⟩
    · rintro ⟨⟨hfits, hall⟩, hmerge⟩
      exact ⟨_, (Entry.readPart_eq_ok he hread).2 ⟨hfits, rfl⟩,
        (ih hrest hreadRest).2 ⟨hall, hmerge⟩⟩

end HijriRecurrence.RuleText
