import HijriRecurrence.Proofs.Rule.Normalized

/-!
# Options in their one form

Options of a rule are `Canonical` when they are normalized and nothing in them can be put in a
second way: a weekday without an ordinal carries none at all, and a time zone is a name or nothing.  The
options that a request asks for are canonical whenever its time zone is a string or absent
(`canonical_of_ofRequest`).
-/

namespace HijriRecurrence

variable {ctx : Context} {answers : Answers}

namespace Weekday

/-- A weekday that carries no ordinal zero. -/
def Proper (w : Weekday) : Prop := w.ordinal ≠ some 0

/-- A weekday that is read from a token is proper. -/
theorem proper_of_ofToken {given : Value} {text : List Char} {w : Weekday}
    (h : ofToken given text = .ok w) : w.Proper := by
  unfold ofToken at h
  split at h
  · cases h
  · cases h
  · rename_i hzero _
    obtain rfl := Except.ok.inj h
    intro hw
    exact hzero hw

/-- A weekday that a value stands for is proper, unless the value is a weekday that is not. -/
theorem proper_of_ofValue {value : Value} {w : Weekday}
    (hvalue : ∀ v, value = .weekday v → v.Proper) (h : ofValue value = .ok w) : w.Proper := by
  unfold ofValue at h
  split at h
  · obtain rfl := Except.ok.inj h
    exact hvalue _ rfl
  · exact proper_of_ofToken h
  · exact proper_of_ofToken h
  · split at h
    · rename_i v hnumber
      obtain rfl := Except.ok.inj h
      obtain ⟨-, rfl⟩ := Option.ite_some_none_eq_some.1 hnumber
      intro hzero
      cases hzero
    · cases h
  · cases h

/-- A proper weekday carries an ordinal exactly when it counts as one of its period. -/
theorem Proper.isNth_eq_false_iff {w : Weekday} (h : w.Proper) :
    w.isNth = false ↔ w.ordinal = none := by
  obtain ⟨day, ordinal⟩ := w
  cases ordinal with
  | none => simp [isNth, ordinal?]
  | some n =>
    have hn : n ≠ 0 := fun hzero => h (congrArg some hzero)
    simp [isNth, ordinal?, Option.filter, hn]

theorem proper_of_isNth {w : Weekday} (h : w.isNth = true) : w.Proper := by
  intro hzero
  simp [isNth, ordinal?, hzero, Option.filter] at h

end Weekday

namespace RuleOptions

variable {o : RuleOptions}

/-- Normalized options of which no part can be put in a second way. -/
structure Canonical (ctx : Context) (answers : Answers) (o : RuleOptions) : Prop
    extends Normalized ctx answers o where
  plain : ∀ w ∈ o.weekdays, w.ordinal = none
  timeZone : o.timeZone = .null ∨ ∃ s, s ≠ "" ∧ o.timeZone = .str s

theorem Canonical.proper (h : o.Canonical ctx answers) : ∀ w ∈ o.allWeekdays, w.Proper := by
  intro w hw
  rcases List.mem_append.1 hw with hw | hw
  · intro hzero
    rw [h.plain w hw] at hzero
    cases hzero
  · exact Weekday.proper_of_isNth (h.nthWeekdays w hw)

/-- Canonical options are checked. -/
theorem Canonical.checked (h : o.Canonical ctx answers) : o.Checked :=
  { h.toNormalized with
    frequency := by cases o.frequency <;> decide
    start := h.start_variant
    last := fun d hd => (h.last d hd).2
    timeZone := by
      refine h.timeZone.imp_right ?_
      rintro ⟨s, hs, hzone⟩
      rw [hzone]
      simp [Value.truthy, hs] }

theorem proper_of_mem_readWeekdayItems {items : List Value} {ws : List Weekday}
    (hitems : ∀ v, .weekday v ∈ items → v.Proper) (h : readWeekdayItems items = .ok ws)
    {w : Weekday} (hw : w ∈ ws) : w.Proper := by
  induction items generalizing ws with
  | nil =>
    obtain rfl := Except.ok.inj h
    exact absurd hw List.not_mem_nil
  | cons item rest ih =>
    obtain ⟨first, hitem, h⟩ := Calculation.except_bind_eq_ok.1 h
    obtain ⟨others, hrest, h⟩ := Calculation.except_bind_eq_ok.1 h
    obtain rfl := Except.ok.inj h
    rcases List.mem_cons.1 hw with rfl | hmem
    · refine Weekday.proper_of_ofValue (fun v hv => hitems v ?_) hitem
      rw [hv]
      exact List.mem_cons_self
    · exact ih (fun v hv => hitems v (List.mem_cons_of_mem item hv)) hrest hmem

/-- **Options that a request asks for are canonical**, when its time zone is a string or absent. -/
theorem canonical_of_ofRequest {r : Request}
    (hstart : LunarDate.BuiltValue ctx answers (r.value .start))
    (hlast : LunarDate.BuiltValue ctx answers (r.value .last))
    (hweekdays : ∀ items, (ctx.items (r.value .weekdays)).outcome answers = .ok items →
      ∀ v, .weekday v ∈ items → v.Proper)
    (hzone : r.value .timeZone = .null ∨ ∃ s, r.value .timeZone = .str s)
    (h : (ofRequest ctx r).outcome answers = .ok o) : o.Canonical ctx answers := by
  have hread := outcome_ofRequest_eq_ok.1 h
  refine { normalized_of_ofRequest hstart hlast h with plain := fun w hw => ?_, timeZone := ?_ }
  · obtain ⟨ws, ⟨items, hitems, hws⟩, hplain, -⟩ := hread .weekdays
    rw [← hplain] at hw
    obtain ⟨hmem, hisNth⟩ := List.mem_filter.1 hw
    have hproper : w.Proper := proper_of_mem_readWeekdayItems (hweekdays items hitems) hws hmem
    exact hproper.isNth_eq_false_iff.1 (by simpa using hisNth)
  · have htimeZone : (if (r.value .timeZone).truthy then r.value .timeZone else .null) =
        o.timeZone := hread .timeZone
    rw [← htimeZone]
    split
    · rename_i htruthy
      refine hzone.imp_right ?_
      rintro ⟨s, hs⟩
      refine ⟨s, ?_, hs⟩
      rintro rfl
      rw [hs] at htruthy
      exact absurd htruthy (by decide)
    · exact .inl rfl

end RuleOptions

end HijriRecurrence
