import HijriRecurrence.Proofs.Lunar.Built
import HijriRecurrence.Proofs.Text.Number

/-!
# Dates in rule text

The compact form of a date has four digits for the year and two for everything else, and leaves the
time out at midnight.  A date that exists is read back from it, time of day included, as long as its
year has no more than four digits (`ofRuleChars_ruleChars_eq_ok`): a longer year moves every later
digit, and one of them stands where the time should start.
-/

namespace HijriRecurrence.LunarDate

open Text

variable {ctx : Context} {answers : Answers} {d e : LunarDate}

/-- The digits of the compact form that write the day. -/
def dayChars (d : LunarDate) : List Char :=
  zeroPadded 4 d.year.natAbs ++ (zeroPadded 2 d.month.natAbs ++ zeroPadded 2 d.day.natAbs)

/-- What follows the day in the compact form. -/
def timeChars (d : LunarDate) : List Char :=
  if d.hasTime then
    'T' :: (zeroPadded 2 d.hour.natAbs ++
      (zeroPadded 2 d.minute.natAbs ++ zeroPadded 2 d.second.natAbs))
  else []

/-- The compact form of a date whose parts are in their ranges. -/
theorem ruleChars_eq (h : d.InRange) : d.ruleChars = d.dayChars ++ d.timeChars := by
  have hyear := h.year
  obtain ⟨hmonth, -⟩ := h.month
  obtain ⟨hday, -⟩ := h.day
  rw [ruleChars, dayChars, timeChars, padded_of_nonneg (by omega), padded_of_nonneg (by omega),
    padded_of_nonneg (by omega), padded_of_nonneg h.hour.1, padded_of_nonneg h.minute.1,
    padded_of_nonneg h.second.1]
  simp only [Bool.false_or, List.append_assoc, List.cons_append]

/-- What holds of the ten digits holds of all characters that write the day. -/
theorem forall_mem_dayChars {P : Char → Prop} (hdigit : ∀ n : Fin 10, P (digitChar n))
    (d : LunarDate) : ∀ c ∈ d.dayChars, P c := by
  have hpadded := forall_mem_zeroPadded hdigit
  intro c hc
  rw [dayChars, List.mem_append, List.mem_append] at hc
  rcases hc with hc | hc | hc
  · exact hpadded _ _ c hc
  · exact hpadded _ _ c hc
  · exact hpadded _ _ c hc

/-- What holds of the ten digits and the letter before the time holds of all characters of a compact
form. -/
theorem forall_mem_ruleChars {P : Char → Prop} (hdigit : ∀ n : Fin 10, P (digitChar n))
    (hletter : P 'T') (h : d.InRange) : ∀ c ∈ d.ruleChars, P c := by
  have hpadded := forall_mem_zeroPadded hdigit
  intro c hc
  rw [ruleChars_eq h, List.mem_append] at hc
  rcases hc with hc | hc
  · exact forall_mem_dayChars hdigit d c hc
  · rw [timeChars] at hc
    split at hc
    · rw [List.mem_cons, List.mem_append, List.mem_append] at hc
      rcases hc with rfl | hc | hc | hc
      · exact hletter
      · exact hpadded _ _ c hc
      · exact hpadded _ _ c hc
      · exact hpadded _ _ c hc
    · exact absurd hc List.not_mem_nil

theorem ruleChars_ne_nil (h : d.InRange) : d.ruleChars ≠ [] := by
  rw [ruleChars_eq h, dayChars]
  simp [zeroPadded_ne_nil]

/-- The compact form is a field. -/
theorem isField_ruleChars (h : d.InRange) : IsField d.ruleChars :=
  isField_of_solid (forall_mem_ruleChars (by decide) (by decide) h)

/-! ### Reading -/

/-- Three pieces and the rest of a text, found again by their widths. -/
theorem take_drop_pieces {a b c : List Char} {i j k : Nat} (ha : a.length = i)
    (hb : b.length = j) (hc : c.length = k) (rest : List Char) :
    (a ++ (b ++ (c ++ rest))).take i = a ∧
      ((a ++ (b ++ (c ++ rest))).drop i).take j = b ∧
        ((a ++ (b ++ (c ++ rest))).drop (i + j)).take k = c ∧
          (a ++ (b ++ (c ++ rest))).drop (i + j + k) = rest := by
  have hfirst : (a ++ (b ++ (c ++ rest))).drop i = b ++ (c ++ rest) := List.drop_left' ha
  have hsecond : (a ++ (b ++ (c ++ rest))).drop (i + j) = c ++ rest := by
    rw [← List.drop_drop, hfirst, List.drop_left' hb]
  have hthird : (a ++ (b ++ (c ++ rest))).drop (i + j + k) = rest := by
    rw [← List.drop_drop, hsecond, List.drop_left' hc]
  refine ⟨List.take_left' ha, ?_, ?_, hthird⟩
  · rw [hfirst, List.take_left' hb]
  · rw [hsecond, List.take_left' hc]

/-- A number below 100 has the width of two digits, and is read back from them. -/
theorem fixedDigits?_two {n : Int} (hn : 0 ≤ n) (hlt : n < 100) :
    (zeroPadded 2 n.natAbs).length = 2 ∧ fixedDigits? 2 (zeroPadded 2 n.natAbs) = some n := by
  have hpow : n.natAbs < 10 ^ (1 + 1) := by omega
  refine ⟨length_zeroPadded_of_lt hpow, ?_⟩
  rw [fixedDigits?_zeroPadded hpow]
  exact congrArg some (Int.natAbs_of_nonneg hn)

/-- The time of day is read back, also where it is left out. -/
theorem timeParts?_timeChars (h : d.InRange) :
    timeParts? d.timeChars = some (d.hour, d.minute, d.second) := by
  rw [timeChars]
  split
  · obtain ⟨hhour, hreadHour⟩ := fixedDigits?_two h.hour.1 (by have := h.hour.2; omega)
    obtain ⟨hminute, hreadMinute⟩ := fixedDigits?_two h.minute.1 (by have := h.minute.2; omega)
    obtain ⟨hsecond, hreadSecond⟩ := fixedDigits?_two h.second.1 (by have := h.second.2; omega)
    obtain ⟨htake, htake', htake'', hdrop⟩ := take_drop_pieces hhour hminute hsecond []
    rw [List.append_nil] at htake htake' htake'' hdrop
    rw [timeParts?, if_pos (.inl hdrop), htake, htake', htake'', hreadHour, hreadMinute,
      hreadSecond]
    rfl
  · rename_i htime
    simp only [hasTime, Bool.or_eq_true, bne_iff_ne, not_or, not_not] at htime
    obtain ⟨⟨hhour, hminute⟩, hsecond⟩ := htime
    rw [hhour, hminute, hsecond]
    rfl

/-- A date whose year has four digits is read back. -/
theorem ruleParts?_ruleChars (h : d.InRange) (hyear : d.year ≤ 9999) :
    ruleParts? d.ruleChars = some (d.toLunarDay, d.hour, d.minute, d.second) := by
  have hpositive := h.year
  have hpow : d.year.natAbs < 10 ^ (3 + 1) := by omega
  obtain ⟨hmonth, hreadMonth⟩ := fixedDigits?_two (by have := h.month.1; omega)
    (by have := h.month.2; omega : d.month < 100)
  obtain ⟨hday, hreadDay⟩ := fixedDigits?_two (by have := h.day.1; omega)
    (by have := h.day.2; omega : d.day < 100)
  obtain ⟨htake, htake', htake'', hdrop⟩ :=
    take_drop_pieces (length_zeroPadded_of_lt hpow) hmonth hday d.timeChars
  have hreadYear : fixedDigits? 4 (zeroPadded 4 d.year.natAbs) = some d.year := by
    rw [fixedDigits?_zeroPadded hpow]
    exact congrArg some (Int.natAbs_of_nonneg (by omega))
  rw [ruleParts?, ruleChars_eq h, dayChars, List.append_assoc, List.append_assoc, htake, htake',
    htake'', hdrop, hreadYear, hreadMonth, hreadDay, timeParts?_timeChars h]
  rfl

/-- Text that starts with a digit is no time of day. -/
theorem timeParts?_of_digit (n : Fin 10) (rest : List Char) :
    timeParts? (digitChar n :: rest) = none := by
  have hne : digitChar n ≠ 'Z' ∧ digitChar n ≠ 'T' := by revert n; decide
  unfold timeParts?
  split
  · rename_i h
    cases h
  · rename_i h
    exact absurd (List.cons.inj h).1 hne.1
  · rename_i h
    exact absurd (List.cons.inj h).1 hne.2
  · rfl

/-- A date whose year has more than four digits is not read. -/
theorem ruleParts?_eq_none (h : d.InRange) (hyear : 9999 < d.year) :
    ruleParts? d.ruleChars = none := by
  -- the digits of the day fill more than eight places
  have hlength : 8 < d.dayChars.length := by
    have hwide : 4 < (zeroPadded 4 d.year.natAbs).length := lt_length_zeroPadded (by omega)
    have hmonth := length_zeroPadded 2 d.month.natAbs
    have hday := length_zeroPadded 2 d.day.natAbs
    rw [dayChars, List.length_append, List.length_append]
    omega
  obtain ⟨n, hn⟩ := forall_mem_dayChars (P := fun c => ∃ n : Fin 10, c = digitChar n)
    (fun n => ⟨n, rfl⟩) d _ (List.getElem_mem hlength)
  have htime : timeParts? (d.ruleChars.drop 8) = none := by
    rw [ruleChars_eq h, List.drop_append_of_le_length (by omega),
      List.drop_eq_getElem_cons hlength, hn]
    exact timeParts?_of_digit n _
  rw [ruleParts?, htime]
  cases fixedDigits? 4 (d.ruleChars.take 4) with
  | none => rfl
  | some year =>
    cases fixedDigits? 2 ((d.ruleChars.drop 4).take 2) with
    | none => rfl
    | some month => cases fixedDigits? 2 ((d.ruleChars.drop 6).take 2) <;> rfl

/-- **A date is read back from its compact form exactly when its year has four digits at most.** -/
theorem ofRuleChars_ruleChars_eq_ok (h : d.Built ctx answers) :
    (ofRuleChars ctx d.ruleChars (some (.known d.variant))).outcome answers = .ok e ↔
      e = d ∧ d.year ≤ 9999 := by
  rw [ofRuleChars, (isField_ruleChars h.inRange).trimmed]
  by_cases hyear : d.year ≤ 9999
  · rw [ruleParts?_ruleChars h.inRange hyear]
    show (build ctx d).outcome answers = .ok e ↔ _
    rw [build_eq_ok]
    exact ⟨fun hbuilt => ⟨hbuilt.1, hyear⟩, fun hback => ⟨hback.1, h⟩⟩
  · rw [ruleParts?_eq_none h.inRange (by omega)]
    constructor
    · intro hread
      exact absurd hread (by simp)
    · intro hback
      exact absurd hback.2 hyear

end HijriRecurrence.LunarDate
