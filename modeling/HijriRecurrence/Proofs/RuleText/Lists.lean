import HijriRecurrence.Proofs.Rule.Canonical
import HijriRecurrence.Proofs.Text.Number
import HijriRecurrence.RuleText.Printer
import HijriRecurrence.RuleText.Reader

/-!
# Lists of rule text read back

A list stands in rule text as items with commas between them: integers, or weekday tokens.  No item
holds a comma, so that a list is cut where it was joined, and it is read back when all of its items
are.  Integers are read back unless they are too long for the reader
(`readIntegers?_integersText_eq_some`), days of the week unless their ordinal has more than two digits
(`readWeekdayTokens_weekdaysText_eq_ok`).
-/

namespace HijriRecurrence

open Text

namespace RuleText

open RuleOptions

/-! ### Joined items -/

section Joined

variable {α : Type} {write : α → List Char}

/-- What holds of the characters of all items, and of the comma, holds of all characters of a
list. -/
theorem forall_mem_joinWith_map {P : Char → Prop} (hitem : ∀ a, ∀ c ∈ write a, P c)
    (hcomma : P ',') (items : List α) : ∀ c ∈ joinWith [','] (items.map write), P c := by
  intro c hc
  rcases mem_joinWith hc with hc | ⟨piece, hpiece, hc⟩
  · obtain rfl := List.mem_singleton.1 hc
    exact hcomma
  · obtain ⟨a, -, rfl⟩ := List.mem_map.1 hpiece
    exact hitem a c hc

theorem joinWith_map_ne_nil {separator : List Char} (hitem : ∀ a, write a ≠ []) {items : List α}
    (hne : items ≠ []) : joinWith separator (items.map write) ≠ [] := by
  cases items with
  | nil => exact absurd rfl hne
  | cons a rest => cases rest <;> simp [joinWith, hitem]

/-- A list is cut where it was joined. -/
theorem splitOn_joinWith_map (hitem : ∀ a, ∀ c ∈ write a, c ≠ ',') {items : List α}
    (hne : items ≠ []) : splitOn ',' (joinWith [','] (items.map write)) = items.map write := by
  refine splitOn_joinWith (by simpa using hne) fun piece hpiece hmem => ?_
  obtain ⟨a, -, rfl⟩ := List.mem_map.1 hpiece
  exact hitem a ',' hmem rfl

end Joined

/-! ### Integers -/

theorem isField_integersText (ns : List Int) : IsField (integersText ns) :=
  isField_of_solid
    (forall_mem_joinWith_map (forall_mem_integer (by decide) (by decide)) (by decide) ns)

theorem integersText_ne_nil {ns : List Int} (hne : ns ≠ []) : integersText ns ≠ [] :=
  joinWith_map_ne_nil integer_ne_nil hne

/-- Items that are read back one by one are read back as a list. -/
theorem mapM_map_eq_some {α β : Type} {write : α → β} {read : β → Option α} {p : α → Bool}
    (h : ∀ a, read (write a) = if p a then some a else none) {items back : List α} :
    (items.map write).mapM read = some back ↔ back = items ∧ ∀ a ∈ items, p a = true := by
  induction items generalizing back with
  | nil => exact ⟨fun h => ⟨(Option.some.inj h).symm, by simp⟩, fun h => congrArg some h.1.symm⟩
  | cons a rest ih =>
    have hread : (write a :: rest.map write).mapM read = some back ↔
        p a = true ∧ ∃ others, (rest.map write).mapM read = some others ∧ a :: others = back := by
      rw [List.mapM_cons, h]
      split <;> simp [Option.bind_eq_some_iff, *]
    rw [List.map_cons, hread, List.forall_mem_cons]
    constructor
    · rintro ⟨ha, others, hothers, rfl⟩
      obtain ⟨rfl, hrest⟩ := ih.1 hothers
      exact ⟨rfl, ha, hrest⟩
    · rintro ⟨rfl, ha, hrest⟩
      exact ⟨ha, rest, ih.2 ⟨rfl, hrest⟩, rfl⟩

/-- **A list of integers is read back exactly when none of them is too long.** -/
theorem readIntegers?_integersText_eq_some {limit : Option DigitLimit} {ns back : List Int}
    (hne : ns ≠ []) :
    readIntegers? limit (integersText ns) = some back ↔
      back = ns ∧ ∀ n ∈ ns, hasRoomFor limit n = true := by
  rw [readIntegers?, integersText,
    splitOn_joinWith_map (forall_mem_integer (by decide) (by decide)) hne]
  exact mapM_map_eq_some (readInt?_integer limit)

end RuleText

/-! ### Weekdays -/

namespace Weekday

/-- Whether the ordinal of a weekday has no more digits than a token may have. -/
def Fits (w : Weekday) : Prop := ∀ n ∈ w.ordinal?, n.natAbs ≤ 99

/-- What holds of the numbers from 0 to 6 and their codes holds of every number, without its whole
weeks, and its code. -/
theorem forall_weekdayCode {P : Int → List Char → Prop}
    (h : ∀ day : Fin 7, P day.val (weekdayCode day.val).toList) (n : Int) :
    P (n % 7) (weekdayCode n).toList := by
  have hday := h ⟨(n % 7).toNat, by omega⟩
  have hnumber : (((n % 7).toNat : Nat) : Int) = n % 7 := by omega
  have hcode : weekdayCode (n % 7) = weekdayCode n := by
    rw [weekdayCode, weekdayCode, Int.emod_emod]
  rwa [hnumber, hcode] at hday

/-- What holds of the ten digits, the sign and the letters of the codes holds of all characters of a
token. -/
theorem forall_mem_tokenChars {P : Char → Prop} (hdigit : ∀ d : Fin 10, P (digitChar d))
    (hsign : P '-') (hcode : ∀ day : Fin 7, ∀ c ∈ (weekdayCode day.val).toList, P c)
    (w : Weekday) : ∀ c ∈ w.tokenChars, P c := by
  have hletters : ∀ c ∈ w.code.toList, P c :=
    forall_weekdayCode (P := fun _ code => ∀ c ∈ code, P c) hcode w.number
  intro c hc
  rw [tokenChars] at hc
  split at hc
  · exact hletters c hc
  · rcases List.mem_append.1 hc with hc | hc
    · exact forall_mem_integer hdigit hsign _ c hc
    · exact hletters c hc

theorem tokenChars_ne_nil (w : Weekday) : w.tokenChars ≠ [] := by
  have hcode : w.code.toList ≠ [] :=
    forall_weekdayCode (P := fun _ code => code ≠ []) (by decide) w.number
  rw [tokenChars]
  split
  · exact hcode
  · exact List.append_ne_nil_of_right_ne_nil _ hcode

/-- Characters that are their own capitals make a text that is. -/
theorem upper_eq_self {text : List Char} (h : ∀ c ∈ text, upperChar c = [c]) :
    upper text = text := by
  induction text with
  | nil => rfl
  | cons c rest ih =>
    rw [upper, List.flatMap_cons, h c List.mem_cons_self]
    exact congrArg (c :: ·) (ih fun d hd => h d (List.mem_cons_of_mem c hd))

theorem upper_tokenChars (w : Weekday) : upper (trim w.tokenChars) = w.tokenChars := by
  rw [(isField_of_solid (forall_mem_tokenChars (by decide) (by decide) (by decide) w)).trimmed]
  exact upper_eq_self (forall_mem_tokenChars (by decide) (by decide) (by decide) w)

/-- Two capitals are a code, and the code is read as a day of the week. -/
structure IsCodeOf (n : Int) (code : List Char) : Prop where
  length : code.length = 2
  upper : upper code = code
  day : ∃ day : Fin 7, (day.val : Int) = n ∧ dayOfCode? code = some day

theorem isCodeOf_code {w : Weekday} (h : IsWeekday w.number) : IsCodeOf w.number w.code.toList := by
  have hday : ∀ day : Fin 7, (weekdayCode day.val).toList.length = 2 ∧
      Text.upper (weekdayCode day.val).toList = (weekdayCode day.val).toList ∧
      dayOfCode? (weekdayCode day.val).toList = some day := by decide
  have hcode : IsCodeOf (w.number % 7) w.code.toList :=
    forall_weekdayCode (P := IsCodeOf)
      (fun day => ⟨(hday day).1, (hday day).2.1, day, rfl, (hday day).2.2⟩) w.number
  rwa [Int.emod_eq_of_lt h.1 (Int.lt_of_le_of_lt h.2 (by decide))] at hcode

/-- A token of a day of the week is taken apart where its code starts. -/
theorem exists_tokenParts? {w : Weekday} (hday : IsWeekday w.number) (front : List Char) :
    ∃ day : Fin 7, (day.val : Int) = w.number ∧
      tokenParts? (front ++ w.code.toList) =
        match front with
        | [] => some (none, day)
        | ordinal => (readOrdinal? ordinal).map fun n => (some n, day) := by
  obtain ⟨hlength, -, day, hnumber, hread⟩ := isCodeOf_code hday
  have hfront : (front ++ w.code.toList).length - 2 = front.length := by
    rw [List.length_append, hlength, Nat.add_sub_cancel]
  refine ⟨day, hnumber, ?_⟩
  rw [tokenParts?, if_neg (by rw [List.length_append, hlength]; omega), hfront, List.drop_left,
    List.take_left, hread]
  cases front with
  | nil => rfl
  | cons c rest => cases hordinal : readOrdinal? (c :: rest) <;> simp [hordinal]

/-- An ordinal of one or two digits is read back. -/
theorem readOrdinal?_integer (n : Int) :
    readOrdinal? (integer n) = if n.natAbs ≤ 99 then some n else none := by
  refine signed_integer (p := (· ≤ 99)) _ (fun k => ?_) n
  have hlength : (natural k).length = 1 ∨ (natural k).length = 2 ↔ k ≤ 99 := by
    have hle := length_natural_le (n := k) (k := 1)
    have hpos := List.length_pos_of_ne_nil (natural_ne_nil k)
    omega
  simp only [hlength, allDigits?_natural]

/-- **A day of the week is read back from its token exactly when its ordinal has two digits at
most.** -/
theorem ofToken_tokenChars_eq_ok {w back : Weekday} (hday : IsWeekday w.number) (hw : w.Proper)
    {given : Value} : ofToken given w.tokenChars = .ok back ↔ back = w ∧ w.Fits := by
  rw [ofToken, upper_tokenChars]
  cases hordinal : w.ordinal with
  | none =>
    have hnone : w.ordinal? = none := by rw [ordinal?, hordinal, Option.filter_none]
    have hfits : w.Fits := by simp [Fits, hnone]
    obtain ⟨day, hnumber, hread⟩ := exists_tokenParts? hday []
    have hsame : (⟨day.val, none⟩ : Weekday) = w := by rw [hnumber, ← hordinal]
    rw [List.nil_append] at hread
    rw [tokenChars, hnone, hread, and_iff_left hfits, eq_comm, ← hsame]
    exact ⟨Except.ok.inj, congrArg Except.ok⟩
  | some n =>
    have hn : n ≠ 0 := fun h => hw (hordinal.trans (congrArg some h))
    have hsome : w.ordinal? = some n := by simp [ordinal?, hordinal, Option.filter, hn]
    obtain ⟨day, hnumber, hread⟩ := exists_tokenParts? hday (integer n)
    have hsame : (⟨day.val, some n⟩ : Weekday) = w := by rw [hnumber, ← hordinal]
    have hparts : tokenParts? w.tokenChars = (readOrdinal? (integer n)).map fun n => (some n, day) := by
      rw [tokenChars, hsome, hread]
      cases hchars : integer n with
      | nil => exact absurd hchars (integer_ne_nil n)
      | cons c rest => rfl
    have hfits : w.Fits ↔ n.natAbs ≤ 99 := by simp [Fits, hsome]
    rw [hparts, readOrdinal?_integer, hfits, ← hsame]
    by_cases hshort : n.natAbs ≤ 99
    · rw [if_pos hshort, and_iff_left hshort, Option.map_some]
      split
      · rename_i h
        cases h
      · rename_i h
        exact absurd (Option.some.inj (Prod.mk.inj (Option.some.inj h)).1) hn
      · rename_i h
        obtain ⟨rfl, rfl⟩ := Prod.mk.inj (Option.some.inj h)
        rw [eq_comm]
        exact ⟨Except.ok.inj, congrArg Except.ok⟩
    · rw [if_neg hshort]
      exact ⟨fun h => (by cases h), fun h => absurd h.2 hshort⟩

end Weekday

namespace RuleText

open RuleOptions

theorem isField_weekdaysText (ws : List Weekday) : IsField (weekdaysText ws) :=
  isField_of_solid (forall_mem_joinWith_map
    (Weekday.forall_mem_tokenChars (by decide) (by decide) (by decide)) (by decide) ws)

theorem weekdaysText_ne_nil {ws : List Weekday} (hne : ws ≠ []) : weekdaysText ws ≠ [] :=
  joinWith_map_ne_nil Weekday.tokenChars_ne_nil hne

/-- **A list of days of the week is read back exactly when no ordinal in it has more than two
digits.** -/
theorem readWeekdayTokens_weekdaysText_eq_ok {ws back : List Weekday}
    (hdays : ∀ w ∈ ws, IsWeekday w.number) (hproper : ∀ w ∈ ws, w.Proper) (hne : ws ≠ []) :
    readWeekdayTokens (splitOn ',' (weekdaysText ws)) = .ok back ↔
      back = ws ∧ ∀ w ∈ ws, w.Fits := by
  rw [weekdaysText, splitOn_joinWith_map
    (Weekday.forall_mem_tokenChars (by decide) (by decide) (by decide)) hne]
  clear hne
  induction ws generalizing back with
  | nil => exact ⟨fun h => ⟨(Except.ok.inj h).symm, by simp⟩, fun h => congrArg Except.ok h.1.symm⟩
  | cons w rest ih =>
    obtain ⟨hday, hdaysRest⟩ := List.forall_mem_cons.1 hdays
    obtain ⟨hfirst, hproperRest⟩ := List.forall_mem_cons.1 hproper
    rw [List.map_cons, readWeekdayTokens, Calculation.except_bind_eq_ok, List.forall_mem_cons]
    constructor
    · rintro ⟨v, hv, hothers⟩
      obtain ⟨vs, hvs, hback⟩ := Calculation.except_bind_eq_ok.1 hothers
      obtain ⟨rfl, hfits⟩ := (Weekday.ofToken_tokenChars_eq_ok hday hfirst).1 hv
      obtain ⟨rfl, hall⟩ := (ih hdaysRest hproperRest).1 hvs
      exact ⟨(Except.ok.inj hback).symm, hfits, hall⟩
    · rintro ⟨rfl, hfits, hall⟩
      refine ⟨w, (Weekday.ofToken_tokenChars_eq_ok hday hfirst).2 ⟨rfl, hfits⟩, ?_⟩
      exact Calculation.except_bind_eq_ok.2 ⟨_, (ih hdaysRest hproperRest).2 ⟨rfl, hall⟩, rfl⟩

end RuleText

end HijriRecurrence
