import HijriRecurrence.Proofs.Text.Number
import HijriRecurrence.Rule.Weekdays
import Mathlib.Data.List.Induction

/-!
# Numbers that are read

A text of digits writes a number with no more digits than the text has, since zeros in front count
for nothing (`ofDigits_lt`).  So whatever an integer was read from, it can be written within the
limit that it was read under (`hasRoomFor_of_readInt?`), and a number of fixed width and an ordinal
are below the power of ten of their width.
-/

namespace HijriRecurrence

namespace Text

/-- Digits are below ten. -/
theorem digit?_lt {c : Char} {d : Nat} (h : digit? c = some d) : d < 10 := by
  unfold digit? at h
  split at h
  · obtain rfl := Option.some.inj h
    omega
  · split at h
    · cases h
    · obtain ⟨start, hstart, rfl⟩ := Option.map_eq_some_iff.1 h
      have hrange := List.find?_some hstart
      simp only [Bool.and_eq_true, decide_eq_true_eq] at hrange
      omega

/-- So many digits write a number below the power of ten. -/
theorem ofDigits_lt {ds : List Nat} (h : ∀ d ∈ ds, d < 10) : ofDigits ds < 10 ^ ds.length := by
  induction ds using List.reverseRecOn with
  | nil => exact Nat.one_pos
  | append_singleton front d ih =>
    have hfront := ih fun e he => h e (List.mem_append_left _ he)
    have hd : d < 10 := h d (List.mem_append_right _ List.mem_cons_self)
    rw [ofDigits_append_singleton, List.length_append, List.length_singleton, Nat.pow_succ]
    omega

theorem digits_of_mapM_digit? {text : List Char} {ds : List Nat}
    (h : text.mapM digit? = some ds) : ∀ d ∈ ds, d < 10 := by
  induction text generalizing ds with
  | nil =>
    obtain rfl := Option.some.inj h
    exact fun d hd => absurd hd List.not_mem_nil
  | cons c rest ih =>
    rw [List.mapM_cons] at h
    obtain ⟨d, hd, h⟩ := Option.bind_eq_some_iff.1 h
    obtain ⟨others, hothers, h⟩ := Option.bind_eq_some_iff.1 h
    obtain rfl := Option.some.inj h
    exact List.forall_mem_cons.2 ⟨digit?_lt hd, ih hothers⟩

/-- A text of digits writes a number below the power of ten of its length. -/
theorem allDigits?_lt {text : List Char} {n : Nat} (h : allDigits? text = some n) :
    n < 10 ^ text.length := by
  obtain ⟨ds, hds, rfl⟩ := Option.map_eq_some_iff.1 h
  rw [← length_of_mapM_digit? hds]
  exact ofDigits_lt (digits_of_mapM_digit? hds)

/-- The digits between underscores are below ten, and there is one at least. -/
theorem digits_of_digitsFrom? {text : List Char} {afterDigit : Bool} {ds : List Nat}
    (h : digitsFrom? afterDigit text = some ds) :
    (∀ d ∈ ds, d < 10) ∧ (afterDigit = false → ds ≠ []) := by
  induction text generalizing afterDigit ds with
  | nil =>
    rw [digitsFrom?, Option.ite_none_right_eq_some] at h
    obtain ⟨rfl, h⟩ := h
    obtain rfl := Option.some.inj h
    exact ⟨fun d hd => absurd hd List.not_mem_nil, fun hfalse => by cases hfalse⟩
  | cons c rest ih =>
    rw [digitsFrom?] at h
    split at h
    · rw [Option.ite_none_right_eq_some] at h
      exact ⟨(ih h.2).1, fun _ => (ih h.2).2 rfl⟩
    · obtain ⟨d, hd, h⟩ := Option.bind_eq_some_iff.1 h
      obtain ⟨others, hothers, h⟩ := Option.bind_eq_some_iff.1 h
      obtain rfl := Option.some.inj h
      exact ⟨List.forall_mem_cons.2 ⟨digit?_lt hd, (ih hothers).1⟩, fun _ => List.cons_ne_nil _ _⟩

/-- More room is left by fewer digits. -/
theorem hasRoom_mono {limit : Option DigitLimit} {count fewer : Nat} (hle : fewer ≤ count)
    (h : hasRoom limit count = true) : hasRoom limit fewer = true := by
  cases limit with
  | none => rfl
  | some given =>
    simp only [hasRoom, decide_eq_true_eq] at h ⊢
    omega

/-- A natural number that is read can be written within the same limit. -/
theorem hasRoom_of_readNat? {limit : Option DigitLimit} {text : List Char} {n : Nat}
    (h : readNat? limit text = some n) : hasRoom limit (natural n).length = true := by
  obtain ⟨ds, hds, h⟩ := Option.bind_eq_some_iff.1 h
  rw [Option.ite_none_right_eq_some] at h
  obtain ⟨hroom, h⟩ := h
  obtain rfl := Option.some.inj h
  obtain ⟨hdigits, hne⟩ := digits_of_digitsFrom? hds
  obtain ⟨k, hk⟩ := Nat.exists_eq_succ_of_ne_zero (List.length_eq_zero_iff.not.2 (hne rfl))
  have hlt := ofDigits_lt hdigits
  rw [hk] at hlt
  exact hasRoom_mono (hk ▸ length_natural_le.2 hlt) hroom

/-- A number that is read behind a sign has the digits that are read. -/
theorem exists_natAbs_of_signed (read : List Char → Option Nat) {text : List Char} {n : Int}
    (h : (match text with
      | '-' :: digits => (read digits).map fun n => -(n : Int)
      | '+' :: digits => (read digits).map Int.ofNat
      | digits => (read digits).map Int.ofNat) = some n) :
    ∃ digits, read digits = some n.natAbs := by
  split at h
  · obtain ⟨m, hm, rfl⟩ := Option.map_eq_some_iff.1 h
    obtain ⟨k, hk, hcast⟩ := Option.bind_eq_some_iff.1 hm
    obtain rfl : (k : Int) = m := Option.some.inj hcast
    exact ⟨_, hk.trans (congrArg some (by omega))⟩
  · obtain ⟨k, hk, rfl⟩ := Option.map_eq_some_iff.1 h
    exact ⟨_, hk⟩
  · obtain ⟨k, hk, rfl⟩ := Option.map_eq_some_iff.1 h
    exact ⟨_, hk⟩

/-- **An integer that is read can be written within the same limit.** -/
theorem hasRoomFor_of_readInt? {limit : Option DigitLimit} {text : List Char} {n : Int}
    (h : readInt? limit text = some n) : hasRoomFor limit n = true := by
  unfold readInt? at h
  obtain ⟨digits, hdigits⟩ := exists_natAbs_of_signed (readNat? limit) h
  exact hasRoom_of_readNat? hdigits

/-- The members of a list that is read are read one by one. -/
theorem exists_of_mem_mapM {α β : Type} {read : α → Option β} {items : List α} {found : List β}
    (h : items.mapM read = some found) {b : β} (hb : b ∈ found) : ∃ a ∈ items, read a = some b := by
  induction items generalizing found with
  | nil =>
    obtain rfl := Option.some.inj h
    exact absurd hb List.not_mem_nil
  | cons a rest ih =>
    rw [List.mapM_cons] at h
    obtain ⟨first, hfirst, h⟩ := Option.bind_eq_some_iff.1 h
    obtain ⟨others, hothers, h⟩ := Option.bind_eq_some_iff.1 h
    obtain rfl := Option.some.inj h
    rcases List.mem_cons.1 hb with rfl | hmem
    · exact ⟨a, List.mem_cons_self, hfirst⟩
    · obtain ⟨c, hc, hread⟩ := ih hothers hmem
      exact ⟨c, List.mem_cons_of_mem a hc, hread⟩

end Text

/-- A number of fixed width is below the power of ten. -/
theorem LunarDate.fixedDigits?_lt {count : Nat} {text : List Char} {n : Int}
    (h : fixedDigits? count text = some n) : n < (10 ^ count : Nat) := by
  rw [fixedDigits?, Option.ite_none_right_eq_some] at h
  obtain ⟨rfl, h⟩ := h
  obtain ⟨k, hk, rfl⟩ := Option.map_eq_some_iff.1 h
  rw [Int.ofNat_eq_natCast]
  exact_mod_cast Text.allDigits?_lt hk

theorem LunarDate.fixedDigits?_nonneg {count : Nat} {text : List Char} {n : Int}
    (h : fixedDigits? count text = some n) : 0 ≤ n := by
  rw [fixedDigits?, Option.ite_none_right_eq_some] at h
  obtain ⟨k, -, rfl⟩ := Option.map_eq_some_iff.1 h.2
  exact Int.natCast_nonneg k

/-- The year of a date in compact form has four digits at most. -/
theorem LunarDate.year_of_ruleParts? {text : List Char} {day : LunarDay} {time : Int × Int × Int}
    (h : ruleParts? text = some (day, time)) : 0 ≤ day.year ∧ day.year ≤ 9999 := by
  obtain ⟨year, hread, h⟩ := Option.bind_eq_some_iff.1 h
  obtain ⟨month, -, h⟩ := Option.bind_eq_some_iff.1 h
  obtain ⟨n, -, h⟩ := Option.bind_eq_some_iff.1 h
  obtain ⟨found, -, h⟩ := Option.bind_eq_some_iff.1 h
  have hday : year = day.year := congrArg (·.1.year) (Option.some.inj h)
  have hlt := fixedDigits?_lt hread
  have hnonneg := fixedDigits?_nonneg hread
  omega

/-- An ordinal has two digits at most. -/
theorem Weekday.natAbs_le_of_readOrdinal? {text : List Char} {n : Int}
    (h : readOrdinal? text = some n) : n.natAbs ≤ 99 := by
  unfold readOrdinal? at h
  obtain ⟨digits, hdigits⟩ := Text.exists_natAbs_of_signed
    (fun digits => if digits.length = 1 ∨ digits.length = 2 then Text.allDigits? digits else none) h
  rw [Option.ite_none_right_eq_some] at hdigits
  obtain ⟨hlength, hread⟩ := hdigits
  have hlt := Text.allDigits?_lt hread
  rcases hlength with hone | htwo
  · rw [hone] at hlt
    omega
  · rw [htwo] at hlt
    omega

end HijriRecurrence
