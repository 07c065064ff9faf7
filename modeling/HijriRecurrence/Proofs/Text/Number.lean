import HijriRecurrence.Lunar.Build
import HijriRecurrence.Proofs.Text.Decimal
import HijriRecurrence.Proofs.Text.Field
import Mathlib.Algebra.Group.Int.Defs
import Mathlib.Algebra.Group.Nat.Defs

/-!
# Numbers of rule text read back

Rule text writes numbers in two ways.  An integer of any size stands in its decimal form and is read
back unless it has more digits than can be read (`readInt?_integer`).  A part of a date has a fixed
width: it is read back when it fits (`fixedDigits?_zeroPadded`), and a number that is too long is
wider than that (`lt_length_zeroPadded`).

Either way the characters are those of ten digits and a sign (`forall_mem_integer`,
`forall_mem_zeroPadded`).
-/

namespace HijriRecurrence.Text

/-! ### Characters -/

/-- What holds of the ten digits holds of all characters of a natural number. -/
theorem forall_mem_natural {P : Char → Prop} (h : ∀ d : Fin 10, P (digitChar d)) (n : Nat) :
    ∀ c ∈ natural n, P c := by
  induction n using Nat.strongRecOn with
  | ind n ih =>
    by_cases hlt : n < 10
    · rw [natural_of_lt hlt]
      intro c hc
      obtain rfl := List.mem_singleton.1 hc
      exact h ⟨n, hlt⟩
    · rw [natural_of_ge (by omega)]
      intro c hc
      rcases List.mem_append.1 hc with hc | hc
      · exact ih (n / 10) (by omega) c hc
      · obtain rfl := List.mem_singleton.1 hc
        exact h ⟨n % 10, Nat.mod_lt n (by omega)⟩

/-- What holds of the ten digits and the sign holds of all characters of an integer. -/
theorem forall_mem_integer {P : Char → Prop} (hdigit : ∀ d : Fin 10, P (digitChar d))
    (hsign : P '-') (n : Int) : ∀ c ∈ integer n, P c := by
  rw [integer]
  split
  · intro c hc
    rcases List.mem_cons.1 hc with rfl | hc
    · exact hsign
    · exact forall_mem_natural hdigit _ c hc
  · exact forall_mem_natural hdigit _

/-- What holds of the ten digits holds of all characters of a padded number. -/
theorem forall_mem_zeroPadded {P : Char → Prop} (h : ∀ d : Fin 10, P (digitChar d))
    (width n : Nat) : ∀ c ∈ zeroPadded width n, P c := by
  intro c hc
  rw [zeroPadded, List.leftpad] at hc
  rcases List.mem_append.1 hc with hc | hc
  · rw [(List.mem_replicate.1 hc).2]
    exact h 0
  · exact forall_mem_natural h n c hc

theorem integer_ne_nil (n : Int) : integer n ≠ [] := by
  rw [integer]
  split
  · exact List.cons_ne_nil _ _
  · exact natural_ne_nil _

/-! ### Lengths -/

/-- A number has as many digits as powers of ten below it, and at least one. -/
theorem length_natural_le {n k : Nat} : (natural n).length ≤ k + 1 ↔ n < 10 ^ (k + 1) := by
  induction k generalizing n with
  | zero =>
    by_cases hlt : n < 10
    · simp [natural_of_lt hlt, hlt]
    · have hpos := List.length_pos_of_ne_nil (natural_ne_nil (n / 10))
      rw [natural_of_ge (by omega), List.length_append, List.length_singleton]
      omega
  | succ k ih =>
    have hpow : 10 ^ (k + 1 + 1) = 10 * 10 ^ (k + 1) := by rw [Nat.pow_succ, Nat.mul_comm]
    by_cases hlt : n < 10
    · have := Nat.one_le_pow (k + 1) 10 (by omega)
      rw [natural_of_lt hlt, List.length_singleton, hpow]
      omega
    · rw [natural_of_ge (by omega), List.length_append, List.length_singleton,
        Nat.add_le_add_iff_right, ih, hpow]
      omega

@[simp] theorem length_zeroPadded (width n : Nat) :
    (zeroPadded width n).length = max width (natural n).length :=
  List.length_leftpad

/-- A number that fits has exactly the width that it is padded to. -/
theorem length_zeroPadded_of_lt {width n : Nat} (h : n < 10 ^ (width + 1)) :
    (zeroPadded (width + 1) n).length = width + 1 := by
  rw [length_zeroPadded]
  exact Nat.max_eq_left (length_natural_le.2 h)

/-- A number that does not fit is wider than it should be. -/
theorem lt_length_zeroPadded {width n : Nat} (h : 10 ^ (width + 1) ≤ n) :
    width + 1 < (zeroPadded (width + 1) n).length := by
  have hlong := mt length_natural_le.1 (Nat.not_lt.2 h)
  rw [length_zeroPadded]
  omega

/-! ### Reading -/

/-- A number of fixed width is read back. -/
theorem fixedDigits?_zeroPadded {width n : Nat} (h : n < 10 ^ (width + 1)) :
    LunarDate.fixedDigits? (width + 1) (zeroPadded (width + 1) n) = some (n : Int) := by
  rw [LunarDate.fixedDigits?, if_pos (length_zeroPadded_of_lt h), allDigits?_zeroPadded]
  rfl

/-- Where there are no underscores, the digits are those of the characters. -/
theorem digitsFrom?_eq_mapM {text : List Char} (h : '_' ∉ text) {afterDigit : Bool}
    (hne : text ≠ [] ∨ afterDigit = true) : digitsFrom? afterDigit text = text.mapM digit? := by
  induction text generalizing afterDigit with
  | nil =>
    obtain rfl : afterDigit = true := by simpa using hne
    rfl
  | cons c rest ih =>
    simp only [List.mem_cons, not_or] at h
    rw [digitsFrom?, if_neg (Ne.symm h.1), ih h.2 (.inr rfl), List.mapM_cons]

theorem length_of_mapM_digit? {text : List Char} {ds : List Nat}
    (h : text.mapM digit? = some ds) : ds.length = text.length := by
  induction text generalizing ds with
  | nil =>
    obtain rfl := Option.some.inj h
    rfl
  | cons c rest ih =>
    rw [List.mapM_cons] at h
    obtain ⟨d, -, h⟩ := Option.bind_eq_some_iff.1 h
    obtain ⟨others, hothers, h⟩ := Option.bind_eq_some_iff.1 h
    obtain rfl := Option.some.inj h
    rw [List.length_cons, List.length_cons, ih hothers]

/-- A natural number is read back unless it has too many digits. -/
theorem readNat?_natural (limit : Option DigitLimit) (n : Nat) :
    readNat? limit (natural n) = if hasRoom limit (natural n).length then some n else none := by
  have hunderscore : '_' ∉ natural n := by
    intro hmem
    exact forall_mem_natural (P := (· ≠ '_')) (by decide) n '_' hmem rfl
  obtain ⟨ds, hds, hvalue⟩ := Option.map_eq_some_iff.1 (allDigits?_natural n)
  rw [readNat?, digitsFrom?_eq_mapM hunderscore (.inl (natural_ne_nil n)), hds]
  show (if hasRoom limit ds.length then some (ofDigits ds) else none) = _
  rw [length_of_mapM_digit? hds, hvalue]

theorem dropWhile_eq_self {p : Char → Bool} {text : List Char} (h : ∀ c ∈ text, p c = false) :
    text.dropWhile p = text := by
  cases text with
  | nil => rfl
  | cons c rest => rw [List.dropWhile_cons_of_neg (by simp [h c List.mem_cons_self])]

/-- A text without margins is what trimming them leaves alone. -/
theorem trimMargin_eq_self {text : List Char} (h : ∀ c ∈ text, isMargin c = false) :
    trimMargin text = text := by
  rw [trimMargin, dropWhile_eq_self h,
    dropWhile_eq_self fun c hc => h c (List.mem_reverse.1 hc), List.reverse_reverse]

/-- Whether the digits of an integer are within a limit, if there is one. -/
def hasRoomFor (limit : Option DigitLimit) (n : Int) : Bool :=
  hasRoom limit (natural n.natAbs).length

theorem forall_hasRoomFor_iff {limit : Option DigitLimit} {ns : List Int} :
    (∀ n ∈ ns, hasRoomFor limit n = true) ↔
      ∀ given ∈ limit, ∀ n ∈ ns, (natural n.natAbs).length ≤ given.digits := by
  cases limit with
  | none => simp [hasRoomFor, hasRoom]
  | some given => simp [hasRoomFor, hasRoom]

/-- A sign in front of a number is told from its digits: reading with a sign is reading the digits
and giving them the sign. -/
theorem signed_integer (read : List Char → Option Nat) {p : Nat → Prop} [DecidablePred p]
    (h : ∀ n, read (natural n) = if p n then some n else none) (n : Int) :
    (match integer n with
      | '-' :: digits => (read digits).map fun n => -(n : Int)
      | '+' :: digits => (read digits).map Int.ofNat
      | digits => (read digits).map Int.ofNat) = if p n.natAbs then some n else none := by
  rw [integer]
  by_cases hneg : n < 0
  · rw [if_pos hneg]
    simp only [h]
    split
    · exact congrArg some (show -(n.natAbs : Int) = n by omega)
    · rfl
  · -- a digit in front is no sign
    have hsign : ∀ c ∈ natural n.natAbs, c ≠ '-' ∧ c ≠ '+' := forall_mem_natural (by decide) _
    rw [if_neg hneg]
    split
    · rename_i hdash
      exact absurd rfl (hsign '-' (hdash ▸ List.mem_cons_self)).1
    · rename_i hplus
      exact absurd rfl (hsign '+' (hplus ▸ List.mem_cons_self)).2
    · rw [h]
      split
      · exact congrArg some (Int.natAbs_of_nonneg (by omega))
      · rfl

/-- **An integer is read back unless it has too many digits.** -/
theorem readInt?_integer (limit : Option DigitLimit) (n : Int) :
    readInt? limit (integer n) = if hasRoomFor limit n then some n else none := by
  have hmargin : ∀ c ∈ integer n, isMargin c = false :=
    forall_mem_integer (by decide) (by decide) n
  rw [readInt?, trimMargin_eq_self hmargin]
  exact signed_integer _ (readNat?_natural limit) n

/-- The least number with more digits than a limit allows. -/
theorem hasRoomFor_pow (limit : DigitLimit) :
    hasRoomFor (some limit) (10 ^ limit.digits) = false := by
  obtain ⟨k, hk⟩ := Nat.exists_eq_add_of_le (Nat.le_trans (by decide : 1 ≤ 640) limit.enough)
  have hlength := length_natural_le (n := 10 ^ (k + 1)) (k := k)
  have habs : (10 ^ (k + 1) : Int).natAbs = 10 ^ (k + 1) := Int.natAbs_pow 10 (k + 1)
  rw [hasRoomFor, hasRoom, hk, Nat.add_comm, habs, decide_eq_false_iff_not, hlength]
  exact Nat.lt_irrefl _

/-- Every limit leaves room for three digits. -/
theorem hasRoomFor_of_lt (limit : Option DigitLimit) {n : Int} (h : n.natAbs < 1000) :
    hasRoomFor limit n = true := by
  have hlength := (length_natural_le (k := 2)).2 h
  cases limit with
  | none => rfl
  | some limit =>
    have := limit.enough
    exact decide_eq_true (by omega)

end HijriRecurrence.Text
