import HijriRecurrence.Text.Digit
import HijriRecurrence.Text.Integer

/-!
# Decimal forms read back

The digits of a decimal form are read back as the number that was written (`allDigits?_natural`),
and zeros in front of them change nothing (`allDigits?_leftpad`).  So a number is known by its
padded form, of whatever width (`padded_injective`), also when more text follows after a dash
(`padded_dash_inj`): a dash after a digit ends the number, and one in front is its sign.
-/

namespace HijriRecurrence.Text

/-! ### Digits -/

@[simp] theorem digit?_digitChar {d : Nat} (h : d < 10) : digit? (digitChar d) = some d := by
  have hall : ∀ e : Fin 10, digit? (digitChar e) = some e.val := by decide
  exact hall ⟨d, h⟩

theorem ofDigits_append_singleton (ds : List Nat) (d : Nat) :
    ofDigits (ds ++ [d]) = 10 * ofDigits ds + d := by
  simp [ofDigits]

/-- The number that is read grows by one digit at its end. -/
theorem allDigits?_append_singleton {text : List Char} {n d : Nat} {c : Char}
    (h : allDigits? text = some n) (hc : digit? c = some d) :
    allDigits? (text ++ [c]) = some (10 * n + d) := by
  unfold allDigits? at h ⊢
  obtain ⟨ds, hds, rfl⟩ := Option.map_eq_some_iff.1 h
  simp [List.mapM_append, hds, hc, ofDigits_append_singleton]

/-- A decimal form is read back. -/
@[simp] theorem allDigits?_natural (n : Nat) : allDigits? (natural n) = some n := by
  induction n using Nat.strongRecOn with
  | ind n ih =>
    by_cases hlt : n < 10
    · rw [natural_of_lt hlt]
      simp [allDigits?, hlt, ofDigits]
    · have hlast : digit? (digitChar (n % 10)) = some (n % 10) :=
        digit?_digitChar (Nat.mod_lt n (by omega))
      rw [natural_of_ge (by omega),
        allDigits?_append_singleton (ih (n / 10) (by omega)) hlast]
      exact congrArg some (by omega)

theorem allDigits?_zero_cons (text : List Char) : allDigits? ('0' :: text) = allDigits? text := by
  have hzero : digit? '0' = some 0 := by decide
  unfold allDigits?
  rw [List.mapM_cons, hzero]
  cases text.mapM digit? with
  | none => rfl
  | some ds => exact congrArg some (by simp [ofDigits])

/-- Zeros in front of a number change nothing. -/
@[simp] theorem allDigits?_leftpad (width : Nat) (text : List Char) :
    allDigits? (text.leftpad width '0') = allDigits? text := by
  unfold List.leftpad
  induction width - text.length with
  | zero => rfl
  | succ zeros ih => rw [List.replicate_succ, List.cons_append, allDigits?_zero_cons, ih]

/-- A text of digits has no dash. -/
theorem dash_notMem {text : List Char} {n : Nat} (h : allDigits? text = some n) : '-' ∉ text := by
  have hdash : digit? '-' = none := by decide
  induction text generalizing n with
  | nil => exact List.not_mem_nil
  | cons c rest ih =>
    unfold allDigits? at h ih
    obtain ⟨ds, hds, -⟩ := Option.map_eq_some_iff.1 h
    rw [List.mapM_cons] at hds
    obtain ⟨d, hd, hds⟩ := Option.bind_eq_some_iff.1 hds
    obtain ⟨others, hothers, -⟩ := Option.bind_eq_some_iff.1 hds
    intro hmem
    rcases List.mem_cons.1 hmem with rfl | hrest
    · rw [hdash] at hd
      cases hd
    · exact ih (Option.map_eq_some_iff.2 ⟨others, hothers, rfl⟩) hrest

/-! ### Padded numbers -/

/-- Texts that go on after their first dash agree on both sides of it. -/
theorem append_dash_inj {front other back rest : List Char} (hf : '-' ∉ front) (ho : '-' ∉ other)
    (h : front ++ '-' :: back = other ++ '-' :: rest) : front = other ∧ back = rest := by
  induction front generalizing other with
  | nil =>
    cases other with
    | nil => exact ⟨rfl, List.tail_eq_of_cons_eq h⟩
    | cons c others => exact absurd (List.head_eq_of_cons_eq h ▸ List.mem_cons_self) ho
  | cons c front ih =>
    cases other with
    | nil => exact absurd ((List.head_eq_of_cons_eq h).symm ▸ List.mem_cons_self) hf
    | cons e others =>
      obtain ⟨rfl, hrest⟩ := List.cons.inj h
      obtain ⟨rfl, hback⟩ := ih (fun hm => hf (List.mem_cons_of_mem c hm))
        (fun hm => ho (List.mem_cons_of_mem c hm)) hrest
      exact ⟨rfl, hback⟩

/-- The digits of a number, with zeros in front up to a width. -/
def zeroPadded (width n : Nat) : List Char := (natural n).leftpad width '0'

theorem padded_of_neg {width : Nat} {n : Int} (h : n < 0) :
    padded width n = '-' :: zeroPadded (width - 1) n.natAbs := by
  rw [padded, if_pos h, zeroPadded]

theorem padded_of_nonneg {width : Nat} {n : Int} (h : 0 ≤ n) :
    padded width n = zeroPadded width n.natAbs := by
  rw [padded, if_neg (by omega), zeroPadded]

@[simp] theorem allDigits?_zeroPadded (width n : Nat) :
    allDigits? (zeroPadded width n) = some n := by
  rw [zeroPadded, allDigits?_leftpad, allDigits?_natural]

theorem zeroPadded_ne_nil (width n : Nat) : zeroPadded width n ≠ [] := by
  simp [zeroPadded, natural_ne_nil]

theorem zeroPadded_dash_inj {width m n : Nat} {back rest : List Char}
    (h : zeroPadded width m ++ '-' :: back = zeroPadded width n ++ '-' :: rest) :
    m = n ∧ back = rest := by
  have hdash (n : Nat) : '-' ∉ zeroPadded width n := dash_notMem (allDigits?_zeroPadded width n)
  obtain ⟨hfront, hback⟩ := append_dash_inj (hdash m) (hdash n) h
  have hread := congrArg allDigits? hfront
  rw [allDigits?_zeroPadded, allDigits?_zeroPadded] at hread
  exact ⟨Option.some.inj hread, hback⟩

/-- A sign in front is told from a digit in front. -/
theorem zeroPadded_ne_sign {width n : Nat} {back rest : List Char} :
    zeroPadded width n ++ '-' :: back ≠ '-' :: rest := by
  intro h
  have hdash := dash_notMem (allDigits?_zeroPadded width n)
  exact zeroPadded_ne_nil width n (append_dash_inj hdash List.not_mem_nil h).1

/-- A dash after a padded number ends it, and leaves what follows. -/
theorem padded_dash_inj {width : Nat} {m n : Int} {back rest : List Char}
    (h : padded width m ++ '-' :: back = padded width n ++ '-' :: rest) : m = n ∧ back = rest := by
  by_cases hm : m < 0 <;> by_cases hn : n < 0
  · rw [padded_of_neg hm, padded_of_neg hn] at h
    obtain ⟨habs, hback⟩ := zeroPadded_dash_inj (List.tail_eq_of_cons_eq h)
    exact ⟨by omega, hback⟩
  · rw [padded_of_neg hm, padded_of_nonneg (Int.not_lt.1 hn)] at h
    exact absurd h.symm zeroPadded_ne_sign
  · rw [padded_of_nonneg (Int.not_lt.1 hm), padded_of_neg hn] at h
    exact absurd h zeroPadded_ne_sign
  · rw [padded_of_nonneg (Int.not_lt.1 hm), padded_of_nonneg (Int.not_lt.1 hn)] at h
    obtain ⟨habs, hback⟩ := zeroPadded_dash_inj h
    exact ⟨by omega, hback⟩

/-- A number is known by its padded form. -/
theorem padded_injective (width : Nat) : Function.Injective (padded width) := by
  intro m n h
  have hdash : padded width m ++ '-' :: [] = padded width n ++ '-' :: [] := by rw [h]
  exact (padded_dash_inj hdash).1

end HijriRecurrence.Text
