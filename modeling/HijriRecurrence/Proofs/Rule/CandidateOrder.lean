import HijriRecurrence.Rule.Candidate

/-!
# The order of candidates

Candidates need not be days: a quantity that a caller put in the place of a month's length may be a
fraction, or no number at all.  What is no number is before nothing and after nothing, and then a
list cannot be sorted.  Among candidates on numbers (`Candidate.IsNumber`) the order is that of
year, month and amount, and `Candidate.sorted` leaves them strictly increasing
(`Candidate.pairwise_sorted`).
-/

namespace HijriRecurrence

/-! ### Quantities -/

namespace Quantity

variable {a b : Quantity} {p q : Rat}

/-- A quantity has an amount. -/
def IsNumber (a : Quantity) : Prop := ∃ q, a.amount = .ok q

theorem isNumber_whole (n : Int) : (whole n).IsNumber := ⟨n, rfl⟩

/-- Numbers are compared by their amounts. -/
theorem atMost_of_amount (ha : a.amount = .ok p) (hb : b.amount = .ok q) :
    a.atMost b = .ok (decide (p ≤ q)) := by
  cases a with
  | given v =>
    simp only [atMost, ha, hb]
    rfl
  | whole m =>
    cases b with
    | given v =>
      simp only [atMost, ha, hb]
      rfl
    | whole n =>
      obtain rfl := Except.ok.inj ha
      obtain rfl := Except.ok.inj hb
      rw [whole_atMost_whole, decide_eq_decide.2 Rat.intCast_le_intCast]

/-- Only numbers are compared. -/
theorem isNumber_of_atMost {holds : Bool} (h : a.atMost b = .ok holds) :
    a.IsNumber ∧ b.IsNumber := by
  unfold atMost at h
  split at h
  · exact ⟨isNumber_whole _, isNumber_whole _⟩
  · unfold IsNumber
    cases ha : a.amount with
    | error e =>
      rw [ha] at h
      cases h
    | ok p =>
      cases hb : b.amount with
      | error e =>
        rw [ha, hb] at h
        cases h
      | ok q => exact ⟨⟨p, rfl⟩, ⟨q, rfl⟩⟩

theorem before_iff :
    a.before b = true ↔ ∃ p q, a.amount = .ok p ∧ b.amount = .ok q ∧ p < q := by
  constructor
  · intro h
    unfold before at h
    split at h
    · rename_i holds hle
      obtain ⟨⟨q, hq⟩, ⟨p, hp⟩⟩ := isNumber_of_atMost hle
      obtain rfl := Except.ok.inj (hle.symm.trans (atMost_of_amount hq hp))
      exact ⟨p, q, hp, hq, Rat.not_le.1 (by simpa using h)⟩
    · cases h
  · rintro ⟨p, q, hp, hq, hlt⟩
    simp only [before, atMost_of_amount hq hp]
    simpa using Rat.not_le.2 hlt

theorem before_trans {c : Quantity} (h : a.before b = true) (k : b.before c = true) :
    a.before c = true := by
  obtain ⟨p, q, hp, hq, hpq⟩ := before_iff.1 h
  obtain ⟨q', r, hq', hr, hqr⟩ := before_iff.1 k
  obtain rfl := Except.ok.inj (hq.symm.trans hq')
  have hlt : p < r := by grind
  exact before_iff.2 ⟨p, r, hp, hr, hlt⟩

/-- Numbers of which neither is before the other have one amount. -/
theorem amount_eq_of_not_before (ha : a.IsNumber) (hb : b.IsNumber) (h : ¬a.before b = true)
    (k : ¬b.before a = true) : a.amount = b.amount := by
  obtain ⟨p, hp⟩ := ha
  obtain ⟨q, hq⟩ := hb
  have hle : q ≤ p := Rat.not_lt.1 fun hlt => h (before_iff.2 ⟨p, q, hp, hq, hlt⟩)
  have hge : p ≤ q := Rat.not_lt.1 fun hlt => k (before_iff.2 ⟨q, p, hq, hp, hlt⟩)
  rw [hp, hq, Rat.le_antisymm hge hle]

end Quantity

/-! ### Candidates -/

namespace Candidate

variable {a b c : Candidate}

/-- The days of a candidate are a number. -/
def IsNumber (c : Candidate) : Prop := c.day.IsNumber

theorem isNumber_ofDay (d : LunarDay) : (ofDay d).IsNumber := Quantity.isNumber_whole d.day

theorem before_trans (h : a.before b = true) (k : b.before c = true) : a.before c = true := by
  rw [before_iff] at *
  rcases h with h | ⟨hyear, h | ⟨hmonth, h⟩⟩ <;> rcases k with k | ⟨kyear, k | ⟨kmonth, k⟩⟩
  case inr.inr.inr.inr =>
    exact Or.inr ⟨hyear.trans kyear, Or.inr ⟨hmonth.trans kmonth, Quantity.before_trans h k⟩⟩
  all_goals omega

/-- What is neither before nor after another candidate may stand in its place. -/
theorem before_of_not_before (ha : a.IsNumber) (hb : b.IsNumber) (h : ¬a.before b = true)
    (k : ¬b.before a = true) (hc : b.before c = true) : a.before c = true := by
  rw [before_iff] at *
  have hyear : a.year = b.year := by omega
  have hmonth : a.month = b.month := by omega
  have hamount : a.day.amount = b.day.amount :=
    Quantity.amount_eq_of_not_before ha hb (fun hlt => h (Or.inr ⟨hyear, Or.inr ⟨hmonth, hlt⟩⟩))
      fun hlt => k (Or.inr ⟨hyear.symm, Or.inr ⟨hmonth.symm, hlt⟩⟩)
  rw [hyear, hmonth, Quantity.before_iff, hamount, ← Quantity.before_iff]
  exact hc

theorem mem_of_mem_insert {candidates : List Candidate} (h : a ∈ c.insert candidates) :
    a = c ∨ a ∈ candidates := by
  induction candidates with
  | nil => exact List.mem_cons.1 h
  | cons e rest ih =>
    rw [insert] at h
    split at h
    · exact List.mem_cons.1 h
    · split at h
      · rcases List.mem_cons.1 h with rfl | hmem
        · exact Or.inr List.mem_cons_self
        · exact (ih hmem).imp_right (List.mem_cons_of_mem e)
      · exact (List.mem_cons.1 h).imp_right (List.mem_cons_of_mem e)

/-- Sorting adds no candidate. -/
theorem mem_of_mem_sorted {candidates : List Candidate} (h : a ∈ sorted candidates) :
    a ∈ candidates := by
  induction candidates with
  | nil => exact absurd h List.not_mem_nil
  | cons c rest ih =>
    rcases mem_of_mem_insert h with rfl | hmem
    · exact List.mem_cons_self
    · exact List.mem_cons_of_mem c (ih hmem)

theorem pairwise_insert {candidates : List Candidate} (hc : c.IsNumber)
    (hall : ∀ e ∈ candidates, e.IsNumber) (h : candidates.Pairwise fun a b => a.before b = true) :
    (c.insert candidates).Pairwise fun a b => a.before b = true := by
  induction candidates with
  | nil => exact List.pairwise_singleton _ c
  | cons e rest ih =>
    obtain ⟨hfirst, hrest⟩ := List.pairwise_cons.1 h
    rw [insert]
    split
    · rename_i hlt
      refine List.pairwise_cons.2 ⟨fun x hx => ?_, h⟩
      rcases List.mem_cons.1 hx with rfl | hmem
      · exact hlt
      · exact before_trans hlt (hfirst x hmem)
    · rename_i hnot
      split
      · rename_i hgt
        refine List.pairwise_cons.2
          ⟨fun x hx => ?_, ih (fun x hx => hall x (List.mem_cons_of_mem e hx)) hrest⟩
        rcases mem_of_mem_insert hx with rfl | hmem
        · exact hgt
        · exact hfirst x hmem
      · rename_i hnot'
        refine List.pairwise_cons.2 ⟨fun x hx => ?_, hrest⟩
        exact before_of_not_before hc (hall e List.mem_cons_self) hnot hnot' (hfirst x hx)

/-- **Sorted candidates on numbers are strictly increasing.** -/
theorem pairwise_sorted {candidates : List Candidate} (h : ∀ c ∈ candidates, c.IsNumber) :
    (sorted candidates).Pairwise fun a b => a.before b = true := by
  induction candidates with
  | nil => exact List.Pairwise.nil
  | cons c rest ih =>
    have hrest : ∀ e ∈ rest, e.IsNumber := by
      intro e he
      exact h e (List.mem_cons_of_mem c he)
    exact pairwise_insert (h c List.mem_cons_self)
      (fun e he => hrest e (mem_of_mem_sorted he)) (ih hrest)

end Candidate

end HijriRecurrence
