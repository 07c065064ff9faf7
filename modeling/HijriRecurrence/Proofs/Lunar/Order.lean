import HijriRecurrence.Lunar.Day

/-!
# The order of lunar days

Lunar days are in linear order, whether or not the calendar has them.  `LunarDay.sorted` puts a list
of days into strictly increasing order, and an increasing list is known by its members
(`eq_of_mem_iff`).
-/

namespace HijriRecurrence.LunarDay

variable {a b c : LunarDay}

protected theorem le_refl (a : LunarDay) : a ≤ a := LunarDay.lt_irrefl a

protected theorem le_of_lt (h : a < b) : a ≤ b :=
  fun hlt => LunarDay.lt_irrefl a (LunarDay.lt_trans h hlt)

protected theorem not_le : ¬a ≤ b ↔ b < a := by
  rw [le_def]
  exact Decidable.not_not

protected theorem lt_of_le_of_lt (h : a ≤ b) (k : b < c) : a < c := by
  rcases LunarDay.lt_trichotomy a b with hlt | rfl | hgt
  · exact LunarDay.lt_trans hlt k
  · exact k
  · exact absurd hgt h

protected theorem lt_of_lt_of_le (h : a < b) (k : b ≤ c) : a < c := by
  rcases LunarDay.lt_trichotomy b c with hlt | rfl | hgt
  · exact LunarDay.lt_trans h hlt
  · exact h
  · exact absurd hgt k

protected theorem le_trans (h : a ≤ b) (k : b ≤ c) : a ≤ c :=
  fun hlt => h (LunarDay.lt_of_le_of_lt k hlt)

protected theorem le_total (a b : LunarDay) : a ≤ b ∨ b ≤ a := by
  rcases LunarDay.lt_trichotomy a b with hlt | rfl | hgt
  · exact Or.inl (LunarDay.le_of_lt hlt)
  · exact Or.inl (LunarDay.le_refl a)
  · exact Or.inr (LunarDay.le_of_lt hgt)

protected theorem lt_or_eq_of_le (h : a ≤ b) : a < b ∨ a = b := by
  rcases LunarDay.lt_trichotomy a b with hlt | heq | hgt
  · exact Or.inl hlt
  · exact Or.inr heq
  · exact absurd hgt h

protected theorem le_antisymm (h : a ≤ b) (k : b ≤ a) : a = b := by
  rcases LunarDay.lt_or_eq_of_le h with hlt | heq
  · exact absurd hlt k
  · exact heq

/-! ### Increasing lists -/

/-- A day put into an increasing list leaves it increasing. -/
theorem pairwise_insertInto {d : LunarDay} {days : List LunarDay}
    (h : days.Pairwise (· < ·)) : (d.insertInto days).Pairwise (· < ·) := by
  induction days with
  | nil => exact List.pairwise_singleton _ d
  | cons e rest ih =>
    obtain ⟨hfirst, hrest⟩ := List.pairwise_cons.1 h
    simp only [insertInto]
    split
    · rename_i hlt
      refine List.pairwise_cons.2 ⟨fun x hx => ?_, h⟩
      rcases List.mem_cons.1 hx with rfl | hmem
      · exact hlt
      · exact LunarDay.lt_trans hlt (hfirst x hmem)
    · rename_i hge
      split
      · rename_i hgt
        refine List.pairwise_cons.2 ⟨fun x hx => ?_, ih hrest⟩
        rcases mem_insertInto.1 hx with rfl | hmem
        · exact hgt
        · exact hfirst x hmem
      · rename_i hle
        obtain rfl : d = e := by
          rcases LunarDay.lt_or_eq_of_le hle with hlt | heq
          · exact absurd hlt hge
          · exact heq
        exact h

/-- Sorted days are strictly increasing. -/
theorem pairwise_sorted (days : List LunarDay) : (sorted days).Pairwise (· < ·) := by
  induction days with
  | nil => exact List.Pairwise.nil
  | cons d rest ih => exact pairwise_insertInto ih

/-- The last day of an increasing list is not before any day of it. -/
theorem le_of_mem_getLast? {days : List LunarDay} (h : days.Pairwise (· < ·)) {d last : LunarDay}
    (hd : d ∈ days) (hlast : days.getLast? = some last) : d ≤ last := by
  obtain ⟨init, rfl⟩ := List.getLast?_eq_some_iff.1 hlast
  rcases List.mem_append.1 hd with hinit | hmem
  · exact LunarDay.le_of_lt ((List.pairwise_append.1 h).2.2 d hinit last List.mem_cons_self)
  · rw [List.mem_singleton.1 hmem]
    exact LunarDay.le_refl last

/-- Increasing lists with the same days are the same. -/
theorem eq_of_mem_iff {days others : List LunarDay} (h : days.Pairwise (· < ·))
    (k : others.Pairwise (· < ·)) (hmem : ∀ d, d ∈ days ↔ d ∈ others) : days = others := by
  have hnodup {list : List LunarDay} (h : list.Pairwise (· < ·)) : list.Nodup := by
    refine h.imp fun {a b} hlt heq => ?_
    rw [heq] at hlt
    exact LunarDay.lt_irrefl b hlt
  have hperm : days.Perm others :=
    (List.perm_ext_iff_of_nodup (hnodup h) (hnodup k)).2 fun d => hmem d
  refine hperm.eq_of_pairwise (fun a b _ _ hlt hgt => ?_) h k
  exact absurd (LunarDay.lt_trans hlt hgt) (LunarDay.lt_irrefl a)

/-- Days that are in order already stay as they are. -/
theorem sorted_eq_self {days : List LunarDay} (h : days.Pairwise (· < ·)) : sorted days = days := by
  apply eq_of_mem_iff (pairwise_sorted days) h
  intro d
  exact mem_sorted

theorem sorted_toList (d : Option LunarDay) : sorted d.toList = d.toList := by
  cases d <;> rfl

end HijriRecurrence.LunarDay
