import HijriRecurrence.Proofs.Lunar.Text
import HijriRecurrence.Proofs.Recurrence.Increasing

/-!
# Memos that agree with their recurrence

A memo agrees with a recurrence when every answer it gives is the one that would be worked out anew
(`Memo.Agrees`).  An empty memo does, and what a query records leaves the memo agreeing
(`Memo.Agrees.setAfter` and its like).

What is recorded under a key is given back for every key that counts as the same.  Such keys ask the
same: their dates have one text and so are on one day (`LunarDay.text_injective`), and values that
are equal count as true alike (`Value.truthy_of_same`).
-/

namespace HijriRecurrence

open LunarDate

/-! ### Values that are equal -/

/-- Whether a value counts as true, as its first mark tells. -/
def Value.Mark.truthy : Value.Mark → Bool
  | .null => false
  | .number q => q != 0
  | .word text => !text.isEmpty
  | .list size | .tuple size | .dict size => size != 0
  | _ => true

namespace Value

theorem truthy_eq_mark (v : Value) : v.marks.head?.map Mark.truthy = some v.truthy := by
  cases v with
  | bool b => cases b <;> rfl
  | int n =>
    have hzero : ((n : Rat) != 0) = (n != 0) := Bool.eq_iff_iff.2 (by simp)
    exact congrArg some hzero
  | skip s => cases s <;> decide
  | list items => cases items <;> simp [marks, truthy, Mark.truthy]
  | tuple items => cases items <;> simp [marks, truthy, Mark.truthy]
  | dict entries => cases entries <;> simp [marks, truthy, Mark.truthy]
  | _ => simp [marks, truthy, Mark.truthy]

/-- Values that are equal count as true alike. -/
theorem truthy_of_same {a b : Value} (h : a.same b = true) : a.truthy = b.truthy := by
  have ha := truthy_eq_mark a
  rw [of_decide_eq_true h, truthy_eq_mark b] at ha
  exact (Option.some.inj ha).symm

end Value

/-! ### Queries about the same -/

namespace Occurrences

variable {bound bound' a b a' b' : LunarDate}

theorem isAfter_congr (h : bound.toLunarDay = bound'.toLunarDay) (inclusive : Bool) :
    isAfter inclusive bound = isAfter inclusive bound' := by
  funext d
  rw [isAfter, isAfter, h]

theorem isBefore_congr (h : bound.toLunarDay = bound'.toLunarDay) (inclusive : Bool) :
    isBefore inclusive bound = isBefore inclusive bound' := by
  funext d
  rw [isBefore, isBefore, h]

/-- Only the day of a bound counts. -/
theorem firstAfter_congr (h : bound.toLunarDay = bound'.toLunarDay) (inclusive : Bool)
    (walk : Occurrences LunarDate) :
    walk.firstAfter bound inclusive = walk.firstAfter bound' inclusive := by
  induction walk with
  | done => rfl
  | failed e => rfl
  | item head rest ih => rw [firstAfter, firstAfter, isAfter_congr h, ih ()]
  | ask inquiry next ih =>
    rw [firstAfter, firstAfter]
    congr 1
    funext answer
    exact ih answer

theorem lastBefore_congr (h : bound.toLunarDay = bound'.toLunarDay) (inclusive : Bool)
    (walk : Occurrences LunarDate) :
    walk.lastBefore bound inclusive = walk.lastBefore bound' inclusive := by
  unfold lastBefore
  generalize (none : Option LunarDate) = found
  induction walk generalizing found with
  | done => rfl
  | failed e => rfl
  | item head rest ih => rw [lastBeforeFrom, lastBeforeFrom, isBefore_congr h, ih ()]
  | ask inquiry next ih =>
    rw [lastBeforeFrom, lastBeforeFrom]
    congr 1
    funext answer
    exact ih answer found

theorem between_congr (ha : a.toLunarDay = a'.toLunarDay) (hb : b.toLunarDay = b'.toLunarDay)
    (inclusive : Bool) (walk : Occurrences LunarDate) :
    walk.between a b inclusive = walk.between a' b' inclusive := by
  unfold between
  generalize ([] : List LunarDate) = kept
  generalize 0 = count
  induction walk generalizing kept count with
  | done => rfl
  | failed e => rfl
  | item head rest ih =>
    rw [betweenOnto, betweenOnto, isBefore_congr hb, isAfter_congr ha, ih (), ih ()]
  | ask inquiry next ih =>
    rw [betweenOnto, betweenOnto]
    congr 1
    funext answer
    exact ih answer kept count

end Occurrences

/-! ### Tables -/

namespace Memo

variable {κ β : Type} [BEq κ]

/-- Two keys find an entry of one key, which is either the second of them or counts as the same. -/
def Meet (k key : κ) : Prop := ∃ kept, (k == kept) = true ∧ (kept = key ∨ (key == kept) = true)

theorem lookup_overwrite {table : List (κ × β)} {key k : κ} {answer b : β}
    (h : (table.map fun entry => if key == entry.1 then (entry.1, answer) else entry).lookup k =
      some b) :
    table.lookup k = some b ∨ (b = answer ∧ Meet k key) := by
  induction table with
  | nil => cases h
  | cons entry rest ih =>
    obtain ⟨kept, old⟩ := entry
    rw [List.map_cons] at h
    by_cases hkey : (key == kept) = true
    · rw [if_pos hkey, List.lookup_cons] at h
      by_cases hk : (k == kept) = true
      · rw [hk] at h
        exact Or.inr ⟨(Option.some.inj h).symm, kept, hk, Or.inr hkey⟩
      · rw [Bool.not_eq_true] at hk
        rw [hk] at h
        rw [List.lookup_cons, hk]
        exact ih h
    · rw [if_neg hkey, List.lookup_cons] at h
      rw [List.lookup_cons]
      cases hk : k == kept with
      | true =>
        rw [hk] at h
        exact Or.inl h
      | false =>
        rw [hk] at h
        exact ih h

/-- What a table gives after a record was there before or is the record, for a key that meets the
recorded one. -/
theorem lookup_record {table : List (κ × β)} {key k : κ} {answer b : β}
    (h : (record table key answer).lookup k = some b) :
    table.lookup k = some b ∨ (b = answer ∧ Meet k key) := by
  unfold record at h
  split at h
  · exact lookup_overwrite h
  · rw [List.lookup_append] at h
    cases hk : table.lookup k with
    | some old =>
      rw [hk] at h
      exact Or.inl h
    | none =>
      rw [hk, Option.none_or, List.lookup_cons] at h
      cases hkey : k == key with
      | true =>
        rw [hkey] at h
        exact Or.inr ⟨(Option.some.inj h).symm, key, hkey, Or.inl rfl⟩
      | false =>
        rw [hkey] at h
        cases h

theorem eq_of_meet_near {d e : LunarDate} {v w : Value}
    (h : Meet (⟨d.text, v⟩ : NearKey) ⟨e.text, w⟩) :
    d.toLunarDay = e.toLunarDay ∧ v.truthy = w.truthy := by
  obtain ⟨⟨text, value⟩, hfound, hkept⟩ := h
  obtain ⟨htext, hsame⟩ := Bool.and_eq_true_iff.1 hfound
  have hdate : d.text = text := eq_of_beq htext
  rcases hkept with heq | hequal
  · cases heq
    exact ⟨LunarDay.text_injective hdate, Value.truthy_of_same hsame⟩
  · obtain ⟨htext', hsame'⟩ := Bool.and_eq_true_iff.1 hequal
    have hdate' : e.text = text := eq_of_beq htext'
    refine ⟨LunarDay.text_injective (hdate.trans hdate'.symm), ?_⟩
    exact (Value.truthy_of_same hsame).trans (Value.truthy_of_same hsame').symm

theorem eq_of_meet_span {a b a' b' : LunarDate} {v w : Value}
    (h : Meet (⟨a.text, b.text, v⟩ : SpanKey) ⟨a'.text, b'.text, w⟩) :
    a.toLunarDay = a'.toLunarDay ∧ b.toLunarDay = b'.toLunarDay ∧ v.truthy = w.truthy := by
  obtain ⟨⟨first, second, value⟩, hfound, hkept⟩ := h
  obtain ⟨htexts, hsame⟩ := Bool.and_eq_true_iff.1 hfound
  obtain ⟨hfirst, hsecond⟩ := Bool.and_eq_true_iff.1 htexts
  have ha : a.text = first := eq_of_beq hfirst
  have hb : b.text = second := eq_of_beq hsecond
  rcases hkept with heq | hequal
  · cases heq
    exact ⟨LunarDay.text_injective ha, LunarDay.text_injective hb, Value.truthy_of_same hsame⟩
  · obtain ⟨htexts', hsame'⟩ := Bool.and_eq_true_iff.1 hequal
    obtain ⟨hfirst', hsecond'⟩ := Bool.and_eq_true_iff.1 htexts'
    have ha' : a'.text = first := eq_of_beq hfirst'
    have hb' : b'.text = second := eq_of_beq hsecond'
    refine ⟨LunarDay.text_injective (ha.trans ha'.symm),
      LunarDay.text_injective (hb.trans hb'.symm), ?_⟩
    exact (Value.truthy_of_same hsame).trans (Value.truthy_of_same hsame').symm

/-! ### Keys -/

theorem nearKey_of_isKey {value : Value} (h : value.isKey = true) (date : String) :
    nearKey date value = .ok ⟨date, value⟩ := by
  rw [nearKey, checkKey, if_pos h]
  rfl

theorem spanKey_of_isKey {value : Value} (h : value.isKey = true) (start stop : String) :
    spanKey start stop value = .ok ⟨start, stop, value⟩ := by
  rw [spanKey, checkKey, if_pos h]
  rfl

/-! ### Agreement -/

variable {ctx : Context} {answers : Answers} {r : Recurrence} {m : Memo}

open Occurrences

/-- Every answer of a memo is the one that a recurrence gives when it is asked anew. -/
structure Agrees (ctx : Context) (answers : Answers) (r : Recurrence) (m : Memo) : Prop where
  all : ∀ answer ∈ m.all, ∃ items, answer = .ofItems items ∧
    Yields answers (r.itemWalk ctx) items
  after : ∀ (date : LunarDate) (inclusive : Value) (answer : Answer (Option LunarDate)),
    m.after.lookup ⟨date.text, inclusive⟩ = some answer →
      ∃ found, answer = .found found ∧
        ((r.occurrences ctx).firstAfter date inclusive.truthy).outcome answers = .ok found
  before : ∀ (date : LunarDate) (inclusive : Value) (answer : Answer (Option LunarDate)),
    m.before.lookup ⟨date.text, inclusive⟩ = some answer →
      ∃ found, answer = .found found ∧
        ((r.occurrences ctx).lastBefore date inclusive.truthy).outcome answers = .ok found
  between : ∀ (start stop : LunarDate) (inclusive : Value) (answer : Answer (List LunarDate)),
    m.between.lookup ⟨start.text, stop.text, inclusive⟩ = some answer →
      ∃ kept, answer = .found kept ∧
        ((r.occurrences ctx).between start stop inclusive.truthy).outcome answers = .ok { kept }

/-- A memo without answers agrees with everything. -/
theorem agrees_empty : Agrees ctx answers r {} where
  all := by
    intro answer h
    cases h
  after := by
    intro date inclusive answer h
    cases h
  before := by
    intro date inclusive answer h
    cases h
  between := by
    intro start stop inclusive answer h
    cases h

/-- Agreement is about what a recurrence passes along, not about its memo. -/
theorem Agrees.withMemo (h : m.Agrees ctx answers r) (memo : Option Memo) :
    m.Agrees ctx answers (r.withMemo memo) := by
  cases r with
  | rule r => exact ⟨h.all, h.after, h.before, h.between⟩
  | set s => exact ⟨h.all, h.after, h.before, h.between⟩

/-- The items of a recurrence may be recorded. -/
theorem Agrees.setAll (h : m.Agrees ctx answers r) {items : List Value}
    (hitems : Yields answers (r.itemWalk ctx) items) :
    Agrees ctx answers r { m with all := some (.ofItems items) } := by
  refine ⟨?_, h.after, h.before, h.between⟩
  intro answer hanswer
  exact ⟨items, (Option.some.inj hanswer).symm, hitems⟩

/-- The first occurrence after a date may be recorded. -/
theorem Agrees.setAfter (h : m.Agrees ctx answers r) {date : LunarDate} {inclusive : Value}
    {found : Option LunarDate}
    (hfound : ((r.occurrences ctx).firstAfter date inclusive.truthy).outcome answers = .ok found) :
    Agrees ctx answers r
      { m with after := record m.after ⟨date.text, inclusive⟩ (.found found) } := by
  refine ⟨h.all, ?_, h.before, h.between⟩
  intro other flag answer hlookup
  rcases lookup_record hlookup with hold | ⟨rfl, hmeet⟩
  · exact h.after other flag answer hold
  · obtain ⟨hday, htruthy⟩ := eq_of_meet_near hmeet
    refine ⟨found, rfl, ?_⟩
    rw [firstAfter_congr hday, htruthy]
    exact hfound

/-- The last occurrence before a date may be recorded. -/
theorem Agrees.setBefore (h : m.Agrees ctx answers r) {date : LunarDate} {inclusive : Value}
    {found : Option LunarDate}
    (hfound : ((r.occurrences ctx).lastBefore date inclusive.truthy).outcome answers = .ok found) :
    Agrees ctx answers r
      { m with before := record m.before ⟨date.text, inclusive⟩ (.found found) } := by
  refine ⟨h.all, h.after, ?_, h.between⟩
  intro other flag answer hlookup
  rcases lookup_record hlookup with hold | ⟨rfl, hmeet⟩
  · exact h.before other flag answer hold
  · obtain ⟨hday, htruthy⟩ := eq_of_meet_near hmeet
    refine ⟨found, rfl, ?_⟩
    rw [lastBefore_congr hday, htruthy]
    exact hfound

/-- The occurrences between two dates may be recorded. -/
theorem Agrees.setBetween (h : m.Agrees ctx answers r) {start stop : LunarDate}
    {inclusive : Value} {kept : List LunarDate}
    (hkept : ((r.occurrences ctx).between start stop inclusive.truthy).outcome answers =
      .ok { kept }) :
    Agrees ctx answers r
      { m with between := record m.between ⟨start.text, stop.text, inclusive⟩ (.found kept) } := by
  refine ⟨h.all, h.after, h.before, ?_⟩
  intro start' stop' flag answer hlookup
  rcases lookup_record hlookup with hold | ⟨rfl, hmeet⟩
  · exact h.between start' stop' flag answer hold
  · obtain ⟨hstart, hstop, htruthy⟩ := eq_of_meet_span hmeet
    refine ⟨kept, rfl, ?_⟩
    rw [between_congr hstart hstop, htruthy]
    exact hkept

end Memo

end HijriRecurrence
