import HijriRecurrence.Proofs.Recurrence.Shared
import Mathlib.Data.List.Forall2

/-!
# Histories of a recurrence with a memo

Whatever a caller does, the lists that it was given are its own: they are different lists, and the
memo keeps none of them (`Session.IsApart`).  So a change to one of them is not seen in another, nor
in any later answer (`view_edit`), and the memo keeps agreeing with its recurrence
(`Session.isSound_run`).

Two sessions with one history, of a recurrence that keeps a memo and of its equal without one, give
their callers the same, operation by operation, where the memo can know the operation; where it
cannot, it refuses it (`Session.run_withMemo`).
-/

namespace HijriRecurrence

variable {ctx : Context} {answers : Answers}

namespace Recurrence

variable {r r' : Recurrence} {op : Operation} {reply : Reply}

/-- A memo that agrees does so after any operation. -/
theorem Consistent.perform (h : r.Consistent ctx answers)
    (hperform : (r.perform ctx op).outcome answers = .ok (reply, r')) :
    r'.Consistent ctx answers := by
  have hknown (hop : r.memo = none ∨ op.isKeyed = true) : r'.Consistent ctx answers := by
    have halike := perform_alike h hop
    rw [hperform] at halike
    generalize ((r.withMemo none).perform ctx op).outcome answers = x at halike
    cases halike with
    | ok hconsistent => exact hconsistent
  cases hmemo : r.memo with
  | none => exact hknown (.inl hmemo)
  | some m =>
    cases hkey : op.isKeyed with
    | true => exact hknown (.inr hkey)
    | false =>
      obtain ⟨e, hfail, -⟩ := perform_refused ctx answers hmemo hkey
      cases hfail.symm.trans hperform

/-- Without a memo, a query leaves the recurrence as it is. -/
theorem eq_of_perform_of_not_isKeyed (hmemo : r.memo = none) (hop : op.isKeyed = false)
    (h : (r.perform ctx op).outcome answers = .ok (reply, r')) : r' = r := by
  cases op with
  | all limit watcher => cases hop
  | between after before inclusive watcher =>
    obtain ⟨⟨answer, s⟩, hbetween, h⟩ := Calculation.outcome_bind_eq_ok.1 h
    obtain ⟨start, -, hbetween⟩ := Calculation.outcome_bind_eq_ok.1 hbetween
    obtain ⟨stop, -, hbetween⟩ := Calculation.outcome_bind_eq_ok.1 hbetween
    unfold betweenDates at hbetween
    rw [hmemo] at hbetween
    obtain ⟨scan, -, hbetween⟩ := Calculation.outcome_bind_eq_ok.1 hbetween
    cases hbetween
    cases h
    rfl
  | after date inclusive =>
    obtain ⟨⟨answer, s⟩, hafter, h⟩ := Calculation.outcome_bind_eq_ok.1 h
    obtain ⟨d, -, hafter⟩ := Calculation.outcome_bind_eq_ok.1 hafter
    rw [hmemo] at hafter
    obtain ⟨found, -, hafter⟩ := Calculation.outcome_bind_eq_ok.1 hafter
    cases hafter
    cases h
    rfl
  | before date inclusive =>
    obtain ⟨⟨answer, s⟩, hbefore, h⟩ := Calculation.outcome_bind_eq_ok.1 h
    obtain ⟨d, -, hbefore⟩ := Calculation.outcome_bind_eq_ok.1 hbefore
    rw [hmemo] at hbefore
    obtain ⟨found, -, hbefore⟩ := Calculation.outcome_bind_eq_ok.1 hbefore
    cases hbefore
    cases h
    rfl
  | add addition => cases hop

end Recurrence

namespace Shared

variable {s : Shared}

/-- What is seen of an operation that succeeds. -/
theorem outcome_seen (ctx : Context) (answers : Answers) (hs : s.Sound) (op : Operation) :
    ((s.perform ctx op).outcome answers).map Handed.seen =
      (s.view.perform ctx op).outcome answers := by
  rw [← Calculation.outcome_map, seen_perform hs]

end Shared

namespace Session

variable {s t : Session} {op : Operation} {index : Nat} {change : List Value → List Value}

/-! ### Lists of the caller's own -/

/-- The lists that the caller was given are different ones, and the memo keeps none of them. -/
structure IsApart (s : Session) : Prop where
  sound : s.shared.Sound
  allocated : ∀ i, ∀ a ∈ s.held i, a < s.shared.heap.size
  notKept : ∀ i, ∀ a ∈ s.held i, a ∉ s.shared.addresses
  distinct : ∀ i j a, s.held i = some a → s.held j = some a → i = j

theorem held_of_getElem? {e : Exchange} (h : s.log[index]? = some e) : s.held index = e.list := by
  rw [held, h]
  rfl

/-- The caller has what it had, and the list of the last entry. -/
theorem held_append (shared : Shared) (e : Exchange) (i : Nat) :
    held { shared, log := s.log ++ [e] } i = if i = s.log.length then e.list else s.held i := by
  unfold held
  dsimp only
  rcases Nat.lt_trichotomy i s.log.length with hlt | rfl | hgt
  · rw [if_neg (Nat.ne_of_lt hlt), List.getElem?_append_left hlt]
  · rw [if_pos rfl, List.getElem?_concat_length]
    rfl
  · rw [if_neg (Nat.ne_of_gt hgt), List.getElem?_eq_none (by simp; omega),
      List.getElem?_eq_none (by omega)]

theorem IsApart.append (h : s.IsApart) {shared : Shared} (hext : s.shared.Extends shared)
    {e : Exchange} (hfresh : ∀ a ∈ e.list, s.shared.heap.size ≤ a ∧ a < shared.heap.size ∧
      a ∉ shared.addresses) : IsApart { shared, log := s.log ++ [e] } := by
  have hold {i : Nat} {a : Address} (ha : s.held i = some a) : a < s.shared.heap.size :=
    h.allocated i a ha
  refine ⟨hext.sound, fun i a ha => ?_, fun i a ha hkept => ?_, fun i j a hi hj => ?_⟩
  · rw [held_append] at ha
    split at ha
    · exact (hfresh a ha).2.1
    · exact Nat.lt_of_lt_of_le (hold ha) hext.size
  · rw [held_append] at ha
    split at ha
    · exact (hfresh a ha).2.2 hkept
    · exact h.notKept i a ha (hext.addresses a hkept (hold ha))
  · rw [held_append] at hi hj
    split at hi <;> split at hj
    · omega
    · exact absurd (hold hj) (Nat.not_lt.2 (hfresh a hi).1)
    · exact absurd (hold hi) (Nat.not_lt.2 (hfresh a hj).1)
    · exact h.distinct i j a hi hj

theorem IsApart.perform (h : s.IsApart) (op : Operation) : (s.perform ctx answers op).IsApart := by
  unfold Session.perform
  cases hperform : (s.shared.perform ctx op).outcome answers with
  | error e => exact h.append (Shared.extends_self h.sound) (by simp)
  | ok given =>
    have hgrows := Shared.grows_perform h.sound hperform
    exact h.append hgrows.toExtends hgrows.fresh

/-! ### Changes to lists -/

theorem log_edit : (s.edit index change).log = s.log := by
  unfold edit
  split <;> rfl

theorem held_edit (i : Nat) : (s.edit index change).held i = s.held i := by
  rw [held, held, log_edit]

theorem memo_edit : (s.edit index change).shared.memo = s.shared.memo := by
  unfold edit
  split <;> rfl

theorem size_edit : (s.edit index change).shared.heap.size = s.shared.heap.size := by
  unfold edit
  split
  · exact Heap.size_modify
  · rfl

theorem IsApart.edit (h : s.IsApart) (index : Nat) (change : List Value → List Value) :
    (s.edit index change).IsApart := by
  have haddresses : (s.edit index change).shared.addresses = s.shared.addresses := by
    rw [Shared.addresses, memo_edit, Shared.addresses]
  refine ⟨fun a ha => ?_, fun i a ha => ?_, fun i a ha => ?_, fun i j a hi hj => ?_⟩
  · rw [size_edit]
    exact h.sound a (haddresses ▸ ha)
  · rw [held_edit] at ha
    rw [size_edit]
    exact h.allocated i a ha
  · rw [held_edit] at ha
    rw [haddresses]
    exact h.notKept i a ha
  · rw [held_edit] at hi hj
    exact h.distinct i j a hi hj

/-- **What a caller does to its lists is not seen.** -/
theorem view_edit (h : s.IsApart) (index : Nat) (change : List Value → List Value) :
    (s.edit index change).shared.view = s.shared.view := by
  unfold edit
  cases hheld : s.held index with
  | none => rfl
  | some a =>
    refine Shared.view_congr fun b hb => Heap.read_modify_of_ne ?_
    rintro rfl
    exact h.notKept index a hheld hb

/-- A change goes into one of the caller's lists, and into no other. -/
theorem map_read_edit (h : s.IsApart) {i : Nat} {e : Exchange} (he : s.log[i]? = some e) :
    e.list.map (s.edit index change).shared.heap.read =
      if i = index then (e.list.map s.shared.heap.read).map change
      else e.list.map s.shared.heap.read := by
  have hheld := held_of_getElem? he
  cases hlist : e.list with
  | none => simp
  | some b =>
    rw [hlist] at hheld
    have hb := h.allocated i b hheld
    by_cases hindex : i = index
    · subst hindex
      rw [if_pos rfl, Session.edit, hheld]
      exact congrArg some (Heap.read_modify_self hb)
    · rw [if_neg hindex, Session.edit]
      cases hother : s.held index with
      | none => rfl
      | some a =>
        refine congrArg some (Heap.read_modify_of_ne ?_)
        rintro rfl
        exact hindex (h.distinct i index a hheld hother)

/-! ### Histories -/

/-- The caller's lists are its own, and the memo agrees with its recurrence. -/
structure IsSound (ctx : Context) (answers : Answers) (s : Session) : Prop extends IsApart s where
  consistent : s.shared.view.Consistent ctx answers

theorem IsSound.perform (h : s.IsSound ctx answers) (op : Operation) :
    (s.perform ctx answers op).IsSound ctx answers := by
  refine ⟨h.toIsApart.perform op, ?_⟩
  have hseen := Shared.outcome_seen ctx answers h.sound op
  unfold Session.perform
  cases hperform : (s.shared.perform ctx op).outcome answers with
  | error e => exact h.consistent
  | ok given =>
    rw [hperform] at hseen
    exact h.consistent.perform hseen.symm

theorem IsSound.step (h : s.IsSound ctx answers) (event : Event) :
    (s.step ctx answers event).IsSound ctx answers := by
  cases event with
  | perform op => exact h.perform op
  | edit index change =>
    refine ⟨h.toIsApart.edit index change, ?_⟩
    show (s.edit index change).shared.view.Consistent ctx answers
    rw [view_edit h.toIsApart]
    exact h.consistent

/-- **The caller's lists stay its own, and the memo keeps agreeing with its recurrence.** -/
theorem isSound_run (h : s.IsSound ctx answers) (history : List Event) :
    (s.run ctx answers history).IsSound ctx answers := by
  induction history generalizing s with
  | nil => exact h
  | cons event rest ih => exact ih (h.step event)

theorem isSound_start (ctx : Context) (answers : Answers) (r : Recurrence) (keepsMemo : Bool) :
    (start r keepsMemo).IsSound ctx answers := by
  refine ⟨⟨fun a ha => ?_, fun _ _ ha => (by cases ha), fun _ _ ha => (by cases ha),
    fun _ _ _ ha => (by cases ha)⟩, ?_⟩
  · cases keepsMemo <;> exact absurd ha List.not_mem_nil
  · cases keepsMemo with
    | false => exact Recurrence.consistent_none
    | true => exact Recurrence.consistent_some Memo.agrees_empty

end Session

/-! ### With a memo and without one -/

/-- What the caller of a recurrence with a memo was given agrees with what the caller of one without
a memo was given: where the memo can know the operation, the same, with the same items in the lists
by now; where it cannot, a refusal, unless both failed alike. -/
structure Exchange.Agrees (h h' : Heap) (e e' : Exchange) : Prop where
  op : e.op = e'.op
  same : e.op.isKeyed = true → e.reply = e'.reply ∧ e.list.map h.read = e'.list.map h'.read
  refused : e.op.isKeyed = false → e.list = none ∧
    (e.reply = .error .unhashable ∨ ∃ error, e.reply = .error error ∧ e'.reply = .error error)

def Event.operation? : Event → Option Operation
  | perform op => some op
  | edit _ _ => none

/-- What holds of two lists item by item changes item by item. -/
theorem forall₂_of_getElem? {α β : Type} {R R' : α → β → Prop} {as : List α} {bs : List β}
    (h : List.Forall₂ R as bs)
    (himp : ∀ (i : Nat) a b, as[i]? = some a → bs[i]? = some b → R a b → R' a b) :
    List.Forall₂ R' as bs := by
  induction h with
  | nil => exact .nil
  | cons hab _ ih =>
    exact .cons (himp 0 _ _ rfl rfl hab) (ih fun i a b ha hb => himp (i + 1) a b ha hb)

namespace Session

variable {s t : Session} {op : Operation}

/-- Two sessions have given their callers what agrees, and their recurrences are the same but for a
memo that agrees. -/
structure Alike (ctx : Context) (answers : Answers) (s t : Session) : Prop where
  sound : s.IsSound ctx answers
  keepsMemo : s.shared.memo.isSome = true
  apart : t.IsApart
  view : t.shared.view = s.shared.view.withMemo none
  log : List.Forall₂ (Exchange.Agrees s.shared.heap t.shared.heap) s.log t.log

/-- Entries go on agreeing when lists are added on both sides. -/
theorem Alike.forall₂_of_extends (h : s.Alike ctx answers t) {shared shared' : Shared}
    (hext : s.shared.Extends shared) (hext' : t.shared.Extends shared') :
    List.Forall₂ (Exchange.Agrees shared.heap shared'.heap) s.log t.log := by
  have hmap {u : Session} (hu : u.IsApart) {v : Shared} (hv : u.shared.Extends v) {i : Nat}
      {e : Exchange} (he : u.log[i]? = some e) :
      e.list.map v.heap.read = e.list.map u.shared.heap.read := by
    refine Option.map_congr fun a ha => hv.read a (hu.allocated i a ?_)
    rw [held_of_getElem? he]
    exact ha
  refine forall₂_of_getElem? h.log fun i e e' he he' hagrees => ?_
  refine ⟨hagrees.op, fun hop => ?_, hagrees.refused⟩
  rw [hmap h.sound.toIsApart hext he, hmap h.apart hext' he']
  exact hagrees.same hop

theorem Alike.edit (h : s.Alike ctx answers t) (index : Nat) (change : List Value → List Value) :
    (s.edit index change).Alike ctx answers (t.edit index change) := by
  refine ⟨h.sound.step (.edit index change), ?_, h.apart.edit index change, ?_, ?_⟩
  · rw [memo_edit]
    exact h.keepsMemo
  · rw [view_edit h.apart, view_edit h.sound.toIsApart]
    exact h.view
  · rw [log_edit, log_edit]
    refine forall₂_of_getElem? h.log fun i e e' he he' hagrees => ?_
    refine ⟨hagrees.op, fun hop => ?_, hagrees.refused⟩
    obtain ⟨hreply, hlists⟩ := hagrees.same hop
    refine ⟨hreply, ?_⟩
    rw [map_read_edit h.sound.toIsApart he, map_read_edit h.apart he', hlists]

/-- Two sessions go on alike when each is given one more entry, and these agree. -/
theorem Alike.append (h : s.Alike ctx answers t) {shared shared' : Shared} {e e' : Exchange}
    (hsound : IsSound ctx answers { shared, log := s.log ++ [e] })
    (hapart : IsApart { shared := shared', log := t.log ++ [e'] })
    (hext : s.shared.Extends shared) (hext' : t.shared.Extends shared')
    (hview : shared'.view = shared.view.withMemo none)
    (hagrees : e.Agrees shared.heap shared'.heap e') :
    Alike ctx answers { shared, log := s.log ++ [e] }
      { shared := shared', log := t.log ++ [e'] } where
  sound := hsound
  keepsMemo := hext.memo.trans h.keepsMemo
  apart := hapart
  view := hview
  log := List.rel_append (h.forall₂_of_extends hext hext') (.cons hagrees .nil)

/-- An operation that the memo can know gives the same. -/
theorem Alike.perform_of_isKeyed (h : s.Alike ctx answers t) (hop : op.isKeyed = true) :
    (s.perform ctx answers op).Alike ctx answers (t.perform ctx answers op) := by
  have hsound := h.sound.perform op
  have hapart : (t.perform ctx answers op).IsApart := h.apart.perform op
  have halike := Recurrence.perform_alike h.sound.consistent (.inr hop)
  rw [← h.view, ← Shared.outcome_seen ctx answers h.sound.sound op,
    ← Shared.outcome_seen ctx answers h.apart.sound op] at halike
  have hnot {p : Prop} : op.isKeyed = false → p := fun hkey => by cases hop.symm.trans hkey
  unfold Session.perform at hsound hapart ⊢
  cases hs : (s.shared.perform ctx op).outcome answers with
  | error e =>
    rw [hs] at halike hsound
    cases ht : (t.shared.perform ctx op).outcome answers with
    | error e' =>
      rw [ht] at halike hapart
      cases halike
      exact h.append hsound hapart (Shared.extends_self h.sound.sound)
        (Shared.extends_self h.apart.sound) h.view ⟨rfl, fun _ => ⟨rfl, rfl⟩, hnot⟩
    | ok given' =>
      rw [ht] at halike
      cases halike
  | ok given =>
    rw [hs] at halike hsound
    have hgrows := Shared.grows_perform h.sound.sound hs
    cases ht : (t.shared.perform ctx op).outcome answers with
    | error e' =>
      rw [ht] at halike
      cases halike
    | ok given' =>
      rw [ht] at halike hapart
      have hgrows' := Shared.grows_perform h.apart.sound ht
      obtain ⟨reply, list, shared⟩ := given
      obtain ⟨reply', list', shared'⟩ := given'
      obtain ⟨rfl, hview⟩ : reply' = reply ∧ shared'.view = shared.view.withMemo none := by
        simp only [Handed.seen, Except.map] at halike
        generalize shared'.view = r' at halike
        cases halike
        exact ⟨rfl, rfl⟩
      exact h.append hsound hapart hgrows.toExtends hgrows'.toExtends hview
        ⟨rfl, fun _ => ⟨rfl, hgrows.list.trans hgrows'.list.symm⟩, hnot⟩

/-- An operation that the memo cannot know is refused. -/
theorem Alike.perform_of_not_isKeyed (h : s.Alike ctx answers t) (hop : op.isKeyed = false) :
    (s.perform ctx answers op).Alike ctx answers (t.perform ctx answers op) := by
  have hsound := h.sound.perform op
  have hapart : (t.perform ctx answers op).IsApart := h.apart.perform op
  obtain ⟨m, hmemo⟩ := Option.isSome_iff_exists.1 h.keepsMemo
  obtain ⟨e, hfail, hplain⟩ :=
    Recurrence.perform_refused ctx answers (Shared.view_of_memo hmemo) hop
  have hself := Shared.extends_self h.sound.sound
  have hnot {p : Prop} : op.isKeyed = true → p := fun hkey => by cases hop.symm.trans hkey
  have hs : (s.shared.perform ctx op).outcome answers = .error e := by
    rw [← Shared.outcome_seen ctx answers h.sound.sound op] at hfail
    cases houtcome : (s.shared.perform ctx op).outcome answers with
    | error e' =>
      rw [houtcome] at hfail
      exact congrArg _ (Except.error.inj hfail)
    | ok given =>
      rw [houtcome] at hfail
      cases hfail
  rw [← h.view, ← Shared.outcome_seen ctx answers h.apart.sound op] at hplain
  unfold Session.perform at hsound hapart ⊢
  rw [hs] at hsound ⊢
  cases ht : (t.shared.perform ctx op).outcome answers with
  | error e' =>
    rw [ht] at hplain hapart
    refine h.append hsound hapart hself (Shared.extends_self h.apart.sound) h.view
      ⟨rfl, hnot, fun _ => ⟨rfl, ?_⟩⟩
    rcases hplain with rfl | hsame
    · exact .inl rfl
    · exact .inr ⟨e, rfl, congrArg _ (Except.error.inj hsame)⟩
  | ok given' =>
    rw [ht] at hplain hapart
    have hgrows' := Shared.grows_perform h.apart.sound ht
    obtain rfl : e = .unhashable := hplain.resolve_right fun hsame => by cases hsame
    have hview : given'.shared.view = t.shared.view := by
      have hseen := Shared.outcome_seen ctx answers h.apart.sound op
      rw [ht] at hseen
      have hnone : t.shared.view.memo = none := by rw [h.view, Recurrence.memo_withMemo]
      exact Recurrence.eq_of_perform_of_not_isKeyed hnone hop hseen.symm
    exact h.append hsound hapart hself hgrows'.toExtends (hview.trans h.view)
      ⟨rfl, hnot, fun _ => ⟨rfl, .inl rfl⟩⟩

theorem Alike.perform (h : s.Alike ctx answers t) (op : Operation) :
    (s.perform ctx answers op).Alike ctx answers (t.perform ctx answers op) := by
  cases hop : op.isKeyed with
  | true => exact h.perform_of_isKeyed hop
  | false => exact h.perform_of_not_isKeyed hop

theorem Alike.run (h : s.Alike ctx answers t) (history : List Event) :
    (s.run ctx answers history).Alike ctx answers (t.run ctx answers history) := by
  induction history generalizing s t with
  | nil => exact h
  | cons event rest ih =>
    cases event with
    | perform op => exact ih (h.perform op)
    | edit index change => exact ih (h.edit index change)

/-- Every operation has an entry, in the order of the history. -/
theorem map_op_log_run (s : Session) (history : List Event) :
    (s.run ctx answers history).log.map (·.op) =
      s.log.map (·.op) ++ history.filterMap Event.operation? := by
  induction history generalizing s with
  | nil => simp [run]
  | cons event rest ih =>
    refine (ih (s.step ctx answers event)).trans ?_
    cases event with
    | perform op =>
      have hlog : (s.perform ctx answers op).log.map (·.op) = s.log.map (·.op) ++ [op] := by
        unfold Session.perform
        split <;> simp
      rw [step, hlog, List.append_assoc]
      rfl
    | edit index change =>
      rw [step, log_edit]
      rfl

/-- The first day of 1446, and no other. -/
def newYearsDay : Recurrence :=
  .rule { options :=
    { frequency := .daily
      start := { year := 1446, month := 1, day := 1, variant := .tabular }
      count := some 1
      variant := .tabular } }

/-- The query for the first day after the last month of 1445, where a list is given for whether the
end counts. -/
def askAfterLastMonth : Operation :=
  .after (.lunar { year := 1445, month := 12, day := 29, variant := .tabular }) (.list [])

end Session

end HijriRecurrence
