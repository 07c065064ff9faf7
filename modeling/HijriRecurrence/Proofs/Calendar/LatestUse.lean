import HijriRecurrence.Calendar.MonthCache
import Mathlib.Data.List.Forall2
import Mathlib.Data.List.Induction

/-!
# The months used last

A cache of month lengths has room for some number of months and keeps those that were used last.
What these are is a matter of its history alone: of the keys that were put or found since the cache
was last cleared, each where it was used last, as many as there is room for (`latest`).  A key that
is not found is not used, and neither is one that is only tested or a cache that is counted.

* `latest`, `lastPut` — what a history says of keys and of their lengths;
* `KeepsLatest` — a cache that has just these, and `KeepsLatest.perform` — every operation keeps it
  so;
* `keepsLatest_performAll` — any operations in a row, from a new cache on, and what the cache then
  answers.
-/

namespace HijriRecurrence

/-! ### Keys in order of their last use -/

section LastUse

variable {α : Type} [BEq α] [EquivBEq α]

/-- Leaving out one item and leaving out repetitions come to the same in either order. -/
theorem eraseDups_filter_ne (key : α) (items : List α) :
    (items.filter fun a => !(a == key)).eraseDups =
      items.eraseDups.filter fun a => !(a == key) := by
  match items with
  | [] => rfl
  | first :: rest =>
    have hrest := eraseDups_filter_ne key (rest.filter fun a => !(a == first))
    rw [List.eraseDups_cons]
    by_cases hkey : first == key
    · -- leaving out the first item leaves out the key
      have hsame (a : α) : (a == first) = (a == key) := BEq.congr_right hkey
      rw [List.filter_cons_of_neg (by simp [hkey]), List.filter_cons_of_neg (by simp [hkey]),
        ← hrest, List.filter_filter]
      simp only [hsame, Bool.and_self]
    · have hkey : (!(first == key)) = true := by simpa using hkey
      rw [List.filter_cons_of_pos (p := fun a => !(a == key)) hkey,
        List.filter_cons_of_pos (p := fun a => !(a == key)) hkey, List.eraseDups_cons, ← hrest,
        List.filter_filter, List.filter_filter]
      simp only [Bool.and_comm]
termination_by items.length
decreasing_by exact Nat.lt_succ_of_le (List.length_filter_le _ _)

/-- A used key goes to the front and is left out behind it. -/
theorem eraseDups_cons_eq (key : α) (items : List α) :
    (key :: items).eraseDups = key :: items.eraseDups.filter fun a => !(a == key) := by
  rw [List.eraseDups_cons, eraseDups_filter_ne]

theorem pairwise_eraseDups (items : List α) :
    items.eraseDups.Pairwise fun a b => (b == a) = false := by
  induction items with
  | nil => exact .nil
  | cons key rest ih =>
    rw [eraseDups_cons_eq]
    refine .cons (fun a ha => ?_) (ih.filter _)
    simpa using (List.mem_filter.1 ha).2

/-- Of items without repetitions, one that is left out makes room for one more at most. -/
theorem take_filter_take {items : List α} (h : items.Pairwise fun a b => (b == a) = false)
    (key : α) (n : Nat) :
    ((items.take (n + 1)).filter fun a => !(a == key)).take n =
      (items.filter fun a => !(a == key)).take n := by
  induction h generalizing n with
  | nil => simp
  | @cons first rest hfirst _ ih =>
    rw [List.take_succ_cons]
    by_cases hkey : first == key
    · -- no other item equals the key
      have hothers : ∀ a ∈ rest, (!(a == key)) = true := fun a ha => by
        rw [← BEq.congr_right hkey, hfirst a ha]
        rfl
      have hall : (rest.filter fun a => !(a == key)) = rest := List.filter_eq_self.2 hothers
      have htaken : ((rest.take n).filter fun a => !(a == key)) = rest.take n :=
        List.filter_eq_self.2 fun a ha => hothers a (List.mem_of_mem_take ha)
      rw [List.filter_cons_of_neg (by simp [hkey]), List.filter_cons_of_neg (by simp [hkey]), hall,
        htaken, List.take_take, Nat.min_self]
    · have hkey : (!(first == key)) = true := by simpa using hkey
      rw [List.filter_cons_of_pos (p := fun a => !(a == key)) hkey,
        List.filter_cons_of_pos (p := fun a => !(a == key)) hkey]
      cases n with
      | zero => rfl
      | succ n => rw [List.take_succ_cons, List.take_succ_cons, ih n]

end LastUse

namespace MonthCache

/-! ### Operations and what they say -/

/-- What a caller does with a cache. -/
inductive Operation where
  | get (key : MonthKey)
  | put (key : MonthKey) (length : Value)
  | contains (key : MonthKey)
  | size
  | clear
deriving Repr

def perform (c : MonthCache) : Operation → MonthCache
  | .get key => (c.get key).2
  | .put key length => (c.tryPut key length).2
  | .contains _ | .size => c
  | .clear => c.clear

def performAll (c : MonthCache) (operations : List Operation) : MonthCache :=
  operations.foldl perform c

/-- The length that was last put for a key since the cache was cleared, by a history with the latest
operation first. -/
def lastPut (key : MonthKey) : List Operation → Option Value
  | [] | .clear :: _ => none
  | .put other length :: earlier => if other == key then some length else lastPut key earlier
  | _ :: earlier => lastPut key earlier

/-- Of some uses of keys, the latest first, the keys that there is room for, each at its last
use. -/
def mostRecent (room : Nat) (used : List MonthKey) : List MonthKey := used.eraseDups.take room

/-- The uses of keys since the cache was cleared, the latest first.  A key is used when it is put,
and when it is got and there is a length for it among the keys used last. -/
def uses (room : Nat) : List Operation → List MonthKey
  | [] | .clear :: _ => []
  | .put key _ :: earlier => key :: uses room earlier
  | .get key :: earlier =>
    if (mostRecent room (uses room earlier)).contains key &&
        (lastPut key earlier).any (!·.isNull) then key :: uses room earlier
    else uses room earlier
  | .contains _ :: earlier | .size :: earlier => uses room earlier

/-- The keys used last after a history, the latest first. -/
def latest (room : Nat) (history : List Operation) : List MonthKey :=
  mostRecent room (uses room history)

variable {c : MonthCache} {room : Nat} {history : List Operation} {key other : MonthKey}

/-- Equal keys have one last length. -/
theorem lastPut_congr (h : (other == key) = true) (history : List Operation) :
    lastPut other history = lastPut key history := by
  have hsame (k : MonthKey) : (k == other) = (k == key) := BEq.congr_right h
  induction history with
  | nil => rfl
  | cons operation earlier ih =>
    cases operation with
    | put k length => simp only [lastPut, hsame, ih]
    | clear => rfl
    | get k => exact ih
    | contains k => exact ih
    | size => exact ih

/-- A use puts a key before the others, and the last of them may have to go. -/
theorem mostRecent_cons (room : Nat) (key : MonthKey) (used : List MonthKey) :
    mostRecent room (key :: used) =
      (key :: (mostRecent room used).filter fun k => !(k == key)).take room := by
  unfold mostRecent
  rw [eraseDups_cons_eq]
  cases room with
  | zero => rfl
  | succ n =>
    rw [List.take_succ_cons, List.take_succ_cons,
      take_filter_take (pairwise_eraseDups used) key n]

/-- A use of a key that is there already makes no key go. -/
theorem mostRecent_cons_of_contains {used : List MonthKey}
    (h : (mostRecent room used).contains key = true) :
    mostRecent room (key :: used) =
      key :: (mostRecent room used).filter fun k => !(k == key) := by
  obtain ⟨k, hk, hsame⟩ := List.contains_iff_exists_mem_beq.1 h
  have hfewer : ((mostRecent room used).filter fun k => !(k == key)).length <
      (mostRecent room used).length :=
    List.length_filter_lt_length_iff_exists.2 ⟨k, hk, by simp [PartialEquivBEq.symm hsame]⟩
  have hroom : (mostRecent room used).length ≤ room := List.length_take_le room _
  rw [mostRecent_cons]
  exact List.take_of_length_le (by simp only [List.length_cons]; omega)

/-! ### A cache with the keys used last -/

/-- A cache that has room for some number of keys, of which its entries are the ones used last, the
latest at the end, each with the length last put for it. -/
structure KeepsLatest (room : Nat) (history : List Operation) (c : MonthCache) : Prop where
  hasRoom : c.room? = some (room : Int)
  keys : List.Forall₂ (fun key entry => (entry.1 == key) = true) (latest room history)
    c.entries.reverse
  lengths : ∀ entry ∈ c.entries, lastPut entry.1 history = some entry.2

namespace KeepsLatest

variable (h : KeepsLatest room history c)
include h

/-- A key has an entry exactly when it is one of those used last. -/
theorem contains_eq (key : MonthKey) : c.contains key = (latest room history).contains key := by
  have hany : ∀ {keys : List MonthKey} {entries : List (MonthKey × Value)},
      List.Forall₂ (fun key entry => (entry.1 == key) = true) keys entries →
      keys.contains key = entries.any (·.1 == key) := by
    intro keys entries hkeys
    induction hkeys with
    | nil => rfl
    | @cons k entry _ _ hk _ ih =>
      have hsame : (key == k) = (entry.1 == key) := by rw [BEq.congr_left hk, BEq.comm]
      rw [List.contains_cons, List.any_cons, ih, hsame]
  rw [hany h.keys, List.any_reverse, contains, entry?, List.isSome_find?]

/-- The entry of a key has the length last put for it. -/
theorem map_entry? (key : MonthKey) :
    (c.entry? key).map (·.2) =
      if (latest room history).contains key then lastPut key history else none := by
  rw [← h.contains_eq key, contains]
  cases hentry : c.entry? key with
  | none => rfl
  | some entry =>
    have hkey : (entry.1 == key) = true :=
      List.find?_some (p := fun entry : MonthKey × Value => entry.1 == key) hentry
    have hlength := h.lengths entry (List.mem_of_find?_eq_some hentry)
    rw [lastPut_congr hkey] at hlength
    exact hlength.symm

/-- Getting the length of a key gives the one last put for it, if the key is one of those used last.
Nothing, put for a length, is not found. -/
theorem get_eq (key : MonthKey) :
    (c.get key).1 = if (latest room history).contains key then
      (lastPut key history).filter (!·.isNull) else none := by
  have hentry := h.map_entry? key
  have hget : (c.get key).1 = ((c.entry? key).map (·.2)).filter (!·.isNull) := by
    rw [get]
    cases c.entry? key with
    | none => rfl
    | some entry =>
      obtain ⟨own, length⟩ := entry
      cases length <;> rfl
  rw [hget, hentry]
  split <;> rfl

/-- A key is found exactly when getting its length counts as a use. -/
theorem isSome_get (key : MonthKey) :
    (c.get key).1.isSome =
      ((latest room history).contains key && (lastPut key history).any (!·.isNull)) := by
  rw [h.get_eq]
  cases (latest room history).contains key with
  | false => rfl
  | true =>
    cases lastPut key history with
    | none => rfl
    | some length => cases length <;> rfl

theorem size_eq : c.size = (latest room history).length := by
  rw [size, ← List.length_reverse, h.keys.length_eq]

theorem size_le : c.size ≤ room := by
  rw [h.size_eq]
  exact List.length_take_le room _

/-- Putting a length never fails. -/
theorem tryPut_fst (key : MonthKey) (length : Value) : (c.tryPut key length).1 = .ok () := by
  have hroom : ¬(room : Int) < 0 := by omega
  simp only [tryPut, h.hasRoom, if_neg hroom]

omit h

/-- An entry that is used goes to the end of the others. -/
theorem forall₂_use {keys : List MonthKey}
    (hkeys : List.Forall₂ (fun key entry => (entry.1 == key) = true) keys c.entries.reverse)
    {own : MonthKey} (hown : (own == key) = true) (length : Value) :
    List.Forall₂ (fun key entry => (entry.1 == key) = true)
      (key :: keys.filter fun k => !(k == key)) (c.without key ++ [(own, length)]).reverse := by
  rw [List.reverse_append, without, ← List.filter_reverse]
  refine .cons hown (List.rel_filter (fun k entry hk => ?_) hkeys)
  simp only [bne, BEq.congr_left hk]

/-- A key that equals the one looked for. -/
theorem own_beq (c : MonthCache) (key : MonthKey) :
    (((c.entry? key).map (·.1)).getD key == key) = true := by
  cases hentry : c.entry? key with
  | none => exact BEq.rfl
  | some entry =>
    exact List.find?_some (p := fun entry : MonthKey × Value => entry.1 == key) hentry

/-- Getting a length finds nothing and changes nothing, or finds an entry and moves it. -/
theorem get_cases (c : MonthCache) (key : MonthKey) :
    c.get key = (none, c) ∨
      ∃ own length, (own, length) ∈ c.entries ∧ (own == key) = true ∧
        c.get key = (some length, { c with entries := c.without key ++ [(own, length)] }) := by
  cases hentry : c.entry? key with
  | none =>
    left
    rw [MonthCache.get, hentry]
  | some entry =>
    obtain ⟨own, length⟩ := entry
    have hown := own_beq c key
    rw [hentry] at hown
    by_cases hnull : length.isNull
    · left
      cases length with
      | null => rw [MonthCache.get, hentry]
      | _ => cases hnull
    · right
      refine ⟨own, length, List.mem_of_find?_eq_some hentry, hown, ?_⟩
      rw [MonthCache.get, hentry]
      cases length with
      | null => exact absurd rfl hnull
      | _ => rfl

include h

theorem put (key : MonthKey) (length : Value) :
    KeepsLatest room (.put key length :: history) (c.tryPut key length).2 := by
  have hput : (c.tryPut key length).2 = { c with
      entries := (c.without key ++ [(((c.entry? key).map (·.1)).getD key, length)]).drop
        ((c.without key ++ [(((c.entry? key).map (·.1)).getD key, length)]).length - room) } := by
    rw [tryPut, MonthCache.put, h.hasRoom]
    rfl
  have hown := own_beq c key
  rw [hput]
  refine ⟨h.hasRoom, ?_, fun entry hentry => ?_⟩
  · -- what has to go is what the room does not take of the entries, the latest first
    rw [latest, uses, mostRecent_cons, List.reverse_drop]
    have huse := List.forall₂_take room (forall₂_use h.keys hown length)
    have htake : ∀ entries : List (MonthKey × Value),
        entries.reverse.take (entries.length - (entries.length - room)) =
          entries.reverse.take room := fun entries => by
      rw [List.take_eq_take_iff, List.length_reverse]
      omega
    rw [htake]
    exact huse
  · rcases List.mem_append.1 (List.mem_of_mem_drop hentry) with hkept | hnew
    · obtain ⟨hmem, hother⟩ := List.mem_filter.1 hkept
      have hother : (key == entry.1) = false := by
        rw [BEq.comm]
        simpa [bne] using hother
      rw [lastPut, hother]
      exact h.lengths entry hmem
    · obtain rfl := List.mem_singleton.1 hnew
      rw [lastPut, BEq.comm, hown]
      rfl

theorem get (key : MonthKey) : KeepsLatest room (.get key :: history) (c.get key).2 := by
  have hused := h.isSome_get key
  rcases get_cases c key with hmiss | ⟨own, length, hmem, hown, hhit⟩
  · rw [hmiss] at hused ⊢
    have hlatest : latest room (.get key :: history) = latest room history := by
      rw [latest, uses, ← latest, ← hused]
      rfl
    exact ⟨h.hasRoom, hlatest ▸ h.keys, h.lengths⟩
  · rw [hhit] at hused ⊢
    have hlatest : latest room (.get key :: history) =
        key :: (latest room history).filter fun k => !(k == key) := by
      rw [latest, uses, ← latest, ← hused]
      exact mostRecent_cons_of_contains (Bool.and_eq_true_iff.1 hused.symm).1
    refine ⟨h.hasRoom, hlatest ▸ forall₂_use h.keys hown length, fun entry hentry => ?_⟩
    rcases List.mem_append.1 hentry with hkept | hmoved
    · exact h.lengths entry (List.mem_filter.1 hkept).1
    · obtain rfl := List.mem_singleton.1 hmoved
      exact h.lengths _ hmem

/-- **Every operation keeps the keys used last.** -/
theorem perform (operation : Operation) :
    KeepsLatest room (operation :: history) (c.perform operation) := by
  cases operation with
  | get key => exact h.get key
  | put key length => exact h.put key length
  | contains key => exact ⟨h.hasRoom, h.keys, h.lengths⟩
  | size => exact ⟨h.hasRoom, h.keys, h.lengths⟩
  | clear =>
    refine ⟨h.hasRoom, ?_, fun entry hentry => absurd hentry List.not_mem_nil⟩
    have hnone : latest room (.clear :: history) = [] := List.take_nil
    rw [hnone]
    exact .nil

end KeepsLatest

/-- A new cache keeps what an empty history says. -/
theorem keepsLatest_new {size : Value}
    (hroom : ({ maxSize := size } : MonthCache).room? = some (room : Int)) :
    KeepsLatest room [] { maxSize := size } := by
  refine ⟨hroom, ?_, fun entry hentry => absurd hentry List.not_mem_nil⟩
  have hnone : latest room [] = [] := List.take_nil
  rw [hnone]
  exact .nil

theorem keepsLatest_foldl {size : Value}
    (hroom : ({ maxSize := size } : MonthCache).room? = some (room : Int))
    (operations : List Operation) :
    KeepsLatest room operations.reverse (performAll { maxSize := size } operations) := by
  induction operations using List.reverseRecOn with
  | nil => exact keepsLatest_new hroom
  | append_singleton earlier operation ih =>
    rw [List.reverse_append, performAll, List.foldl_append]
    exact ih.perform operation

/-- **A cache of month lengths keeps the months used last.**  Let a new cache have room for some
number of months, and make any operations with it.  Its entries are then, the latest at the end, the
keys used last since the cache was cleared, each at its last use and as many as there is room for,
with the lengths last put for them.  Getting a length gives these lengths for these keys and nothing
for others; these keys and no others are there, and they are counted; and a further length can be
put for any key. -/
theorem keepsLatest_performAll {size : Value}
    (hroom : ({ maxSize := size } : MonthCache).room? = some (room : Int))
    (operations : List Operation) :
    ∃ c, performAll { maxSize := size } operations = c ∧
      List.Forall₂ (fun key entry => (entry.1 == key) = true)
        (latest room operations.reverse).reverse c.entries ∧
      (∀ entry ∈ c.entries, lastPut entry.1 operations.reverse = some entry.2) ∧
      (∀ key, (c.get key).1 = if (latest room operations.reverse).contains key then
        (lastPut key operations.reverse).filter (!·.isNull) else none) ∧
      (∀ key, c.contains key = (latest room operations.reverse).contains key) ∧
      c.size = (latest room operations.reverse).length ∧ c.size ≤ room ∧
      ∀ key length, (c.tryPut key length).1 = .ok () := by
  have h := keepsLatest_foldl hroom operations
  refine ⟨_, rfl, ?_, h.lengths, h.get_eq, h.contains_eq, h.size_eq, h.size_le, h.tryPut_fst⟩
  rw [← List.forall₂_reverse_iff, List.reverse_reverse]
  exact h.keys

/-- Two months are put, the first is got again, the second only tested, and a month that is not there
is asked for: there is no room for the second when a third one is put. -/
def threeMonths : List Operation :=
  [.put (.pair 1446 1) (.int 30), .put (.pair 1446 2) (.int 29), .get (.pair 1446 1),
    .contains (.pair 1446 2), .get (.pair 1446 9), .put (.pair 1446 3) (.int 30)]

theorem keepsLatest_performAll_threeMonths :
    ({ maxSize := .int 2 } : MonthCache).room? = some ((2 : Nat) : Int) ∧
      latest 2 threeMonths.reverse = [.pair 1446 3, .pair 1446 1] ∧
      ∃ c, performAll { maxSize := .int 2 } threeMonths = c ∧ c.size = 2 ∧
        (c.get (.pair 1446 1)).1 = some (.int 30) ∧ (c.get (.pair 1446 2)).1 = none := by
  have hroom : ({ maxSize := .int 2 } : MonthCache).room? = some ((2 : Nat) : Int) := rfl
  obtain ⟨c, hc, -, -, hget, -, hsize, -⟩ := keepsLatest_performAll hroom threeMonths
  exact ⟨hroom, rfl, c, hc, hsize, hget _, hget _⟩

end MonthCache

end HijriRecurrence
