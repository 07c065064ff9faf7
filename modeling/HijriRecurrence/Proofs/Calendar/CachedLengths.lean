import HijriRecurrence.Calendar.Registry

/-!
# Month lengths from a cache

A backend of the observed calendar may keep the lengths that it has searched for.  The host does not
change, so what is kept is what a search would find again: nobody can tell a backend with a cache
from one without, however often the cache makes room and whatever searches fail.

* `MonthCache.Holds` — what a cache holds: lengths that a search finds, and no more than its size;
* `monthLength_of_holds` — one call, and `run_of_holds`, any calculation that makes such calls;
* `monthLengths_newObserved` — any calls in a row, from an empty cache on.
-/

namespace HijriRecurrence

variable {host : Host} {size year month : Int}

/-! ### What a cache holds -/

namespace MonthCache

variable {c : MonthCache} {search : Int → Int → Except Error Int}

/-- A cache of some size has at most as many entries, and each of them is a length that a search
finds, under the month that it was found for.  A month for which the search fails has no entry. -/
structure Holds (search : Int → Int → Except Error Int) (size : Int) (c : MonthCache) : Prop where
  maxSize : c.maxSize = .int size
  bounded : c.entries.length ≤ size
  found : ∀ entry ∈ c.entries, ∃ year month length,
    entry = (.pair year month, .int length) ∧ search year month = .ok length

/-- A new cache holds nothing. -/
theorem holds_empty (hsize : 0 ≤ size) : Holds search size { maxSize := .int size } :=
  ⟨rfl, hsize, fun _ hentry => absurd hentry List.not_mem_nil⟩

/-- An entry found under a month is the length that a search finds for it. -/
theorem Holds.entry (h : c.Holds search size) {entry : MonthKey × Value}
    (hentry : c.entry? (.pair year month) = some entry) :
    ∃ length, entry = (.pair year month, .int length) ∧ search year month = .ok length := by
  obtain ⟨year', month', length, rfl, hfound⟩ := h.found entry (List.mem_of_find?_eq_some hentry)
  have hkey : (MonthKey.pair year' month' == .pair year month) = true :=
    List.find?_some (p := fun entry : MonthKey × Value => entry.1 == .pair year month) hentry
  rw [MonthKey.pair_beq_pair, Bool.and_eq_true, beq_iff_eq, beq_iff_eq] at hkey
  obtain ⟨rfl, rfl⟩ := hkey
  exact ⟨length, rfl, hfound⟩

/-- An entry that is found is one less among the others. -/
theorem length_without_lt {key : MonthKey} {entry : MonthKey × Value}
    (hentry : c.entry? key = some entry) : (c.without key).length < c.entries.length := by
  apply List.length_filter_lt_length_iff_exists.2
  refine ⟨entry, List.mem_of_find?_eq_some hentry, ?_⟩
  have hkey := List.find?_some hentry
  simpa [bne] using hkey

/-- Getting an entry moves it, and no more. -/
theorem Holds.get (h : c.Holds search size) (year month : Int) :
    c.get (.pair year month) = (none, c) ∨
      ∃ length used, search year month = .ok length ∧
        c.get (.pair year month) = (some (.int length), used) ∧ used.Holds search size := by
  cases hentry : c.entry? (.pair year month) with
  | none =>
    left
    rw [MonthCache.get, hentry]
  | some entry =>
    right
    obtain ⟨length, rfl, hfound⟩ := h.entry hentry
    refine ⟨length, { c with entries := c.without _ ++ [(_, .int length)] }, hfound,
      by rw [MonthCache.get, hentry], h.maxSize, ?_, ?_⟩
    · have hfewer := length_without_lt hentry
      have hbounded := h.bounded
      simp only [List.length_append, List.length_singleton]
      omega
    · intro other hother
      rcases List.mem_append.1 hother with hkept | hmoved
      · exact h.found other (List.mem_filter.1 hkept).1
      · exact ⟨year, month, length, List.mem_singleton.1 hmoved, hfound⟩

/-- Putting a length that a search has found leaves room for it. -/
theorem Holds.put (h : c.Holds search size) (hsize : 0 ≤ size) {length : Int}
    (hfound : search year month = .ok length) :
    (c.put (.pair year month) (.int length)).Holds search size := by
  have hroom : c.room? = some size := by
    rw [room?, h.maxSize]
    rfl
  have hown : ((c.entry? (.pair year month)).map (·.1)).getD (.pair year month) =
      .pair year month := by
    cases hentry : c.entry? (.pair year month) with
    | none => rfl
    | some entry =>
      obtain ⟨_, rfl, -⟩ := h.entry hentry
      rfl
  rw [MonthCache.put, hroom, hown]
  refine ⟨h.maxSize, ?_, ?_⟩
  · simp only [List.length_drop]
    omega
  · intro entry hentry
    rcases List.mem_append.1 (List.mem_of_mem_drop hentry) with hkept | hput
    · exact h.found entry (List.mem_filter.1 hkept).1
    · exact ⟨year, month, length, List.mem_singleton.1 hput, hfound⟩

/-- **A length from the cache or else from a search is what the search finds,** and the cache holds
such lengths afterwards. -/
theorem Holds.lengthOf (h : c.Holds search size) (hsize : 0 ≤ size) (year month : Int) :
    ∃ used, c.lengthOf (.pair year month) (fun _ => search year month) =
      ((search year month).map .whole, used) ∧ used.Holds search size := by
  rcases h.get year month with hmissing | ⟨length, used, hfound, hget, hused⟩
  · cases hsearch : search year month with
    | error e =>
      refine ⟨c, ?_, h⟩
      simp only [MonthCache.lengthOf, hmissing]
      rfl
    | ok length =>
      refine ⟨_, ?_, h.put hsize hsearch⟩
      have hroom : c.room? = some size := by
        rw [room?, h.maxSize]
        rfl
      simp only [MonthCache.lengthOf, hmissing, tryPut, hroom, if_neg (Int.not_lt.2 hsize)]
      rfl
  · refine ⟨used, ?_, hused⟩
    rw [MonthCache.lengthOf, hget, hfound]
    rfl

end MonthCache

namespace Backend

variable {cache : MonthCache}

/-! ### One call -/

/-- Without a cache every call is a search, which refuses a month outside 1 to 12 by itself. -/
theorem monthLength_uncached :
    (observed none).monthLength host year month =
      ((Observed.probeMonth host year month).map .whole, observed none) := by
  cases hmonth : checkMonth month with
  | ok _ => simp only [monthLength, hmonth]
  | error e =>
    have hkind : e.kind ≠ .conversionFailure := by
      unfold checkMonth at hmonth
      split at hmonth
      · cases hmonth
      · obtain rfl := Except.error.inj hmonth
        simp [Error.kind]
    have hsearch : Observed.toCivil host ⟨year, month, 30⟩ = .error e := by
      rw [Observed.toCivil, hmonth]
      rfl
    simp only [monthLength, hmonth, Observed.probeMonth, hsearch, if_neg hkind]
    rfl

/-- **A call to a backend with a cache answers as a search does,** and leaves the cache in order. -/
theorem monthLength_of_holds (h : cache.Holds (Observed.probeMonth host) size)
    (hsize : 0 ≤ size) (year month : Int) :
    ∃ used, (observed (some cache)).monthLength host year month =
        (((observed none).monthLength host year month).1, observed (some used)) ∧
      used.Holds (Observed.probeMonth host) size := by
  cases hmonth : checkMonth month with
  | error e =>
    refine ⟨cache, ?_, h⟩
    simp only [monthLength, hmonth]
  | ok _ =>
    obtain ⟨used, hlength, hused⟩ := h.lengthOf hsize year month
    refine ⟨used, ?_, hused⟩
    simp only [monthLength, hmonth, cachedLength, hlength]

/-! ### Any number of calls -/

/-- A backend with a cache that is in order. -/
def KeepsLengths (host : Host) (size : Int) (backend : Backend) : Prop :=
  ∃ cache, backend = observed (some cache) ∧ cache.Holds (Observed.probeMonth host) size

/-- One answer of such a backend is what a search answers, and leaves it such a backend. -/
theorem KeepsLengths.answer (hsize : 0 ≤ size) (backend : Backend) (inquiry : Inquiry)
    (h : backend.KeepsLengths host size) :
    (backend.answer host inquiry).1 = Observed.answers host inquiry ∧
      (backend.answer host inquiry).2.KeepsLengths host size := by
  obtain ⟨cache, rfl, hcache⟩ := h
  cases inquiry with
  | calendar => exact ⟨rfl, cache, rfl, hcache⟩
  | month year month =>
    obtain ⟨used, hcall, hused⟩ := monthLength_of_holds hcache hsize year month
    simp only [Backend.answer, hcall]
    exact ⟨congrArg Prod.fst monthLength_uncached, used, rfl, hused⟩

/-- **Whatever is calculated with a cache comes to what searching every time comes to.** -/
theorem run_of_holds (h : cache.Holds (Observed.probeMonth host) size) (hsize : 0 ≤ size)
    {α : Type} (f : Calendar → Calculation α) :
    ((observed (some cache)).run host f).1 =
      (f (Observed.calendar host)).outcome (Observed.answers host) :=
  (Calculation.run_of_faithful (KeepsLengths.answer hsize) (f (Observed.calendar host))
    ⟨cache, rfl, h⟩).1

/-- The lengths that a backend gives for some months, asked one after the other, and the backend
afterwards. -/
def monthLengths (host : Host) (backend : Backend) :
    List (Int × Int) → List (Except Error Quantity) × Backend
  | [] => ([], backend)
  | (year, month) :: rest =>
    let (length, backend) := backend.monthLength host year month
    let (lengths, backend) := monthLengths host backend rest
    (length :: lengths, backend)

/-- Calls in a row answer as calls to a backend without a cache do. -/
theorem monthLengths_of_holds (h : cache.Holds (Observed.probeMonth host) size)
    (hsize : 0 ≤ size) (months : List (Int × Int)) :
    ∃ used, (observed (some cache)).monthLengths host months =
        (months.map fun m => ((observed none).monthLength host m.1 m.2).1,
          observed (some used)) ∧
      used.Holds (Observed.probeMonth host) size := by
  induction months generalizing cache with
  | nil => exact ⟨cache, rfl, h⟩
  | cons first rest ih =>
    obtain ⟨year, month⟩ := first
    obtain ⟨next, hcall, hnext⟩ := monthLength_of_holds h hsize year month
    obtain ⟨used, hcalls, hused⟩ := ih hnext
    refine ⟨used, ?_, hused⟩
    simp only [monthLengths, hcall, hcalls, List.map_cons]

/-- A month for which the search fails has no entry. -/
theorem contains_of_holds (h : cache.Holds (Observed.probeMonth host) size) {e : Error}
    (hfails : Observed.probeMonth host year month = .error e) :
    cache.contains (.pair year month) = false := by
  rw [MonthCache.contains, Option.isSome_eq_false_iff, Option.isNone_iff_eq_none]
  cases hentry : cache.entry? (.pair year month) with
  | none => rfl
  | some entry =>
    obtain ⟨length, -, hfound⟩ := h.entry hentry
    exact absurd (hfound.symm.trans hfails) (by simp)

/-- **A cache is not to be seen.**  Whatever the host and however small the cache, each of some
calls in a row is answered, or refused, as by a backend that keeps no cache.  The cache then has no
more entries than its size, all of them lengths that a search finds, and none for a month for which
the search fails. -/
theorem monthLengths_newObserved (host : Host) (hsize : 0 ≤ size) (months : List (Int × Int)) :
    ∃ cache, (Registry.newObserved (.bool true) (.int size)).monthLengths host months =
        (months.map fun m =>
          ((Registry.newObserved (.bool false) (.int size)).monthLength host m.1 m.2).1,
          observed (some cache)) ∧
      cache.size ≤ size ∧
      (∀ entry ∈ cache.entries, ∃ year month length,
        entry = (.pair year month, .int length) ∧
          Observed.probeMonth host year month = .ok length) ∧
      ∀ year month e, Observed.probeMonth host year month = .error e →
        cache.contains (.pair year month) = false := by
  have hempty : MonthCache.Holds (Observed.probeMonth host) size { maxSize := .int size } :=
    MonthCache.holds_empty hsize
  obtain ⟨cache, hcalls, hcache⟩ := monthLengths_of_holds hempty hsize months
  exact ⟨cache, hcalls, hcache.bounded, hcache.found, fun _ _ _ => contains_of_holds hcache⟩

/-- A host that knows a month of 30 days, the month of 29 days after it, and no other day. -/
def twoMonths : Host := fun g =>
  let days := g.dayNumber - 2460499
  if 0 ≤ days ∧ days < 30 then .ok ⟨1446, 1, days + 1⟩
  else if 30 ≤ days ∧ days < 59 then .ok ⟨1446, 2, days - 29⟩
  else .error "no such day"

/-- With room for one month, the second month takes the place of the first, and the third, which is
not found, takes none: the first is searched for again. -/
theorem monthLengths_newObserved_twoMonths :
    (0 : Int) ≤ 1 ∧
      (Observed.probeMonth twoMonths 1446 1).toOption = some 30 ∧
      (Observed.probeMonth twoMonths 1446 2).toOption = some 29 ∧
      (Observed.probeMonth twoMonths 1446 3).toOption = none ∧
      ∃ cache, (Registry.newObserved (.bool true) (.int 1)).monthLengths twoMonths
          [(1446, 1), (1446, 2), (1446, 3), (1446, 1)] =
        ([(1446, 1), (1446, 2), (1446, 3), (1446, 1)].map fun m =>
          ((Registry.newObserved (.bool false) (.int 1)).monthLength twoMonths m.1 m.2).1,
          observed (some cache)) ∧
        cache.size ≤ (1 : Int) ∧
        (∀ entry ∈ cache.entries, ∃ year month length,
          entry = (.pair year month, .int length) ∧
            Observed.probeMonth twoMonths year month = .ok length) ∧
        ∀ year month e, Observed.probeMonth twoMonths year month = .error e →
          cache.contains (.pair year month) = false := by
  refine ⟨by decide, by decide +kernel, by decide +kernel, by decide +kernel, ?_⟩
  exact monthLengths_newObserved twoMonths (by decide) _

end Backend

end HijriRecurrence
