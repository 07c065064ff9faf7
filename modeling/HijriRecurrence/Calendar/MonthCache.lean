import HijriRecurrence.Calendar.Basic
import HijriRecurrence.Calendar.MonthKey

/-!
# Caches of month lengths

A cache maps months to their lengths and is bounded: it keeps the months used last.  Its entries
stand in order of their last use, the oldest first.  Putting an entry uses it, and so does getting
one that is there; a test of membership does not.

Callers may put anything in place of a length.  Nothing, put there, is an entry that `get` does not
find.  They may also name a month by other values than integers: an entry stands under the key that
it was first put under, and is found under all keys that equal it.

A length that is needed is looked up, and a search for it is made only where there is no entry
(`lengthOf`).
-/

namespace HijriRecurrence

/-- A bounded map from months to their lengths, the least recently used first. -/
structure MonthCache where
  maxSize : Value := .int 500
  entries : List (MonthKey × Value) := []
deriving Repr

namespace MonthCache

/-- The greatest number of entries; below zero there is no room even for none, and a size that is no
number gives no answer. -/
def room? (c : MonthCache) : Option Int :=
  match c.maxSize with
  | .float q => some q.floor
  | .minusZero => some 0
  | size => size.countable?

/-- The entry of a key, with the key that it stands under. -/
def entry? (c : MonthCache) (key : MonthKey) : Option (MonthKey × Value) :=
  c.entries.find? fun entry => entry.1 == key

def without (c : MonthCache) (key : MonthKey) : List (MonthKey × Value) :=
  c.entries.filter fun entry => entry.1 != key

def contains (c : MonthCache) (key : MonthKey) : Bool := (c.entry? key).isSome

def size (c : MonthCache) : Nat := c.entries.length

/-- The length of a month, if it has an entry; the entry then becomes the most recently used. -/
def get (c : MonthCache) (key : MonthKey) : Option Value × MonthCache :=
  match c.entry? key with
  | none | some (_, .null) => (none, c)
  | some (own, length) => (some length, { c with entries := c.without key ++ [(own, length)] })

/-- Gives a month a length; the least recently used entries make room. -/
def put (c : MonthCache) (key : MonthKey) (length : Value) : MonthCache :=
  let own := ((c.entry? key).map (·.1)).getD key
  let entries := c.without key ++ [(own, length)]
  match c.room? with
  | some room => { c with entries := entries.drop (entries.length - room.toNat) }
  | none => { c with entries }

/-- Gives a month a length in a cache of any size.  Making room below zero fails once all entries
are gone, and a size that is no number fails with the entry in place. -/
def tryPut (c : MonthCache) (key : MonthKey) (length : Value) : Except Error Unit × MonthCache :=
  (match c.room? with
    | some room => if room < 0 then .error .cacheTooSmall else .ok ()
    | none => .error .notNumber,
   c.put key length)

/-- The length of a month from the cache or else from a search.  What the search finds is put into
the cache. -/
def lengthOf (c : MonthCache) (key : MonthKey) (search : Unit → Except Error Int) :
    Except Error Quantity × MonthCache :=
  match c.get key with
  | (some length, used) => (.ok (.ofValue length), used)
  | (none, _) =>
    match search () with
    | .error e => (.error e, c)
    | .ok length =>
      match c.tryPut key (.int length) with
      | (.ok _, filled) => (.ok (.whole length), filled)
      | (.error e, filled) => (.error e, filled)

def clear (c : MonthCache) : MonthCache := { c with entries := [] }

end MonthCache

end HijriRecurrence
