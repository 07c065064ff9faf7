import HijriRecurrence.Lunar.Date
import HijriRecurrence.Occurrence.Stream

/-!
# Merging and excluding

Several walks in increasing order are merged into one, two at a time.  The merge looks at the first
occurrence of every walk when it starts, in order, and at a further one only when the occurrence
before it has been passed on.  Of equal days the one from the earlier walk comes first.

* `merge2` merges two walks; while it waits at an occurrence of the first walk it is `mergeHead`,
  which looks at the second walk for earlier days;
* `merge` merges any number of walks;
* `exclude` drops from a walk all but the first occurrence of each day, and every day that an
  excluding walk has.  The excluding walk is moved on only as far as the day looked at.
-/

namespace HijriRecurrence.Occurrences

/-- The merge of a walk that is at an occurrence with a second walk.  When the occurrence has been
passed on, `others` goes on with what is left of the second walk. -/
def mergeHead (head : LunarDate) (others : Occurrences LunarDate → Occurrences LunarDate) :
    Occurrences LunarDate → Occurrences LunarDate
  | done => item head fun _ => others done
  | failed e => failed e
  | item next rest =>
    if next.toLunarDay < head.toLunarDay then item next fun _ => mergeHead head others (rest ())
    else item head fun _ => others (item next rest)
  | ask inquiry next => ask inquiry fun answer => mergeHead head others (next answer)

def merge2 : Occurrences LunarDate → Occurrences LunarDate → Occurrences LunarDate
  | done, second => second
  | failed e, _ => failed e
  | item head rest, second => mergeHead head (fun second => merge2 (rest ()) second) second
  | ask inquiry next, second => ask inquiry fun answer => merge2 (next answer) second

def merge (walks : List (Occurrences LunarDate)) : Occurrences LunarDate := walks.foldr merge2 done

/-- Whether a walk is at an occurrence on a day. -/
def isAt (day : LunarDay) : Occurrences LunarDate → Bool
  | item head _ => decide (head.toLunarDay = day)
  | _ => false

/-- The occurrences of a walk that are the first of their day and that an excluding walk does not
have.  `last` is the text of the day looked at last. -/
def exclude : Occurrences LunarDate → Option String → Occurrences LunarDate → Occurrences LunarDate
  | done, _, _ => done
  | failed e, _, _ => failed e
  | item head rest, last, excluded =>
    if last = some head.text then exclude (rest ()) last excluded
    else
      after (excluded.dropWhile fun d => decide (d.toLunarDay < head.toLunarDay)) fun excluded =>
        if excluded.isAt head.toLunarDay then exclude (rest ()) (some head.text) excluded
        else item head fun _ => exclude (rest ()) (some head.text) excluded
  | ask inquiry next, last, excluded =>
    ask inquiry fun answer => exclude (next answer) last excluded

/-- The merge of the included walks without what the excluding walks have.  The first excluded day
is looked for before the first included one. -/
def mergeExcept (included excluded : List (Occurrences LunarDate)) : Occurrences LunarDate :=
  after ((merge excluded).dropWhile fun _ => false) fun excluded =>
    exclude (merge included) none excluded

end HijriRecurrence.Occurrences
