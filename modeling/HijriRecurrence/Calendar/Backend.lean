import HijriRecurrence.Calendar.MonthCache
import HijriRecurrence.Calendar.Observed
import HijriRecurrence.Calendar.Tabular

/-!
# Calendars that keep a cache

A `Backend` is a calendar that serves callers over time.  The tabular one has no state.  The
observed one may keep a cache of month lengths, which spares the search for a month asked for before
(`Backend.monthLength`).  What its callers put into that cache is believed.

A calculation is put to a backend by `Backend.run`, which answers its inquiries one after the other
(`Backend.answer`) and gives the backend in its state afterwards.
-/

namespace HijriRecurrence

/-- A calendar with the state it keeps between calls. -/
inductive Backend where
  | tabular
  | observed (cache : Option MonthCache)
deriving Repr

namespace Backend

def calendar (host : Host) : Backend → Calendar
  | tabular => Tabular.calendar
  | observed _ => Observed.calendar host

def variant : Backend → Variant
  | tabular => .tabular
  | observed _ => .ummAlQura

def shown : Backend → String
  | tabular => "TabularBackend('islamic-tbla')"
  | observed _ => "ObservationalBackend('islamic-umalqura')"

def cache? : Backend → Option MonthCache
  | tabular => none
  | observed cache => cache

/-- What a cache or else a search says of a month from 1 to 12: a month found in the cache is not
searched for, and a month that was found by a search is put there. -/
def cachedLength (host : Host) (cache : MonthCache) (year month : Int) :
    Except Error Quantity × MonthCache :=
  cache.lengthOf (.pair year month) fun _ => Observed.probeMonth host year month

/-- What a backend says of the length of a month. -/
def monthLength (host : Host) (backend : Backend) (year month : Int) :
    Except Error Quantity × Backend :=
  match checkMonth month, backend with
  | .error e, _ => (.error e, backend)
  | .ok _, tabular => (.ok (.whole (Tabular.monthDays year month)), tabular)
  | .ok _, observed none => ((Observed.probeMonth host year month).map .whole, observed none)
  | .ok _, observed (some cache) =>
    ((cachedLength host cache year month).1,
     observed (some (cachedLength host cache year month).2))

/-- The answer of a backend to an inquiry, and the backend afterwards. -/
def answer (host : Host) (backend : Backend) :
    (inquiry : Inquiry) → inquiry.Answer × Backend
  | .calendar => ((), backend)
  | .month year month => backend.monthLength host year month

def run {α : Type} (host : Host) (backend : Backend) (f : Calendar → Calculation α) :
    Except Error α × Backend :=
  (f (backend.calendar host)).run (answer host) backend

def yearLength (host : Host) (backend : Backend) (year : Int) :
    Except Error Quantity × Backend :=
  backend.run host fun cal => cal.yearLength year

def isLeapYear (host : Host) (backend : Backend) (year : Int) : Except Error Bool × Backend :=
  backend.run host fun cal => cal.isLeapYear year

/-- Whether three values are integers that name a day. -/
def isValidDate (host : Host) (backend : Backend) (year month day : Value) :
    Except Error Bool × Backend :=
  backend.run host fun cal => cal.isValidDate year month day

end Backend

end HijriRecurrence
