import HijriRecurrence.Calendar.Backend
import HijriRecurrence.Config

/-!
# The registry of calendars

Each variant is served by one shared backend, built when it is first asked for with the cache
settings of that moment, and kept until the shared backends are dropped.  A backend is known by its
number, which it keeps for good: dropping the shared backends forgets which ones are shared, and the
next request builds new ones.

The observed variant is served by the fallback of the settings when they rule the host out or when
the host does not answer.  The host is asked once, when it is first needed, and its answer is
remembered until the shared backends are dropped.
-/

namespace HijriRecurrence

/-- How a caller names a calendar variant: by a known token, or by something else. -/
inductive CalendarName where
  | known (variant : Variant)
  | unknown (given : Value)
deriving Repr

namespace CalendarName

/-- The calendar that a value names; nothing names none. -/
def ofValue? : Value → Option CalendarName
  | .null => none
  | .str s =>
    match Variant.ofToken? s with
    | some v => some (known v)
    | none => some (unknown (.str s))
  | v => some (unknown v)

def variant : CalendarName → Except Error Variant
  | known v => .ok v
  | unknown given => .error (.unknownCalendar given)

def isGiven : CalendarName → Bool
  | known _ => true
  | unknown given => given.truthy

end CalendarName

/-- The settings in effect, whether the host answers, once it has been asked, all backends built so
far, and which of them are shared. -/
structure Registry where
  config : Config := {}
  hostAnswers : Option Bool := none
  backends : List Backend := []
  sharedTabular : Option Nat := none
  sharedObserved : Option Nat := none

namespace Registry

def resolve (config : Config) (host : Host) : Variant → Variant
  | .tabular => .tabular
  | .ummAlQura =>
    if config.useHostCalendar.truthy && host.available then .ummAlQura
    else config.fallback

/-- Whether the host answers: what is remembered, or else what asking it says. -/
def askHost (r : Registry) (host : Host) : Bool × Registry :=
  match r.hostAnswers with
  | some answers => (answers, r)
  | none => (host.available, { r with hostAnswers := some host.available })

/-- The variant that serves a variant under the settings in effect.  The host is asked only for the
observed variant, and only where the settings do not rule it out. -/
def serving (r : Registry) (host : Host) : Variant → Variant × Registry
  | .tabular => (.tabular, r)
  | .ummAlQura =>
    if r.config.useHostCalendar.truthy then
      let (answers, r) := r.askHost host
      (if answers then .ummAlQura else r.config.fallback, r)
    else (r.config.fallback, r)

def shared? (r : Registry) : Variant → Option Nat
  | .tabular => r.sharedTabular
  | .ummAlQura => r.sharedObserved

def withShared (r : Registry) (variant : Variant) (number : Nat) : Registry :=
  match variant with
  | .tabular => { r with sharedTabular := some number }
  | .ummAlQura => { r with sharedObserved := some number }

def newObserved (cacheEnabled cacheSize : Value) : Backend :=
  .observed (if cacheEnabled.truthy then some { maxSize := cacheSize } else none)

/-- A new backend of a variant, with the cache settings in effect. -/
def newBackend (config : Config) : Variant → Backend
  | .tabular => .tabular
  | .ummAlQura => newObserved config.cacheEnabled config.cacheMaxSize

/-- Adds a backend, which takes the next number. -/
def add (r : Registry) (backend : Backend) : Nat × Registry :=
  (r.backends.length, { r with backends := r.backends ++ [backend] })

def backend (r : Registry) (number : Nat) : Backend := r.backends.getD number .tabular

def update (r : Registry) (number : Nat) (backend : Backend) : Registry :=
  { r with backends := r.backends.set number backend }

/-- The shared backend that serves a variant itself, built if need be. -/
def share (r : Registry) (variant : Variant) : Nat × Registry :=
  match r.shared? variant with
  | some number => (number, r)
  | none =>
    let (number, r) := r.add (newBackend r.config variant)
    (number, r.withShared variant number)

/-- The number of the shared backend that serves a variant under the settings in effect. -/
def fetch (r : Registry) (host : Host) (variant : Variant) : Nat × Registry :=
  let (serving, r) := r.serving host variant
  r.share serving

/-- The number of the shared backend of a named calendar. -/
def fetchNamed (r : Registry) (host : Host) (name : CalendarName) : Except Error Nat × Registry :=
  match name.variant with
  | .error e => (.error e, r)
  | .ok variant =>
    let (number, r) := r.fetch host variant
    (.ok number, r)

/-- Forgets which backends are shared, and what the host has answered. -/
def reset (r : Registry) : Registry :=
  { r with hostAnswers := none, sharedTabular := none, sharedObserved := none }

/-- Merges a change into the settings; one that is refused has no effect. -/
def setConfig (r : Registry) (changes : List (String × Value)) : Except Error Config × Registry :=
  match r.config.set changes with
  | .ok config => (.ok config, { r with config })
  | .error e => (.error e, r)

def resetConfig (r : Registry) : Registry := { r with config := {} }

/-- The answer of the shared observed calendar to an inquiry, and the registry afterwards. -/
def answer (host : Host) (r : Registry) : (inquiry : Inquiry) → inquiry.Answer × Registry
  | .calendar => ((), (r.share .ummAlQura).2)
  | .month year month =>
    let (number, r) := r.share .ummAlQura
    let (given, backend) := (r.backend number).answer host (.month year month)
    (given, r.update number backend)

/-- Makes a calculation with the shared calendars. -/
def run {α : Type} (host : Host) (r : Registry) (c : Calculation α) : Except Error α × Registry :=
  c.run (answer host) r

end Registry

end HijriRecurrence
