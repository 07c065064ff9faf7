import HijriRecurrence.Error

/-!
# Settings

The settings say which calendar variant is used where none is named, whether the observed calendar
may be used at all, and how its month lengths are cached.

A change names some settings and gives their new values.  It is checked as a whole, so that settings
in effect always pass `Config.check`; a change that is refused has no effect.
-/

namespace HijriRecurrence

/-- The settings in effect.  Switches keep the value they were given and count by its truth. -/
structure Config where
  defaultCalendar : Variant := .ummAlQura
  useHostCalendar : Value := .bool true
  fallbackCalendar : Variant := .tabular
  cacheEnabled : Value := .bool true
  cacheMaxSize : Value := .int 1000
deriving Repr

namespace Config

/-- The variant in place of the observed one, which cannot take its own place. -/
def fallback (config : Config) : Variant :=
  if config.fallbackCalendar = .ummAlQura then .tabular else config.fallbackCalendar

def variant? : Value → Option Variant
  | .str s => Variant.ofToken? s
  | _ => none

/-- Checks the values of all settings, in the order in which faults are reported. -/
def check (defaultCalendar useHostCalendar fallbackCalendar cacheEnabled cacheMaxSize : Value) :
    Except Error Config :=
  match variant? defaultCalendar, variant? fallbackCalendar, cacheMaxSize.countable? with
  | none, _, _ => .error (.calendarSetting "default_calendar" defaultCalendar)
  | _, none, _ => .error (.calendarSetting "fallback_calendar" fallbackCalendar)
  | _, _, none => .error (.cacheSize cacheMaxSize)
  | some main, some fallback, some size =>
    if size < 1 then .error (.cacheSize cacheMaxSize)
    else .ok ⟨main, useHostCalendar, fallback, cacheEnabled, cacheMaxSize⟩

def names : List String :=
  ["cache_enabled", "cache_max_size", "default_calendar", "fallback_calendar",
   "use_host_calendar"]

def entries (config : Config) : List (String × Value) :=
  [("default_calendar", .str config.defaultCalendar.token),
   ("use_host_calendar", config.useHostCalendar),
   ("fallback_calendar", .str config.fallbackCalendar.token),
   ("cache_enabled", config.cacheEnabled),
   ("cache_max_size", config.cacheMaxSize)]

def shown (config : Config) : String :=
  "CalendarConfig(" ++
    ", ".intercalate (config.entries.map fun entry => entry.1 ++ "=" ++ entry.2.shown) ++ ")"

def sameAs (a b : Config) : Bool :=
  (a.entries.zip b.entries).all fun (x, y) => x.2.same y.2

/-- The value that a change gives to a setting, or else the one it has. -/
def changed (changes : List (String × Value)) (name : String) (value : Value) : Value :=
  (changes.lookup name).getD value

def apply (config : Config) (changes : List (String × Value)) : Except Error Config :=
  check (changed changes "default_calendar" (.str config.defaultCalendar.token))
    (changed changes "use_host_calendar" config.useHostCalendar)
    (changed changes "fallback_calendar" (.str config.fallbackCalendar.token))
    (changed changes "cache_enabled" config.cacheEnabled)
    (changed changes "cache_max_size" config.cacheMaxSize)

/-- The names in a change that name no setting, in alphabetical order. -/
def unknownNames (changes : List (String × Value)) : List String :=
  ((changes.map (·.1)).filter fun name => !names.contains name).mergeSort fun a b => decide (a ≤ b)

def set (config : Config) (changes : List (String × Value)) : Except Error Config :=
  match unknownNames changes with
  | [] => config.apply changes
  | unknown => .error (.unknownSettings unknown)

/-- Settings of their own, the standard ones except for what is given. -/
def ofFields (fields : List (String × Value)) : Except Error Config :=
  match (fields.map (·.1)).filter fun name => !names.contains name with
  | [] => ({} : Config).apply fields
  | name :: _ => .error (.unknownArgument name)

end Config

end HijriRecurrence
