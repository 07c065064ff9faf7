import HijriRecurrence.Calendar.Registry
import HijriRecurrence.Occurrence.Stream
import HijriRecurrence.Text.Digit

/-!
# Context of a calculation

What stays fixed while a calculation runs: the settings, the host calendar, the civil date that
counts as today, how long the numbers of a text may be, and the recurrences that values may stand
for.
-/

namespace HijriRecurrence

/-- What stays fixed while a calculation runs. -/
structure Context where
  config : Config := {}
  host : Host
  today : CivilDate
  /-- How many digits the numbers of a text may have. -/
  digitLimit : Option Text.DigitLimit := some .usual
  /-- The occurrences of the objects that have any, by the number of the object. -/
  occurrencesOf : Nat → Option (Occurrences Value) := fun _ => none
  /-- The rule text of the objects that have occurrences. -/
  textOf : Nat → Option (Except Error String) := fun _ => none

namespace Context

def defaultVariant (ctx : Context) : Variant := ctx.config.defaultCalendar

/-- The variant that serves a variant. -/
def resolve (ctx : Context) (variant : Variant) : Variant :=
  Registry.resolve ctx.config ctx.host variant

/-- The calendar that serves a variant.  Fetching the observed one is an inquiry. -/
def serve (ctx : Context) (variant : Variant) : Calculation Calendar :=
  match ctx.resolve variant with
  | .tabular => pure Tabular.calendar
  | .ummAlQura => .ask .calendar fun _ => pure (Observed.calendar ctx.host)

/-- The variant of a name; where none is given, the default. -/
def variantOf (ctx : Context) (name : Option CalendarName) : Except Error Variant :=
  match name with
  | some name => if name.isGiven then name.variant else .ok ctx.defaultVariant
  | none => .ok ctx.defaultVariant

/-- The items that a value of a list-valued option stands for.  A recurrence stands for all its
occurrences, which are worked out first. -/
def items (ctx : Context) (value : Value) : Calculation (List Value) :=
  match value with
  | .object number _ _ _ =>
    match ctx.occurrencesOf number with
    | some walk => walk.toList
    | none => pure [value]
  | _ => pure value.items

/-- The items that a value goes through.  A recurrence goes through its occurrences; what has no
items is refused. -/
def listed (ctx : Context) (value : Value) : Calculation (List Value) :=
  match value with
  | .object number _ _ _ =>
    match ctx.occurrencesOf number with
    | some walk => walk.toList
    | none => throw Error.notDates
  | _ =>
    match value.parts? with
    | some items => pure items
    | none => throw Error.notDates

@[simp] theorem serve_tabular (ctx : Context) : ctx.serve .tabular = pure Tabular.calendar := rfl

end Context

end HijriRecurrence
