import HijriRecurrence.Civil
import HijriRecurrence.Lunar.Day

/-!
# Host calendars

The observed calendar is known only through a host that converts civil dates one way, to lunar days.
A host may answer any dates it likes, in any order and with any gaps; where it does not answer it
gives a reason.
-/

namespace HijriRecurrence

/-- A source of observed lunar days: the lunar day of a civil date, or the reason why it is not
known. -/
abbrev Host := CivilDate → Except String LunarDay

/-- Whether a host answers at all: it has to know 1 January 2000. -/
def Host.available (host : Host) : Bool := (host ⟨2000, 1, 1⟩).isOk

end HijriRecurrence
