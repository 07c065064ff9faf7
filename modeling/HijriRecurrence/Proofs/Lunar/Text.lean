import HijriRecurrence.Lunar.Date
import HijriRecurrence.Proofs.Text.Decimal

/-!
# The text of a day as its key

Look-ups know a date by the text of its day.  No two days share a text, whatever their numbers
(`LunarDay.text_injective`), so that the text is as good a key as the day itself.
-/

namespace HijriRecurrence

open Text

/-- **No two days have one text.** -/
theorem LunarDay.text_injective : Function.Injective LunarDay.text := by
  intro a b h
  have hchars := String.ofList_injective h
  rw [List.append_assoc, List.append_assoc] at hchars
  obtain ⟨hyear, hrest⟩ := padded_dash_inj hchars
  obtain ⟨hmonth, hday⟩ := padded_dash_inj hrest
  exact ext_fields hyear hmonth (padded_injective 2 hday)

end HijriRecurrence
