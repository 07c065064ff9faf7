import HijriRecurrence.Calendar.UmmAlQura
import HijriRecurrence.Lenient.Date
import HijriRecurrence.Lenient.Recurrence
import HijriRecurrence.Number.Decimal
import HijriRecurrence.Proofs.Calendar.CachedLengths
import HijriRecurrence.Proofs.Calendar.CivilOrder
import HijriRecurrence.Proofs.Calendar.KeptCandidates
import HijriRecurrence.Proofs.Calendar.KeptDates
import HijriRecurrence.Proofs.Calendar.MonthTable
import HijriRecurrence.Proofs.Calendar.SharedBackends
import HijriRecurrence.Proofs.Civil.DayNumber
import HijriRecurrence.Proofs.Civil.Position
import HijriRecurrence.Proofs.Lunar.Built
import HijriRecurrence.Proofs.Lunar.Order
import HijriRecurrence.Proofs.Lunar.Text
import HijriRecurrence.Proofs.Number.Rounding
import HijriRecurrence.Proofs.Number.RoundingOrder
import HijriRecurrence.Proofs.Observed.Correspondence
import HijriRecurrence.Proofs.Observed.DayShift
import HijriRecurrence.Proofs.Observed.Estimate
import HijriRecurrence.Proofs.Observed.PlainScan
import HijriRecurrence.Proofs.Observed.Search
import HijriRecurrence.Proofs.Observed.Table
import HijriRecurrence.Proofs.Observed.UmmAlQura
import HijriRecurrence.Proofs.Observed.Validity
import HijriRecurrence.Proofs.Occurrence.Exclude
import HijriRecurrence.Proofs.Occurrence.Merge
import HijriRecurrence.Proofs.Occurrence.Stream
import HijriRecurrence.Proofs.Outcome
import HijriRecurrence.Proofs.Recurrence.CivilQuery
import HijriRecurrence.Proofs.Recurrence.Limit
import HijriRecurrence.Proofs.Recurrence.OneCalendar
import HijriRecurrence.Proofs.Recurrence.Query
import HijriRecurrence.Proofs.Recurrence.SetDays
import HijriRecurrence.Proofs.Rule.CandidateOrder
import HijriRecurrence.Proofs.Rule.CandidatePlaces
import HijriRecurrence.Proofs.Rule.DayMembership
import HijriRecurrence.Proofs.Rule.DayParts
import HijriRecurrence.Proofs.Rule.Enumeration
import HijriRecurrence.Proofs.Rule.Increasing
import HijriRecurrence.Proofs.Rule.LastDate
import HijriRecurrence.Proofs.Rule.ListedMonths
import HijriRecurrence.Proofs.Rule.MonthDayFilter
import HijriRecurrence.Proofs.Rule.MonthMembership
import HijriRecurrence.Proofs.Rule.MovedDays
import HijriRecurrence.Proofs.Rule.Normalized
import HijriRecurrence.Proofs.Rule.OptionValues
import HijriRecurrence.Proofs.Rule.OrdinalWeekdays
import HijriRecurrence.Proofs.Rule.PartOrder
import HijriRecurrence.Proofs.Rule.PeriodLimit
import HijriRecurrence.Proofs.Rule.Periods
import HijriRecurrence.Proofs.Rule.Replacement
import HijriRecurrence.Proofs.Rule.SkipPolicies
import HijriRecurrence.Proofs.Rule.TablePeriods
import HijriRecurrence.Proofs.Rule.UsualDay
import HijriRecurrence.Proofs.Rule.Walk
import HijriRecurrence.Proofs.Rule.WithinTable
import HijriRecurrence.Proofs.RuleText.Failures
import HijriRecurrence.Proofs.RuleText.LineKinds
import HijriRecurrence.Proofs.RuleText.RoundTrip
import HijriRecurrence.Proofs.RuleText.SetRoundTrip
import HijriRecurrence.Proofs.RuleText.SingleRule
import HijriRecurrence.Proofs.Tabular.AlikeYears
import HijriRecurrence.Proofs.Tabular.Correspondence
import HijriRecurrence.Proofs.Tabular.Date
import HijriRecurrence.Proofs.Tabular.DayIndex
import HijriRecurrence.Proofs.Tabular.DayNumber
import HijriRecurrence.Proofs.Tabular.DayShift
import HijriRecurrence.Proofs.Tabular.IndexWeekday
import HijriRecurrence.Proofs.Tabular.MonthDays
import HijriRecurrence.Proofs.Tabular.MonthShift
import HijriRecurrence.Proofs.Tabular.PeriodDays
import HijriRecurrence.Proofs.Tabular.Position
import HijriRecurrence.Proofs.Tabular.Shift
import HijriRecurrence.Proofs.Tabular.Weekdays
import HijriRecurrence.Proofs.Tabular.Weeks
import HijriRecurrence.Proofs.Text.Decimal
import HijriRecurrence.Recurrence.Text
import HijriRecurrence.Proofs.Tabular.YearPosition
import HijriRecurrence.Proofs.RuleText.Folding
import HijriRecurrence.Proofs.Calendar.LatestUse
