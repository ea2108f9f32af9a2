/-
This file holds moments in time and their two written forms, the one for data files and the one
for readers. Dates follow the Gregorian rules for all years, also those before the rules were made,
and the clock shows universal time.
-/

import EngineDocs.Text.Digits

namespace EngineDocs

/-- A day of the Gregorian calendar. -/
structure Date where
  year : Int
  month : Nat
  day : Nat
  deriving DecidableEq

namespace Date

/-- The date that lies `days` days after the first of January 1970. Years are counted from March
on, so that the leap day is the last day of its year, and repeat after 400 years. -/
def ofDays (days : Int) : Date :=
  let shifted := days + 719468
  let era := Int.fdiv shifted 146097
  let dayOfEra := (shifted - era * 146097).toNat
  let yearOfEra :=
    (dayOfEra - dayOfEra / 1460 + dayOfEra / 36524 - dayOfEra / 146096) / 365
  let dayOfYear := dayOfEra - (365 * yearOfEra + yearOfEra / 4 - yearOfEra / 100)
  let monthFromMarch := (5 * dayOfYear + 2) / 153
  let month := if monthFromMarch < 10 then monthFromMarch + 3 else monthFromMarch - 9
  { year := yearOfEra + era * 400 + (if month ≤ 2 then 1 else 0)
    month := month
    day := dayOfYear - (153 * monthFromMarch + 2) / 5 + 1 }

/-- A year is written with four digits. One outside of 0 to 9999 has a sign, and more digits where
it needs them. -/
def yearText (year : Int) : Text :=
  let digits := Text.paddedDecimal 4 year.natAbs
  if year < 0 then '-' :: digits else if 9999 < year then '+' :: digits else digits

/-- The date as year, month and day. -/
def text (date : Date) : Text :=
  yearText date.year ++ '-' :: Text.paddedDecimal 2 date.month ++
    '-' :: Text.paddedDecimal 2 date.day

end Date

/-- A moment, counted in milliseconds since the start of 1970. -/
structure Moment where
  millis : Int
  deriving DecidableEq

namespace Moment

/-- The number of milliseconds of a day. -/
def millisPerDay : Int := 86400000

/-- The date of a moment. -/
def date (moment : Moment) : Date := Date.ofDays (Int.fdiv moment.millis millisPerDay)

/-- The number of milliseconds since midnight. -/
def millisOfDay (moment : Moment) : Nat := (Int.fmod moment.millis millisPerDay).toNat

/-- Moments are told apart by their calendar only in these years. -/
def hasDate (moment : Moment) : Bool :=
  -262143 ≤ moment.date.year && moment.date.year ≤ 262142

/-- The moment a number of milliseconds after the start of 1970, when it has a date. -/
def ofMillis? (millis : Int) : Option Moment :=
  if hasDate ⟨millis⟩ then some ⟨millis⟩ else none

/-- The time of day to the second. -/
def clockText (moment : Moment) : Text :=
  let seconds := moment.millisOfDay / 1000
  Text.paddedDecimal 2 (seconds / 3600) ++ ':' :: Text.paddedDecimal 2 (seconds / 60 % 60) ++
    ':' :: Text.paddedDecimal 2 (seconds % 60)

/-- The form in data files, such as `2024-01-31T08:15:00.000Z`. -/
def isoText (moment : Moment) : String :=
  String.ofList (moment.date.text ++ 'T' :: moment.clockText ++
    '.' :: Text.paddedDecimal 3 (moment.millisOfDay % 1000) ++ ['Z'])

/-- The form for readers, such as `2024-01-31 08:15:00`. -/
def displayText (moment : Moment) : String :=
  String.ofList (moment.date.text ++ ' ' :: moment.clockText)

end Moment

end EngineDocs
