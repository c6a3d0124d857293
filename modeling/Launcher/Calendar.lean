/-
This file writes moments, counted in seconds from the start of 1970, as dates and times of day.
-/

import Launcher.Bytes

namespace Launcher

/-- A date of the Gregorian calendar has a year, a month and a day, both counted from one. -/
structure Date where
  year : Int
  month : Int
  day : Int
  deriving DecidableEq

namespace Date

/-- The years run from March here, so a leap day is the last day of its year.
An era is 400 such years and has 146097 days. -/
def ofDay (day : Int) : Date :=
  let shifted := day + 719468
  let era := shifted / 146097
  let dayOfEra := shifted % 146097
  let yearOfEra :=
    (dayOfEra - dayOfEra / 1460 + dayOfEra / 36524 - dayOfEra / 146096) / 365
  let dayOfYear := dayOfEra - (365 * yearOfEra + yearOfEra / 4 - yearOfEra / 100)
  let fromMarch := (5 * dayOfYear + 2) / 153
  let month := if fromMarch < 10 then fromMarch + 3 else fromMarch - 9
  ⟨yearOfEra + era * 400 + (if month ≤ 2 then 1 else 0), month,
    dayOfYear - (153 * fromMarch + 2) / 5 + 1⟩

end Date

namespace Calendar

def twoDigits (number : Int) : Bytes := Bytes.padLeft 2 48 (Bytes.ofInt number)

/-- A stamp is the date and the time of day, with a blank between them. -/
def stamp (moment : Int) : Bytes :=
  let date := Date.ofDay (moment / 86400)
  let second := moment % 86400
  Bytes.ofInt date.year ++ "-" ++ twoDigits date.month ++ "-" ++ twoDigits date.day ++ " " ++
    twoDigits (second / 3600) ++ ":" ++ twoDigits (second / 60 % 60) ++ ":" ++
    twoDigits (second % 60)

end Calendar

end Launcher
