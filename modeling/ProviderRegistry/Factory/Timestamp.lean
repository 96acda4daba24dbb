import ProviderRegistry.Text.Lines

/-!
# Timestamps

A moment on a clock, and its text by a pattern of directives. A directive is a
percent sign, an optional flag for the padding and a letter; the names of
days and months are English. A letter that is no directive is kept as it
stands.
-/

namespace ProviderRegistry.Factory

/-- A moment: calendar date, time of day, and seconds east of Greenwich where the
zone is known. -/
structure Moment where
  year : Nat
  month : Nat
  day : Nat
  hour : Nat
  minute : Nat
  second : Nat
  offset : Option Int
  deriving DecidableEq, Repr

/-- A number in decimal, filled up on the left to a width. -/
def padded (fill : Char) (width n : Nat) : List Char :=
  let digits := Nat.toDigits 10 n
  List.replicate (width - digits.length) fill ++ digits

namespace Moment

/-- Whether the year has a 29th of February. -/
def isLeap (year : Nat) : Bool := (year % 4 == 0 && year % 100 != 0) || year % 400 == 0

/-- How many days of the year come before the month. -/
def daysBefore (year month : Nat) : Nat :=
  let days := [0, 31, 59, 90, 120, 151, 181, 212, 243, 273, 304, 334].getD (month - 1) 0
  if 2 < month && isLeap year then days + 1 else days

/-- The day of the year, from one. -/
def dayOfYear (m : Moment) : Nat := daysBefore m.year m.month + m.day

/-- The days from the start of year one to the start of a year. -/
def daysBeforeYear (year : Nat) : Nat :=
  let y := year - 1
  y * 365 + y / 4 - y / 100 + y / 400

/-- The days from the start of year one, from one. -/
def ordinal (m : Moment) : Nat := daysBeforeYear m.year + m.dayOfYear

/-- The day of the week, from Sunday. -/
def weekday (m : Moment) : Nat := m.ordinal % 7

/-- The day of the week, from Monday. -/
def weekdayFromMonday (m : Moment) : Nat := (m.ordinal + 6) % 7

/-- The number of weeks in a year whose weeks belong to the year of their
Thursday. -/
def weeksInYear (year : Nat) : Nat :=
  let lastDay (y : Nat) := (y + y / 4 - y / 100 + y / 400) % 7
  if lastDay year == 4 || lastDay (year - 1) == 3 then 53 else 52

/-- The year and the number of the week, where a week belongs to the year of its
Thursday. -/
def isoWeek (m : Moment) : Nat × Nat :=
  let week := (m.dayOfYear + 9 - m.weekdayFromMonday) / 7
  if week < 1 then (m.year - 1, weeksInYear (m.year - 1))
  else if weeksInYear m.year < week then (m.year + 1, 1)
  else (m.year, week)

/-- The hour on a clock of twelve. -/
def hourOfTwelve (m : Moment) : Nat := if m.hour % 12 == 0 then 12 else m.hour % 12

/-- The English names of the days, from Sunday. -/
def dayNames : List String :=
  ["Sunday", "Monday", "Tuesday", "Wednesday", "Thursday", "Friday", "Saturday"]

/-- The English names of the months. -/
def monthNames : List String :=
  ["January", "February", "March", "April", "May", "June", "July", "August", "September",
    "October", "November", "December"]

/-- The sign of an offset and its hours, minutes and seconds. -/
def offsetParts (offset : Int) : Char × Nat × Nat × Nat :=
  let n := offset.natAbs
  (if offset < 0 then '-' else '+', n / 3600, n / 60 % 60, n % 60)

/-- The offset without separators; the seconds only where there are any. -/
def offsetText (m : Moment) : List Char :=
  match m.offset with
  | none => []
  | some offset =>
    let (sign, h, min, s) := offsetParts offset
    sign :: padded '0' 2 h ++ padded '0' 2 min ++ (if s == 0 then [] else padded '0' 2 s)

/-- The name of the zone that an offset stands for. -/
def zoneText (m : Moment) : List Char :=
  match m.offset with
  | none => []
  | some 0 => "UTC".toList
  | some offset =>
    let (sign, h, min, s) := offsetParts offset
    "UTC".toList ++ sign :: padded '0' 2 h ++ ':' :: padded '0' 2 min ++
      (if s == 0 then [] else ':' :: padded '0' 2 s)

/-- A number under a flag: without padding, padded with blanks, or as usual. -/
def flagged (flag : Option Char) (fill : Char) (width n : Nat) : List Char :=
  match flag with
  | some '-' => padded '0' 0 n
  | some '_' => padded ' ' width n
  | some '0' => padded '0' width n
  | _ => padded fill width n

/-- A name under a flag: in capitals or as it is. -/
def flaggedName (flag : Option Char) (name : List Char) : List Char :=
  if flag == some '^' then name.map Char.toUpper else name

/-- The text of a directive, if the letter is one. -/
def directive? (m : Moment) (flag : Option Char) (letter : Char) : Option (List Char) :=
  let number := fun width n => some (flagged flag '0' width n)
  let spaced := fun width n => some (flagged flag ' ' width n)
  let name := fun (text : List Char) => some (flaggedName flag text)
  let two := padded '0' 2
  let day := (dayNames.getD m.weekday "").toList
  let month := (monthNames.getD (m.month - 1) "").toList
  let clock := two m.hour ++ ':' :: two m.minute ++ ':' :: two m.second
  let half := if m.hour < 12 then "AM".toList else "PM".toList
  let date := two m.month ++ '/' :: two m.day ++ '/' :: two (m.year % 100)
  match letter with
  | 'Y' => number 0 m.year
  | 'C' => number 2 (m.year / 100)
  | 'y' => number 2 (m.year % 100)
  | 'm' => number 2 m.month
  | 'd' => number 2 m.day
  | 'e' => spaced 2 m.day
  | 'H' => number 2 m.hour
  | 'k' => spaced 2 m.hour
  | 'I' => number 2 m.hourOfTwelve
  | 'l' => spaced 2 m.hourOfTwelve
  | 'M' => number 2 m.minute
  | 'S' => number 2 m.second
  | 'j' => number 3 m.dayOfYear
  | 'f' => some "000000".toList
  | 'w' => number 1 m.weekday
  | 'u' => number 1 (m.weekdayFromMonday + 1)
  | 'U' => number 2 ((m.dayOfYear + 6 - m.weekday) / 7)
  | 'W' => number 2 ((m.dayOfYear + 6 - m.weekdayFromMonday) / 7)
  | 'V' => number 2 m.isoWeek.2
  | 'G' => number 0 m.isoWeek.1
  | 'g' => number 2 (m.isoWeek.1 % 100)
  | 'a' => name (day.take 3)
  | 'A' => name day
  | 'b' => name (month.take 3)
  | 'h' => name (month.take 3)
  | 'B' => name month
  | 'p' => name half
  | 'P' => some (half.map Char.toLower)
  | 'z' => some m.offsetText
  | 'Z' => some m.zoneText
  | 'D' => some date
  | 'x' => some date
  | 'F' => some (padded '0' 0 m.year ++ '-' :: two m.month ++ '-' :: two m.day)
  | 'T' => some clock
  | 'X' => some clock
  | 'R' => some (two m.hour ++ ':' :: two m.minute)
  | 'r' => some (two m.hourOfTwelve ++ ':' :: two m.minute ++ ':' :: two m.second ++ ' ' :: half)
  | 'c' => some (day.take 3 ++ ' ' :: month.take 3 ++ ' ' :: padded ' ' 2 m.day ++ ' ' :: clock ++
      ' ' :: padded '0' 0 m.year)
  | 'n' => some ['\n']
  | 't' => some ['\t']
  | '%' => some ['%']
  | _ => none

/-- Whether a character is a flag of a directive. -/
def isFlag (c : Char) : Bool := c == '-' || c == '_' || c == '0' || c == '^'

/-- The text of a moment by a pattern. -/
def formatChars (m : Moment) : List Char → List Char
  | [] => []
  | '%' :: c :: d :: rest =>
    if isFlag c then
      match m.directive? (some c) d with
      | some text => text ++ formatChars m rest
      | none => '%' :: c :: formatChars m (d :: rest)
    else match m.directive? none c with
      | some text => text ++ formatChars m (d :: rest)
      | none => '%' :: c :: formatChars m (d :: rest)
  | ['%', c] => (m.directive? none c).getD ['%', c]
  | c :: rest => c :: formatChars m rest

/-- The text of a moment by a pattern. -/
def format (m : Moment) (pattern : String) : String :=
  String.ofList (m.formatChars pattern.toList)

end Moment

end ProviderRegistry.Factory
