/-
# Instants and dates

The time in a name of `create_unique_file` (`SPEC_FULL.md`, 4.1) and the date in a listing of
`InMemoryScheduler` (E9).

An instant is a whole number of nanoseconds since the start of 1970, in universal time.
`Date.ofDay` counts the days of an instant off in eras of 400 years that start in March,
where every era has the same number of days and a leap day comes last in its year.

Three forms of an instant are written: the date of a listing line, the stamp in a
generated name, and the full form with a fraction of a second in groups of three
digits.
-/

namespace JobSpool

/-- Nanoseconds since the start of 1970. -/
abbrev Instant := Int

/-- Nanoseconds in a second. -/
def perSecond : Nat := 1000000000

/-- The instant a number of seconds after the start of 1970, and some nanoseconds. -/
def Instant.ofSeconds (seconds : Int) (nanoseconds : Nat) : Instant :=
  seconds * perSecond + nanoseconds

/-- A day of the calendar. -/
structure Date where
  year : Int
  /-- From 1 to 12. -/
  month : Nat
  /-- From 1 to 31. -/
  day : Nat
  deriving DecidableEq, Repr

namespace Date

/-- Days in an era of 400 years. -/
def daysPerEra : Nat := 146097

/-- The date of a day, counted from the first day of 1970. -/
def ofDay (n : Int) : Date :=
  let shifted := n + 719468
  let era := shifted.fdiv daysPerEra
  let dayOfEra := (shifted.fmod daysPerEra).toNat
  let yearOfEra := (dayOfEra - dayOfEra / 1460 + dayOfEra / 36524 - dayOfEra / 146096) / 365
  let dayOfYear := dayOfEra - (365 * yearOfEra + yearOfEra / 4 - yearOfEra / 100)
  let fromMarch := (5 * dayOfYear + 2) / 153
  let month := if fromMarch < 10 then fromMarch + 3 else fromMarch - 9
  { year := era * 400 + yearOfEra + (if month ≤ 2 then 1 else 0)
    month := month
    day := dayOfYear - (153 * fromMarch + 2) / 5 + 1 }

/-- The names of the months. -/
def monthNames : List String :=
  ["Jan", "Feb", "Mar", "Apr", "May", "Jun", "Jul", "Aug", "Sep", "Oct", "Nov", "Dec"]

/-- The names of the days of the week, from the day on which 1970 began. -/
def dayNames : List String :=
  ["Thu", "Fri", "Sat", "Sun", "Mon", "Tue", "Wed"]

end Date

/-- A number in decimal, filled up to a width. -/
def filled (fill : Char) (width : Nat) (n : Nat) : String :=
  let digits := Nat.toDigits 10 n
  String.ofList (List.replicate (width - digits.length) fill ++ digits)

namespace Instant

/-- Whole seconds since the start of 1970. -/
def seconds (t : Instant) : Int :=
  Int.fdiv t perSecond

/-- The nanoseconds of the current second. -/
def nanoseconds (t : Instant) : Nat :=
  (Int.fmod t perSecond).toNat

/-- The day, counted from the first day of 1970. -/
def day (t : Instant) : Int :=
  (seconds t).fdiv 86400

/-- The date of an instant. -/
def date (t : Instant) : Date :=
  .ofDay (day t)

/-- Hour, minute and second, each of two digits, with a text between them. -/
def clock (t : Instant) (between : String) : String :=
  let rest := ((seconds t).fmod 86400).toNat
  between.intercalate
    [filled '0' 2 (rest / 3600), filled '0' 2 (rest / 60 % 60), filled '0' 2 (rest % 60)]

/-- The year, of at least four digits. -/
def year (t : Instant) : String :=
  filled '0' 4 (date t).year.toNat

/-- The form of a listing line, as in `Sat Oct 17 10:00:00 2026`. -/
def listed (t : Instant) : String :=
  " ".intercalate [
    Date.dayNames.getD ((day t).fmod 7).toNat "",
    Date.monthNames.getD ((date t).month - 1) "",
    filled ' ' 2 (date t).day,
    clock t ":",
    year t]

/-- The stamp in a generated name, as in `20261017100000`. -/
def stamp (t : Instant) : String :=
  year t ++ filled '0' 2 (date t).month ++ filled '0' 2 (date t).day ++ clock t ""

/-- The fraction of a second: none, or three, six or nine digits. -/
def fraction (t : Instant) : String :=
  let n := nanoseconds t
  if n = 0 then ""
  else if n % 1000000 = 0 then "." ++ filled '0' 3 (n / 1000000)
  else if n % 1000 = 0 then "." ++ filled '0' 6 (n / 1000)
  else "." ++ filled '0' 9 n

/-- The full form, as in `2026-10-17T10:00:00.123456789Z`. -/
def full (t : Instant) : String :=
  year t ++ "-" ++ filled '0' 2 (date t).month ++ "-" ++ filled '0' 2 (date t).day ++
    "T" ++ clock t ":" ++ fraction t ++ "Z"

end Instant
end JobSpool
