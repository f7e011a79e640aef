import ScriptLang.Text.Replace

/-!
# Instants and the calendar

An `Instant` is a moment, in milliseconds since the beginning of 1970 in universal time. Dates are
those of the proleptic Gregorian calendar, with a year zero.

* `Instant.date` and `Instant.clock` split an instant into the fields of a date and of a clock.
* `Instant.iso` writes all of them, years outside four digits with a sign.
* `Instant.inRange` are the instants that programs can have.
* `Calendar.render` fills a pattern: every token is replaced in turn, in the text that the tokens
  before it left. `Instant.format` does so with the fields of an instant.
-/

namespace ScriptLang

/-- A date of the calendar. -/
structure Date where
  year : Int
  /-- From one to twelve. -/
  month : Nat
  /-- From one. -/
  day : Nat
  deriving DecidableEq, Repr, Inhabited

/-- A time of day. -/
structure Clock where
  hour : Nat
  minute : Nat
  second : Nat
  milli : Nat
  deriving DecidableEq, Repr, Inhabited

/-- A moment, in milliseconds since the beginning of 1970. -/
structure Instant where
  millis : Int
  deriving DecidableEq, Repr, Inhabited

namespace Date

/-- The date so many days after the first of January 1970. Years are counted from the first of
March, so that the leap day ends them; 400 of them have 146097 days. -/
def ofDays (days : Int) : Date :=
  let shifted := days + 719468
  let era := Int.fdiv shifted 146097
  let dayOfEra := (shifted - era * 146097).toNat
  let yearOfEra := (dayOfEra - dayOfEra / 1460 + dayOfEra / 36524 - dayOfEra / 146096) / 365
  let dayOfYear := dayOfEra - (365 * yearOfEra + yearOfEra / 4 - yearOfEra / 100)
  let shiftedMonth := (5 * dayOfYear + 2) / 153
  let day := dayOfYear - (153 * shiftedMonth + 2) / 5 + 1
  let month := if shiftedMonth < 10 then shiftedMonth + 3 else shiftedMonth - 9
  let year := (yearOfEra : Int) + era * 400 + if month ≤ 2 then 1 else 0
  ⟨year, month, day⟩

end Date

/-- A number with zeros in front up to a width. -/
def padded (width n : Nat) : String :=
  let s := toString n
  String.ofList (List.replicate (width - s.length) '0') ++ s

namespace Calendar

/-- The tokens of a pattern with their texts, in the order of replacement. -/
def tokens (d : Date) (c : Clock) : List (String × String) :=
  [("YYYY", toString d.year), ("MM", padded 2 d.month), ("DD", padded 2 d.day),
    ("hh", padded 2 c.hour), ("mm", padded 2 c.minute), ("ss", padded 2 c.second)]

/-- A pattern with the tokens replaced by the fields of a date and a time of day. -/
def render (d : Date) (c : Clock) (pattern : String) : String :=
  (tokens d c).foldl (fun out token => Replace.all token.1 token.2 out) pattern

end Calendar

namespace Instant

/-- Milliseconds of a day. -/
def millisPerDay : Int := 86400000

/-- Days since the first of January 1970. -/
def days (t : Instant) : Int := Int.fdiv t.millis millisPerDay

/-- The date of an instant. -/
def date (t : Instant) : Date := Date.ofDays t.days

/-- The time of day of an instant. -/
def clock (t : Instant) : Clock :=
  let ms := (t.millis - t.days * millisPerDay).toNat
  ⟨ms / 3600000, ms / 60000 % 60, ms / 1000 % 60, ms % 1000⟩

/-- The first instant of the year -262143. -/
def earliest : Int := -8334601228800000

/-- The last instant of the year 262142. -/
def latest : Int := 8210266876799999

/-- Whether programs can have this instant. -/
def inRange (t : Instant) : Bool := earliest ≤ t.millis && t.millis ≤ latest

/-- A year of a date and time text. -/
def isoYear (year : Int) : String :=
  if 0 ≤ year && year ≤ 9999 then padded 4 year.toNat
  else (if year < 0 then "-" else "+") ++ padded 4 year.natAbs

/-- Date and time in universal time, to the millisecond. -/
def iso (t : Instant) : String :=
  let d := t.date
  let c := t.clock
  s!"{isoYear d.year}-{padded 2 d.month}-{padded 2 d.day}T" ++
    s!"{padded 2 c.hour}:{padded 2 c.minute}:{padded 2 c.second}.{padded 3 c.milli}Z"

/-- A pattern with the tokens replaced by the fields of an instant. -/
def format (t : Instant) (pattern : String) : String := Calendar.render t.date t.clock pattern

end Instant

end ScriptLang
