import AssetLift.Decimal.Padded

/-!
# Dates and moments

A date is a day of the calendar. A moment is a date with a time of day, and may tell how far its
clock is ahead of the common one.

* `Date.fault?`, `Moment.make` — which dates and moments there are.
* `Date.text`, `Moment.text` — how they are written on their own.
* `Date.shown`, `Moment.shown` — how they are shown inside other values.
* `Moment.sameInstant` — whether two moments are one.
-/

namespace AssetLift

/-- A day of the calendar. -/
structure Date where
  year : Nat
  month : Nat
  day : Nat
  deriving DecidableEq

/-- A time of day. -/
structure Clock where
  hour : Nat
  minute : Nat
  second : Nat
  /-- Millionths of a second. -/
  micro : Nat
  deriving DecidableEq

/-- A moment. -/
structure Moment where
  date : Date
  clock : Clock
  /-- How many minutes the clock is ahead of the common one. -/
  ahead : Option Int
  deriving DecidableEq

/-! ## Dates -/

namespace Date

/-- Whether a year has a day more. -/
def isLeap (year : Nat) : Bool := (year % 4 = 0 && year % 100 ≠ 0) || year % 400 = 0

/-- The number of days of a month. -/
def daysIn (year month : Nat) : Nat :=
  if month = 2 then if isLeap year then 29 else 28
  else if month = 4 || month = 6 || month = 9 || month = 11 then 30
  else 31

/-- What is wrong with a date, if anything. -/
def fault? (d : Date) : Option String :=
  if d.year = 0 then some s!"year {d.year} is out of range"
  else if d.month = 0 || 12 < d.month then some "month must be in 1..12"
  else if d.day = 0 || daysIn d.year d.month < d.day then some "day is out of range for month"
  else none

/-- The number of days before a date, from the first day of year one on. -/
def dayNumber (d : Date) : Nat :=
  let y := d.year - 1
  let before := (List.range (d.month - 1)).foldl (fun n m => n + daysIn d.year (m + 1)) 0
  365 * y + y / 4 - y / 100 + y / 400 + before + (d.day - 1)

/-- A date on its own. -/
def text (d : Date) : String := padded 4 d.year ++ "-" ++ padded 2 d.month ++ "-" ++ padded 2 d.day

/-- A date inside another value. -/
def shown (d : Date) : String := s!"datetime.date({d.year}, {d.month}, {d.day})"

end Date

/-! ## Moments -/

/-- What is wrong with a time of day, if anything. -/
def Clock.fault? (c : Clock) : Option String :=
  if 23 < c.hour then some "hour must be in 0..23"
  else if 59 < c.minute then some "minute must be in 0..59"
  else if 59 < c.second then some "second must be in 0..59"
  else none

namespace Moment

/-- The minutes of a day. -/
def dayMinutes : Int := 1440

/-- A span of minutes as whole days and the seconds left, as it is shown. -/
def spanShown (minutes : Int) : String :=
  let days := minutes.fdiv dayMinutes
  let seconds := minutes.fmod dayMinutes * 60
  let parts := (if days = 0 then [] else [s!"days={days}"]) ++
    (if seconds = 0 then [] else [s!"seconds={seconds}"])
  "datetime.timedelta(" ++ (if parts.isEmpty then "0" else ", ".intercalate parts) ++ ")"

/-- A moment, or what is wrong with it. A clock is ahead or behind by less than a day. -/
def make (date : Date) (clock : Clock) (ahead : Option Int) : Except String Moment :=
  match ahead.filter fun a => dayMinutes ≤ a.natAbs, date.fault?, clock.fault? with
  | some a, _, _ =>
    .error ("offset must be a timedelta strictly between -timedelta(hours=24) and " ++
      s!"timedelta(hours=24), not {spanShown a}.")
  | none, some fault, _ => .error fault
  | none, none, some fault => .error fault
  | none, none, none => .ok ⟨date, clock, ahead⟩

/-- How far a clock is ahead, as it is written. -/
def aheadText (minutes : Int) : String :=
  (if minutes < 0 then "-" else "+") ++ padded 2 (minutes.natAbs / 60) ++ ":" ++
    padded 2 (minutes.natAbs % 60)

/-- A moment on its own. -/
def text (m : Moment) : String :=
  let c := m.clock
  m.date.text ++ " " ++ ":".intercalate ([c.hour, c.minute, c.second].map (padded 2)) ++
    (if c.micro = 0 then "" else "." ++ padded 6 c.micro) ++
    (match m.ahead with
      | some a => aheadText a
      | none => "")

/-- How far a clock is ahead, as it is shown. -/
def aheadShown (minutes : Int) : String :=
  if minutes = 0 then "datetime.timezone.utc" else s!"datetime.timezone({spanShown minutes})"

/-- A moment inside another value. Seconds and their millionths are left out when they are zero. -/
def shown (m : Moment) : String :=
  let d := m.date
  let c := m.clock
  let fine := if c.micro ≠ 0 then [c.second, c.micro] else if c.second ≠ 0 then [c.second] else []
  let fields := ([d.year, d.month, d.day, c.hour, c.minute] ++ fine).map toString
  let zone := m.ahead.toList.map fun a => s!"tzinfo={aheadShown a}"
  "datetime.datetime(" ++ ", ".intercalate (fields ++ zone) ++ ")"

/-- The millionths of a second before a moment, by its own clock and by the common one. -/
def micros (m : Moment) : Int :=
  let c := m.clock
  let minutes : Int := (m.date.dayNumber : Int) * dayMinutes + c.hour * 60 + c.minute - m.ahead.getD 0
  (minutes * 60 + c.second) * 1000000 + c.micro

/-- Whether two moments are one. A moment that does not tell about its clock is none with one. -/
def sameInstant (a b : Moment) : Bool :=
  a.ahead.isSome == b.ahead.isSome && a.micros == b.micros

end Moment

end AssetLift
