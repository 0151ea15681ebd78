import IndexChain.Calendar
import IndexChain.Text

/-!
# Moments

A moment is what a clock shows in a zone, to the microsecond. Clocks show times of the years 1 to
9999 only, so a moment cannot always be shown in another zone: `inZone?` goes by way of UTC and asks
at both steps whether the calendar has the day.
-/

namespace IndexChain

def microsPerSecond : Nat := 1000000

def microsPerDay : Nat := 86400 * microsPerSecond

/-- A zone is its clocks' lead over UTC in microseconds, less than a day either way. -/
structure Zone where
  offset : Int
  inDay : -(microsPerDay : Int) < offset ∧ offset < microsPerDay

namespace Zone

/-- The zone without a lead. -/
def utc : Zone := ⟨0, by decide⟩

instance : Inhabited Zone := ⟨utc⟩

/-- The zone of an offset, if it is less than a day. -/
def ofMicros? (offset : Int) : Option Zone :=
  if h : -(microsPerDay : Int) < offset ∧ offset < microsPerDay then some ⟨offset, h⟩ else none

/-- The zone of an offset in seconds, if it is less than a day. -/
def ofSeconds? (offset : Int) : Option Zone := ofMicros? (offset * microsPerSecond)

/-- The offset in hours and minutes, with seconds and their fraction where they are not zero.
`mark` separates the fields. -/
def text (mark : Text) (z : Zone) : Text :=
  let size := z.offset.natAbs
  let seconds := size / microsPerSecond
  let fraction := size % microsPerSecond
  let sign : CodePoint := if z.offset < 0 then '-' else '+'
  let hoursAndMinutes :=
    sign :: Text.padded 2 (seconds / 3600) ++ mark ++ Text.padded 2 (seconds / 60 % 60)
  if size % (60 * microsPerSecond) = 0 then hoursAndMinutes
  else
    let withSeconds := hoursAndMinutes ++ mark ++ Text.padded 2 (seconds % 60)
    if fraction = 0 then withSeconds else withSeconds ++ "." ++ Text.padded 6 fraction

end Zone

/-- The number of microseconds that clocks can show. -/
def clockLimit : Nat := Calendar.dayCount * microsPerDay

/-- What a clock shows in a zone. -/
structure Moment where
  /-- The microseconds since the beginning of year 1 on the clock. -/
  clock : Nat
  zone : Zone
  clock_lt : clock < clockLimit

namespace Moment

/-- The moment of a clock's reading, if the calendar has it. -/
def ofClock? (clock : Int) (zone : Zone) : Option Moment :=
  if h : 0 ≤ clock ∧ clock < clockLimit then some ⟨clock.toNat, zone, by omega⟩ else none

/-- The microseconds from the beginning of year 1 in UTC to the moment. -/
def instant (m : Moment) : Int := m.clock - m.zone.offset

/-- The moment as a clock in another zone shows it. -/
def inZone? (m : Moment) (zone : Zone) : Option Moment := do
  let atUtc ← ofClock? m.instant .utc
  ofClock? (atUtc.clock + zone.offset) zone

/-- The moment with these fields, if the calendar has the day and the clock the time. -/
def ofFields? (date : Date) (hour minute second micros : Nat) (zone : Zone) : Option Moment :=
  if date.IsValid ∧ hour < 24 ∧ minute < 60 ∧ second < 60 ∧ micros < microsPerSecond then
    ofClock? (date.dayNumber * microsPerDay +
      ((hour * 60 + minute) * 60 + second) * microsPerSecond + micros : Nat) zone
  else none

/-- The moment so many seconds after the beginning of 1970 in UTC. -/
def ofUnixSeconds? (seconds : Int) : Option Moment :=
  let start : Int := (Date.dayNumber ⟨1970, 1, 1⟩ * 86400 : Nat)
  ofClock? ((start + seconds) * microsPerSecond) .utc

/-- The start of the calendar in UTC. -/
def earliest : Moment := ⟨0, .utc, by decide⟩

instance : Inhabited Moment := ⟨earliest⟩

/-! ## 1. Fields -/

def dayNumber (m : Moment) : Nat := m.clock / microsPerDay

def date (m : Moment) : Date := .ofDayNumber m.dayNumber

/-- The seconds since midnight. -/
def secondOfDay (m : Moment) : Nat := m.clock % microsPerDay / microsPerSecond

def hour (m : Moment) : Nat := m.secondOfDay / 3600

def minute (m : Moment) : Nat := m.secondOfDay / 60 % 60

def second (m : Moment) : Nat := m.secondOfDay % 60

/-- The microseconds since the full second. -/
def micros (m : Moment) : Nat := m.clock % microsPerSecond

/-! ## 2. Texts -/

/-- Hours, minutes and seconds with colons. -/
def timeText (m : Moment) : Text :=
  Text.join ":" [Text.padded 2 m.hour, Text.padded 2 m.minute, Text.padded 2 m.second]

/-- The moment in the notation of ISO 8601; a fraction of a second is written in six digits, and
only if there is one. -/
def isoText (m : Moment) : Text :=
  let date := m.date
  Text.join "-" [Text.padded 4 date.year, Text.padded 2 date.month, Text.padded 2 date.day] ++
    "T" ++ m.timeText ++ (if m.micros = 0 then [] else ("." : Text) ++ Text.padded 6 m.micros) ++
    m.zone.text ":"

/-- The date line of written entries, for a moment in UTC: `Mon Jan 15 10:30:00 UTC 2024`. -/
def dateText (m : Moment) : Text :=
  let date := m.date
  Text.join " " [
    (Calendar.weekdayNames[m.dayNumber % 7]?.getD "" : String),
    (Calendar.monthNames[date.month - 1]?.getD "" : String),
    Text.padded 2 date.day, m.timeText, "UTC", Text.ofNat date.year]

end Moment

end IndexChain
