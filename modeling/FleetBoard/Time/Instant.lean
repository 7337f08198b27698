import FleetBoard.Decimal.Reading
import FleetBoard.Time.Calendar

/-!
# Instants and how they are written

An instant is a second since the start of 1970 in universal time and a fraction of it in
nanoseconds. A fraction of a billion or more lies in the leap second after that second, which is
written as second 60.
-/

namespace FleetBoard.Time

/-- A point in time. -/
structure Instant where
  /-- Whole seconds since the start of 1970, leap seconds left out. -/
  seconds : Int
  /-- Nanoseconds into the second; a billion and more are inside a leap second. -/
  nanos : Nat
  deriving DecidableEq, Repr

/-- The time of day with its leap second, and the nanoseconds into the second. -/
structure Clock where
  hour : Nat
  minute : Nat
  /-- At most 60. -/
  second : Nat
  nanos : Nat
  deriving DecidableEq, Repr

/-- The times of day that exist; second 60 exists at any minute. -/
def Clock.Valid (c : Clock) : Prop :=
  c.hour < 24 ∧ c.minute < 60 ∧ c.second ≤ 60 ∧ c.nanos < 1_000_000_000

instance (c : Clock) : Decidable c.Valid := by
  unfold Clock.Valid
  infer_instance

/-- The instant at which a date and a time of day are shown by a clock that is `offset` seconds
ahead of universal time. -/
def Instant.ofLocal (d : Date) (c : Clock) (offset : Int) : Instant :=
  let leap := c.second = 60
  let second : Nat := if leap then 59 else c.second
  { seconds := 86400 * d.toDay + (3600 * c.hour + 60 * c.minute + second : Nat) - offset
    nanos := if leap then c.nanos + 1_000_000_000 else c.nanos }

def Instant.date (t : Instant) : Date := Date.ofDay (t.seconds / 86400)

def Instant.clock (t : Instant) : Clock :=
  let s := (t.seconds % 86400).toNat
  let leap := 1_000_000_000 ≤ t.nanos
  { hour := s / 3600
    minute := s / 60 % 60
    second := s % 60 + if leap then 1 else 0
    nanos := t.nanos % 1_000_000_000 }

/-- Years of four digits stand alone; others have a sign. -/
def writeYear (year : Int) : List Char :=
  if 0 ≤ year ∧ year ≤ 9999 then Decimal.padded 4 year.toNat
  else (if year < 0 then '-' else '+') :: Decimal.padded 4 year.natAbs

/-- The fraction of a second with the fewest of 3, 6 or 9 digits that lose nothing. -/
def writeFraction (nanos : Nat) : List Char :=
  if nanos = 0 then []
  else if nanos % 1_000_000 = 0 then '.' :: Decimal.padded 3 (nanos / 1_000_000)
  else if nanos % 1_000 = 0 then '.' :: Decimal.padded 6 (nanos / 1_000)
  else '.' :: Decimal.padded 9 nanos

/-- Date and time of day in universal time, with a `T` between them. -/
def Instant.write (t : Instant) : List Char :=
  let d := t.date
  let c := t.clock
  writeYear d.year ++ '-' :: Decimal.padded 2 d.month ++ '-' :: Decimal.padded 2 d.day ++
    'T' :: Decimal.padded 2 c.hour ++ ':' :: Decimal.padded 2 c.minute ++
    ':' :: Decimal.padded 2 c.second ++ writeFraction c.nanos

def Instant.rfc3339 (t : Instant) : String := String.ofList (t.write ++ ['Z'])

/-- The form of RFC 3339 with the offset of universal time in figures. -/
def Instant.rfc3339Offset (t : Instant) : String := String.ofList (t.write ++ "+00:00".toList)

/-- The instant a number of seconds after the start of 1970, if its year is one of the calendar's
range from -262143 to 262142. -/
def Instant.ofSeconds? (seconds : Int) : Option Instant :=
  let year := (Date.ofDay (seconds / 86400)).year
  if -262143 ≤ year ∧ year ≤ 262142 then some ⟨seconds, 0⟩ else none

end FleetBoard.Time
