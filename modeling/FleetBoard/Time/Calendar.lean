/-!
# The Gregorian calendar

Dates of the proleptic Gregorian calendar and their numbers in the sequence of days. Year 0 is the
year before year 1, and day 0 is 1 January 1970.
-/

namespace FleetBoard.Time

/-- A date; see `Date.Valid`. -/
structure Date where
  year : Int
  month : Nat
  day : Nat
  deriving DecidableEq, Repr

def isLeapYear (year : Int) : Bool :=
  year % 4 = 0 && (year % 100 ≠ 0 || year % 400 = 0)

def daysInMonth (year : Int) (month : Nat) : Nat :=
  match month with
  | 2 => if isLeapYear year then 29 else 28
  | 4 | 6 | 9 | 11 => 30
  | _ => 31

/-- The dates that exist. -/
def Date.Valid (d : Date) : Prop :=
  1 ≤ d.month ∧ d.month ≤ 12 ∧ 1 ≤ d.day ∧ d.day ≤ daysInMonth d.year d.month

instance (d : Date) : Decidable d.Valid := by
  unfold Date.Valid
  infer_instance

def daysBeforeYear (year : Int) : Int :=
  365 * year + (year + 3) / 4 - (year + 99) / 100 + (year + 399) / 400

def daysBeforeMonth (leap : Bool) (month : Nat) : Nat :=
  let late := if leap then 1 else 0
  match month with
  | 0 | 1 => 0
  | 2 => 31
  | 3 => 59 + late
  | 4 => 90 + late
  | 5 => 120 + late
  | 6 => 151 + late
  | 7 => 181 + late
  | 8 => 212 + late
  | 9 => 243 + late
  | 10 => 273 + late
  | 11 => 304 + late
  | _ => 334 + late

def daysBeforeEpoch : Int := 719528

def Date.toDay (d : Date) : Int :=
  daysBeforeYear d.year + daysBeforeMonth (isLeapYear d.year) d.month + (d.day - 1 : Int)
    - daysBeforeEpoch

/-- The month that holds a day of the year, counted from 0. -/
def monthOfDay (leap : Bool) (dayOfYear : Nat) : Nat :=
  1 + (List.range 11).countP fun k => daysBeforeMonth leap (k + 2) ≤ dayOfYear

/-- The date of a day. Four hundred years always have 146097 days; within them a year has at most
366 days, which leaves two years to choose from. -/
def Date.ofDay (n : Int) : Date :=
  let day := n + daysBeforeEpoch
  let cycle := day / 146097
  let rest := day % 146097
  let guess := rest / 366
  let inCycle := if daysBeforeYear (guess + 1) ≤ rest then guess + 1 else guess
  let year := 400 * cycle + inCycle
  let dayOfYear := (rest - daysBeforeYear inCycle).toNat
  let month := monthOfDay (isLeapYear year) dayOfYear
  ⟨year, month, dayOfYear - daysBeforeMonth (isLeapYear year) month + 1⟩

end FleetBoard.Time
