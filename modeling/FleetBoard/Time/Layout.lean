import FleetBoard.Time.Instant

/-!
# Layouts of written times

A layout is a sequence of pieces, each of which reads or writes its part of a date and time. Reading
is strict: every field has its full width, digits are `0` to `9`, and nothing may follow. Whether
the date and the time of day exist is asked afterwards, by `Fields.instant?`.
-/

namespace FleetBoard.Time

/-- A part of a written time. -/
inductive Piece where
  /-- This very character. -/
  | lit (c : Char)
  /-- Four digits. -/
  | year
  /-- Two digits. -/
  | month | day | hour | minute | second
  /-- Nothing, or a point and one to nine digits. -/
  | fraction
  /-- The three-letter English name of a month, in any case. -/
  | monthName
  /-- The three-letter English name of a day of the week, in any case; it need not be the date's. -/
  | weekday
  /-- One or two spaces, and a day of one or two digits. -/
  | looseDay
  /-- An abbreviation of three to five capital letters, which says nothing of the offset. -/
  | zoneName
  /-- A sign and two digits each for hours and minutes. -/
  | offset
  /-- A sign and two digits each for hours and minutes, with a colon between them. -/
  | offsetColon
  deriving DecidableEq, Repr

/-- A sequence of pieces. -/
abbrev Layout := List Piece

/-- What has been read of a time. -/
structure Fields where
  year : Nat := 0
  month : Nat := 0
  day : Nat := 0
  hour : Nat := 0
  minute : Nat := 0
  second : Nat := 0
  nanos : Nat := 0
  /-- Is the zone behind universal time? -/
  behind : Bool := false
  offsetHour : Nat := 0
  offsetMinute : Nat := 0
  deriving DecidableEq, Repr

def takeDigits (count : Nat) (s : List Char) : Option (Nat × List Char) :=
  let digits := s.take count
  if digits.length = count ∧ digits.all Char.isDigit then
    some (Decimal.ofDigits digits, s.drop count)
  else none

def monthNames : List String :=
  ["jan", "feb", "mar", "apr", "may", "jun", "jul", "aug", "sep", "oct", "nov", "dec"]

def weekdayNames : List String := ["mon", "tue", "wed", "thu", "fri", "sat", "sun"]

/-- The place of a three-letter name in a list, whatever its case. -/
def takeName (names : List String) (s : List Char) : Option (Nat × List Char) :=
  match names.idxOf? (String.ofList ((s.take 3).map Char.toLower)) with
  | some k => some (k, s.drop 3)
  | none => none

/-- A sign, as whether it is a minus. -/
def takeSign : List Char → Option (Bool × List Char)
  | '+' :: s => some (false, s)
  | '-' :: s => some (true, s)
  | _ => none

/-- The nanoseconds that a run of at most nine digits after the point stands for. -/
def nanosOfDigits (digits : List Char) : Nat :=
  Decimal.ofDigits digits * Nat.pow 10 (9 - digits.length)

def isCapital (c : Char) : Bool := 'A' ≤ c && c ≤ 'Z'

/-- The offset of a zone; `colon` says whether one stands between its fields. -/
def readOffset (colon : Bool) (f : Fields) (s : List Char) : Option (Fields × List Char) := do
  let (behind, s) ← takeSign s
  let (hours, s) ← takeDigits 2 s
  let s ← match colon, s with
    | false, s => some s
    | true, ':' :: s => some s
    | true, _ => none
  let (minutes, s) ← takeDigits 2 s
  return ({ f with behind := behind, offsetHour := hours, offsetMinute := minutes }, s)

def Piece.read (f : Fields) (s : List Char) : Piece → Option (Fields × List Char)
  | .lit c => match s with
    | d :: s => if d = c then some (f, s) else none
    | [] => none
  | .year => (takeDigits 4 s).map fun (n, s) => ({ f with year := n }, s)
  | .month => (takeDigits 2 s).map fun (n, s) => ({ f with month := n }, s)
  | .day => (takeDigits 2 s).map fun (n, s) => ({ f with day := n }, s)
  | .hour => (takeDigits 2 s).map fun (n, s) => ({ f with hour := n }, s)
  | .minute => (takeDigits 2 s).map fun (n, s) => ({ f with minute := n }, s)
  | .second => (takeDigits 2 s).map fun (n, s) => ({ f with second := n }, s)
  | .fraction => match s with
    | '.' :: s =>
      let digits := s.takeWhile Char.isDigit
      if 1 ≤ digits.length ∧ digits.length ≤ 9 then
        some ({ f with nanos := nanosOfDigits digits }, s.dropWhile Char.isDigit)
      else none
    | s => some (f, s)
  | .monthName => (takeName monthNames s).map fun (k, s) => ({ f with month := k + 1 }, s)
  | .weekday => (takeName weekdayNames s).map fun (_, s) => (f, s)
  | .looseDay => match s with
    | ' ' :: s =>
      let s := match s with
        | ' ' :: s => s
        | s => s
      let digits := s.takeWhile Char.isDigit
      if 1 ≤ digits.length ∧ digits.length ≤ 2 then
        some ({ f with day := Decimal.ofDigits digits }, s.dropWhile Char.isDigit)
      else none
    | _ => none
  | .zoneName =>
    let letters := s.takeWhile isCapital
    if 3 ≤ letters.length ∧ letters.length ≤ 5 then some (f, s.dropWhile isCapital) else none
  | .offset => readOffset false f s
  | .offsetColon => readOffset true f s

def Layout.readFrom (f : Fields) (s : List Char) : Layout → Option (Fields × List Char)
  | [] => some (f, s)
  | piece :: layout =>
    match piece.read f s with
    | some (f, s) => Layout.readFrom f s layout
    | none => none

def Layout.read (layout : Layout) (s : List Char) : Option Fields :=
  match layout.readFrom {} s with
  | some (f, []) => some f
  | _ => none

namespace Fields

def date (f : Fields) : Date := ⟨f.year, f.month, f.day⟩

def clock (f : Fields) : Clock := ⟨f.hour, f.minute, f.second, f.nanos⟩

/-- Seconds ahead of universal time. -/
def offset (f : Fields) : Int :=
  let seconds : Int := (3600 * f.offsetHour + 60 * f.offsetMinute : Nat)
  if f.behind then -seconds else seconds

def Valid (f : Fields) : Prop :=
  f.date.Valid ∧ f.clock.Valid ∧ f.offsetHour < 24 ∧ f.offsetMinute < 60

instance (f : Fields) : Decidable f.Valid := by
  unfold Valid
  infer_instance

def instant? (f : Fields) : Option Instant :=
  if f.Valid then some (Instant.ofLocal f.date f.clock f.offset) else none

end Fields

def Layout.instant? (layout : Layout) (s : List Char) : Option Instant :=
  match layout.read s with
  | some f => f.instant?
  | none => none

namespace Layout

/-- Year, month and day in figures with the given character between them. -/
def ymd (c : Char) : Layout := [.year, .lit c, .month, .lit c, .day]

/-- Hour, minute, second and perhaps a fraction. -/
def hms : Layout := [.hour, .lit ':', .minute, .lit ':', .second, .fraction]

/-- Date and time with a `T` between them. -/
def dateT : Layout := ymd '-' ++ .lit 'T' :: hms

/-- The layouts of timestamps in log lines. No text has two of them. -/
def ofLogs : List Layout :=
  [dateT ++ [.lit 'Z'],
   dateT ++ [.offsetColon],
   dateT ++ [.offset],
   dateT,
   ymd '-' ++ .lit ' ' :: hms,
   ymd '/' ++ .lit ' ' :: hms,
   [.day, .lit '/', .monthName, .lit '/', .year, .lit ':'] ++ hms ++ [.lit ' ', .offset],
   [.weekday, .lit ' ', .monthName, .looseDay, .lit ' '] ++ hms ++ [.lit ' ', .year],
   [.weekday, .lit ' ', .monthName, .looseDay, .lit ' '] ++ hms ++
     [.lit ' ', .zoneName, .lit ' ', .year],
   [.weekday, .lit ' ', .monthName, .lit ' ', .day, .lit ' '] ++ hms ++
     [.lit ' ', .offset, .lit ' ', .year]]

end Layout

end FleetBoard.Time
