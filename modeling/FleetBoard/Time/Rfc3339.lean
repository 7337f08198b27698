import FleetBoard.Time.Layout

/-!
# Reading RFC 3339

The reader for times that people type: date and time may be separated by a `T` in either case or a
space, a fraction may have any number of digits, and the sign of an offset may be the minus sign
proper.
-/

namespace FleetBoard.Time.Rfc3339

def isSeparator (c : Char) : Bool := c = 'T' || c = 't' || c = ' '

/-- Nothing, or a point and one or more digits, of which nine are kept. -/
def readFraction (f : Fields) : List Char → Option (Fields × List Char)
  | '.' :: s =>
    let digits := s.takeWhile Char.isDigit
    if digits.isEmpty then none
    else some ({ f with nanos := nanosOfDigits (digits.take 9) }, s.dropWhile Char.isDigit)
  | s => some (f, s)

def readZone (f : Fields) : List Char → Option (Fields × List Char)
  | 'Z' :: s => some (f, s)
  | 'z' :: s => some (f, s)
  | '−' :: s => readOffset true f ('-' :: s)
  | s => readOffset true f s

def read (s : List Char) : Option Fields := do
  let (f, s) ← Layout.readFrom {} s (Layout.ymd '-')
  let s ← match s with
    | c :: s => if isSeparator c then some s else none
    | [] => none
  let (f, s) ← Layout.readFrom f s [.hour, .lit ':', .minute, .lit ':', .second]
  let (f, s) ← readFraction f s
  let (f, s) ← readZone f s
  if s.isEmpty then some f else none

def instant? (s : List Char) : Option Instant :=
  match read s with
  | some f => f.instant?
  | none => none

end FleetBoard.Time.Rfc3339
