import FleetBoard.Decimal.Reading

/-!
# Lengths of time

A length of time is a number of nanoseconds. People write it as numbers with units, such as `1h30m`;
messages show it in the largest unit of which it holds at least one.
-/

namespace FleetBoard.Time.Span

/-- The characters of the numbers in a written length; all others belong to units. -/
def isNumberChar (c : Char) : Bool := c.isDigit || c == '.'

/-- The nanoseconds of a unit. -/
def scale? (unit : List Char) : Option Float :=
  if unit = ['n', 's'] then some 1
  else if unit = ['u', 's'] ∨ unit = ['µ', 's'] then some 1e3
  else if unit = ['m', 's'] then some 1e6
  else if unit = ['s'] then some 1e9
  else if unit = ['m'] then some 60e9
  else if unit = ['h'] then some 3600e9
  else none

/-- Adds the pairs of number and unit at the start of a text to a sum of nanoseconds. -/
def sumPairs (total : Float) (s : List Char) : Option Float :=
  if s.isEmpty then some total
  else
    let number := s.takeWhile isNumberChar
    let afterNumber := s.dropWhile isNumberChar
    let unit := afterNumber.takeWhile (fun c => !isNumberChar c)
    let rest := afterNumber.dropWhile (fun c => !isNumberChar c)
    if _h : rest.length < s.length then
      match Decimal.readUnsignedFloat? number, scale? unit with
      | some x, some scale => sumPairs (total + x * scale) rest
      | _, _ => none
    else none
termination_by s.length

/-- The whole part of a float that is not negative, at most the greatest signed number of 64
bits. -/
def wholePart (x : Float) : Nat := min x.toUInt64.toNat Decimal.maxSigned.toNat

/-- The nanoseconds of a written length: one or more pairs of number and unit, added up as doubles.
A sum beyond 2 to the 63rd is refused. -/
def parse? (s : List Char) : Option Nat :=
  if s.isEmpty then none
  else match sumPairs 0 s with
    | some total =>
      if !total.isFinite || total > 9223372036854775808.0 then none else some (wholePart total)
    | none => none

/-- A whole number with a fraction of `width` digits, without the zeros at its end. -/
def writeFixed (whole fraction width : Nat) : List Char :=
  let digits := ((Decimal.padded width fraction).reverse.dropWhile (· == '0')).reverse
  Nat.toDigits 10 whole ++ if digits.isEmpty then [] else '.' :: digits

/-- A length in seconds, milliseconds, microseconds or nanoseconds. -/
def write (nanos : Nat) : String :=
  if 1_000_000_000 ≤ nanos then
    String.ofList (writeFixed (nanos / 1_000_000_000) (nanos % 1_000_000_000) 9 ++ ['s'])
  else if 1_000_000 ≤ nanos then
    String.ofList (writeFixed (nanos / 1_000_000) (nanos % 1_000_000) 6 ++ ['m', 's'])
  else if 1_000 ≤ nanos then
    String.ofList (writeFixed (nanos / 1_000) (nanos % 1_000) 3 ++ ['µ', 's'])
  else String.ofList (Nat.toDigits 10 nanos ++ ['n', 's'])

end FleetBoard.Time.Span
