/-!
# Reading decimal numbers

Whole numbers within bounds, and decimal fractions to the nearest double. Digits are `0` to `9`
only.
-/

namespace FleetBoard.Decimal

def ofDigits (s : List Char) : Nat :=
  s.foldl (fun n c => 10 * n + (c.toNat - '0'.toNat)) 0

def readNat? (s : List Char) : Option Nat :=
  if s.isEmpty || !s.all Char.isDigit then none else some (ofDigits s)

/-- Takes one leading plus sign off. -/
def dropPlus : List Char → List Char
  | '+' :: s => s
  | s => s

/-- A whole number up to `limit`; one leading plus sign is allowed. -/
def readUpTo? (limit : Nat) (s : List Char) : Option Nat :=
  match readNat? (dropPlus s) with
  | some n => if n ≤ limit then some n else none
  | none => none

def maxWord : Nat := UInt64.size - 1

def maxSigned : Int := 9_223_372_036_854_775_807

def minSigned : Int := -9_223_372_036_854_775_808

/-- A whole number of 64 bits with sign; one leading sign is allowed. -/
def readSigned? (s : List Char) : Option Int :=
  let n : Option Int := match s with
    | '-' :: digits => (readNat? digits).map fun n => -(n : Int)
    | _ => (readNat? (dropPlus s)).map fun n => (n : Int)
  match n with
  | some n => if minSigned ≤ n ∧ n ≤ maxSigned then some n else none
  | none => none

/-- The number that some digits write, times `10 ^ exponent`, as the nearest double. With `k` digits
left after leading zeros it lies below `10 ^ (k + exponent)` and not below a tenth of that, so where
this is beyond the reach of any double the answer is there at once, and a long exponent costs
nothing. -/
def toFloat (digits : List Char) (exponent : Int) : Float :=
  let significant := digits.dropWhile (· == '0')
  let magnitude := exponent + significant.length
  if significant.isEmpty then 0
  else if magnitude > 400 then 1.0 / 0.0
  else if magnitude < -400 then 0
  else match exponent with
    | .ofNat e => Float.ofScientific (ofDigits significant) false e
    | .negSucc e => Float.ofScientific (ofDigits significant) true (e + 1)

/-- The parts of a decimal number without its sign: whole digits, digits after the point, and the
exponent. There is a digit before or after the point, and the exponent has digits. -/
def splitDecimal? (s : List Char) : Option (List Char × List Char × Int) :=
  let whole := s.takeWhile Char.isDigit
  let rest := s.dropWhile Char.isDigit
  let (fraction, rest) := match rest with
    | '.' :: rest => (rest.takeWhile Char.isDigit, rest.dropWhile Char.isDigit)
    | rest => ([], rest)
  if whole.isEmpty && fraction.isEmpty then none
  else match rest with
    | [] => some (whole, fraction, 0)
    | e :: rest =>
      if e = 'e' ∨ e = 'E' then
        match rest with
        | '-' :: digits => (readNat? digits).map fun n => (whole, fraction, -(n : Int))
        | _ => (readNat? (dropPlus rest)).map fun n => (whole, fraction, (n : Int))
      else none

/-- A decimal number without sign as the nearest double. -/
def readUnsignedFloat? (s : List Char) : Option Float :=
  match splitDecimal? s with
  | some (whole, fraction, exponent) =>
    some (toFloat (whole ++ fraction) (exponent - fraction.length))
  | none => none

/-- A number as the nearest double: an optional sign, then a decimal number or, in any case, the
words for infinity and for what is no number. -/
def readFloat? (s : List Char) : Option Float :=
  let (negative, body) := match s with
    | '-' :: body => (true, body)
    | _ => (false, dropPlus s)
  let word := String.ofList (body.map Char.toLower)
  let value : Option Float :=
    if word = "inf" ∨ word = "infinity" then some (1.0 / 0.0)
    else if word = "nan" then some (0.0 / 0.0)
    else readUnsignedFloat? body
  value.map fun x => if negative then -x else x

/-- The digits of a number, padded with zeros on the left to a least width. -/
def padded (width n : Nat) : List Char :=
  let digits := Nat.toDigits 10 n
  List.replicate (width - digits.length) '0' ++ digits

end FleetBoard.Decimal
