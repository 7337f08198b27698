import FleetBoard.Text.Blank
import FleetBoard.Time.Rfc3339
import FleetBoard.Time.Span

/-!
# Bounds in time

A bound for reading logs is a number of seconds since the start of 1970, a time in the form of RFC
3339, or a length of time that is counted back from now. It comes down to whole seconds.
-/

namespace FleetBoard.Time

def floorSeconds (x : Float) : Int :=
  let n := x.floor
  if n < 0 then max (-((-n).toUInt64.toNat : Int)) Decimal.minSigned
  else min (n.toUInt64.toNat : Int) Decimal.maxSigned

/-- The second at or before the instant that lies `nanos` before `now`. A leap second belongs to the
second that it follows. -/
def Instant.secondsBefore (now : Instant) (nanos : Nat) : Int :=
  min now.seconds ((now.seconds * 1_000_000_000 + now.nanos - nanos) / 1_000_000_000)

/-- A decimal number that is finite, as a double. -/
def finiteNumber? (s : List Char) : Option Float :=
  match Decimal.readFloat? s with
  | some x => if x.isFinite then some x else none
  | none => none

/-- The bound that a text without blanks around it writes. -/
def readBound (s : List Char) (now : Instant) : Option Int :=
  match Decimal.readSigned? s with
  | some n => some n
  | none =>
    match finiteNumber? s with
    | some x => some (floorSeconds x)
    | none =>
      match Rfc3339.instant? s with
      | some t => some t.seconds
      | none => (Span.parse? s).map now.secondsBefore

/-- The seconds of a bound; nothing for a text that is no bound. -/
def resolveBound (text : String) (now : Instant) : Option Int :=
  let s := Text.trim text.toList
  if s.isEmpty then none else readBound s now

end FleetBoard.Time
