import FleetBoard.Text.Blank
import FleetBoard.Time.Layout

/-!
# Timestamps in log lines

A line may begin with a timestamp in one of the layouts of `Layout.ofLogs`, with brackets around it.
The longest beginning of the line that is a timestamp counts, so that no part of the time is left
behind in the message.
-/

namespace FleetBoard.Stamp

open Time

/-- The brackets that may stand around a timestamp. -/
def isBracket (c : Char) : Bool := "[]()\x7b\x7d<>".toList.contains c

/-- What is dropped between a timestamp and the message. -/
def isLead (c : Char) : Bool := ")]\x7d> \t".toList.contains c

/-- Writes the fraction of a second after a point where it stands after a comma: the first comma
becomes a point if only digits follow it. -/
def normalizeComma (s : List Char) : List Char :=
  match Text.splitFirst (· == ',') s with
  | some (before, after) =>
    if !after.isEmpty && after.all Char.isDigit then before ++ '.' :: after else s
  | none => s

/-- The time itself, without blanks and brackets around it. -/
def core (candidate : List Char) : List Char :=
  normalizeComma (Text.trimBy isBracket (Text.trim candidate))

/-- The instant of the first layout that the text has. -/
def readLayouts (layouts : List Layout) (s : List Char) : Option Instant :=
  layouts.findSome? fun layout => layout.instant? s

def parse (candidate : List Char) : Option Instant := readLayouts Layout.ofLogs (core candidate)

/-- The longest beginning of a line, in bytes, that is tried as a timestamp. -/
def window : Nat := 96

/-- The longest beginning of a text that has at most `room` bytes. -/
def takeBytes (room : Nat) : List Char → List Char
  | [] => []
  | c :: s => if c.utf8Size ≤ room then c :: takeBytes (room - c.utf8Size) s else []

/-- The longest beginning, of at most `count` characters and at least one, that is a timestamp. -/
def longest (line : List Char) : (count : Nat) → Option (Instant × Nat)
  | 0 => none
  | count + 1 =>
    match parse (line.take (count + 1)) with
    | some t => some (t, count + 1)
    | none => longest line count

/-- Every layout begins with a digit or a letter, so a line with neither at its start, leading
brackets aside, has no timestamp. -/
def mayBegin (line : List Char) : Bool :=
  match line.dropWhile isBracket with
  | c :: _ => c.isAlphanum
  | [] => false

/-- The timestamp at the start of a line, if there is one, and the rest of the line. -/
def extract (text : List Char) : Option Instant × List Char :=
  let line := Text.trim text
  if !mayBegin line then (none, line)
  else match longest line (takeBytes window line).length with
    | some (t, count) => (some t, (Text.trim (line.drop count)).dropWhile isLead)
    | none => (none, line)

end FleetBoard.Stamp
