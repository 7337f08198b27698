import FleetBoard.Decimal.Reading
import FleetBoard.Log.Entry

/-!
# Options for reading logs

What part of a log is wanted, as given by pairs of names and values.
-/

namespace FleetBoard

/-- What to read of a log. -/
structure LogOptions where
  /-- Stay for new output? -/
  follow : Bool := false
  /-- Ask the engine to put its own timestamps before the lines? -/
  timestamps : Bool := true
  /-- Where to begin, as a bound in time. -/
  notBefore : Option String := none
  /-- Where to end, as a bound in time. -/
  notAfter : Option String := none
  /-- How many of the last lines to read, or `all`. -/
  tail : String := "100"
  /-- Ask for the engine's extra attributes? -/
  details : Bool := false
  showStdout : Bool := true
  showStderr : Bool := true
  deriving DecidableEq, Repr

namespace LogOptions

/-- The values that switch an option on; all others switch it off. -/
def isTrue (value : String) : Bool := ["1", "t", "T", "TRUE", "true", "True"].contains value

def set (o : LogOptions) (name value : String) : LogOptions :=
  if value.isEmpty then o
  else match name with
    | "follow" => { o with follow := isTrue value }
    | "timestamps" => { o with timestamps := isTrue value }
    | "details" => { o with details := isTrue value }
    | "stdout" => { o with showStdout := isTrue value }
    | "stderr" => { o with showStderr := isTrue value }
    | "since" => { o with notBefore := some value }
    | "until" => { o with notAfter := some value }
    | "tail" => { o with tail := value }
    | _ => o

/-- The number of lines of a tail; none for `all` and for what is no number of 64 bits. -/
def tailLines (o : LogOptions) : Option Nat := Decimal.readUpTo? Decimal.maxWord o.tail.toList

/-- The tail is the one option whose value can be wrong. -/
def validate (o : LogOptions) : Except LogError Unit :=
  if o.tail = "all" ∨ o.tailLines.isSome then .ok ()
  else .error (.invalidOption "tail" (.notATail o.tail))

/-- The options that pairs of names and values ask for, later pairs winning over earlier ones. -/
def ofParams (params : List (String × String)) : Except LogError LogOptions :=
  let o : LogOptions := params.foldl (fun (o : LogOptions) p => o.set p.1 p.2) {}
  match o.validate with
  | .ok () => .ok o
  | .error e => .error e

/-- Is the channel selected? -/
def shows (o : LogOptions) : Channel → Bool
  | .stdout => o.showStdout
  | .stderr => o.showStderr

/-- The selected frames, and of these the last ones if the tail is a number. -/
def select (o : LogOptions) (frames : List Frame) : List Frame :=
  let shown := frames.filter fun f => o.shows f.channel
  match o.tailLines with
  | some n => shown.drop (shown.length - n)
  | none => shown

end LogOptions

end FleetBoard
