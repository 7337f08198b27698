import FleetBoard.Json.Value
import FleetBoard.Log.Escapes
import FleetBoard.Log.Level
import FleetBoard.Log.Stamp

/-!
# Log entries

A line becomes an entry: its timestamp and level are recognised, and its message is what is left
after them, without colours. Every line becomes an entry; the line itself is kept in it.
-/

namespace FleetBoard

/-- The output of a program that a line was written to. -/
inductive Channel where
  | stdout | stderr
  deriving DecidableEq, Repr, Inhabited

namespace Channel

def name : Channel → String
  | .stdout => "stdout"
  | .stderr => "stderr"

end Channel

/-- A piece of the output of a container. It may hold part of a line or several lines. -/
structure Frame where
  channel : Channel
  data : List UInt8
  deriving DecidableEq, Repr

/-- A classified line. -/
structure LogEntry where
  timestamp : Option Time.Instant
  level : Level
  message : String
  channel : Channel
  /-- The line as it was read. -/
  raw : String
  deriving DecidableEq, Repr

namespace LogEntry

def classify (channel : Channel) (raw : String) : LogEntry :=
  let (timestamp, rest) := Stamp.extract raw.toList
  { timestamp := timestamp
    level := Level.detect rest
    message := String.ofList (Escapes.clean rest)
    channel := channel
    raw := raw }

def toJson (e : LogEntry) : Json :=
  .obj
    [("timestamp", match e.timestamp with
      | some t => .str t.rfc3339
      | none => .null),
     ("level", .str e.level.name),
     ("message", .str e.message),
     ("stream", .str e.channel.name),
     ("raw", .str e.raw)]

end LogEntry

end FleetBoard
