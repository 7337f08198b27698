import FleetBoard.Log.Lines

/-!
# Snapshots of a log

A snapshot is the decoding of a log that has been read to its end. The first failure of the log is
the only result there is.
-/

namespace FleetBoard.Snapshot

def collectFrom (d : LineDecoder) (entries : List LogEntry) :
    List (Except ε Frame) → Except ε (List LogEntry)
  | [] => .ok (entries.reverse ++ d.finish.1)
  | .ok frame :: rest =>
    match d.push frame with
    | (new, d) => collectFrom d (new.reverse ++ entries) rest
  | .error e :: _ => .error e

def collect (items : List (Except ε Frame)) : Except ε (List LogEntry) := collectFrom {} [] items

def toJson (entries : List LogEntry) : Json :=
  .obj [("logs", .arr (entries.map LogEntry.toJson)), ("count", .int entries.length)]

end FleetBoard.Snapshot
