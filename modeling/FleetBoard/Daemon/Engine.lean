import FleetBoard.Daemon.Frames
import FleetBoard.Daemon.Records
import FleetBoard.Daemon.Usage
import FleetBoard.Engine.Basic
import FleetBoard.Host.Config
import FleetBoard.Time.Bound

/-!
# Docker engines

An engine that gets its answers from a Docker daemon. Its answers are there at once; what takes time
is left to the daemon.
-/

namespace FleetBoard

/-- An engine on a host, with the daemon that it asks. -/
structure DockerEngine where
  /-- The name of the host. -/
  name : String
  daemon : Daemon := Daemon.absent
  /-- The time of day, from which bounds in time are counted. -/
  wallClock : Time.Instant := ⟨0, 0⟩

namespace DockerEngine

def describe (e : DockerEngine) : String :=
  "DockerEngine \x7b name: " ++ Text.quoted e.name ++ ", .. \x7d"

def usualSocket : String := "/var/run/docker.sock"

/-- A path without the schemes that may stand before it. -/
def dropScheme (path : List Char) : List Char :=
  match path with
  | 'u' :: 'n' :: 'i' :: 'x' :: ':' :: '/' :: '/' :: rest => dropScheme rest
  | _ => path

def socketOf : Endpoint → Option String
  | .here => some usualSocket
  | .unix path => some (String.ofList (dropScheme path.toList))
  | .http _ => none

/-- The engine of a host. Its daemon need not be there, but its socket must. -/
def connect (exists? : String → Bool) (host : HostConfig) : Except EngineError DockerEngine := do
  let endpoint ← Endpoint.parse host.url
  match (socketOf endpoint).filter fun path => !exists? path with
  | some path =>
    .error
      (.connectionFailed ("failed to connect to " ++ host.url ++ ": Socket not found: " ++ path))
  | none => .ok { name := host.name }

def containerPath (id what : String) : String :=
  "/containers/" ++ Text.escapeSegment id ++ "/" ++ what

def flagText (b : Bool) : String := if b then "true" else "false"

/-- A fault of the daemon as an error of the engine. That a container is missing can only be said
where one has been asked for. -/
def errorOf (id : Option String) : DaemonFault → EngineError
  | .refused 404 message =>
    match id with
    | some id => .notFound id
    | none => .api (DaemonFault.refused 404 message).message
  | fault => .api fault.message

def askList (e : DockerEngine) (all : Bool) : Talk (Except EngineError (List Container)) :=
  (e.daemon.askFor
    ⟨"/containers/json", [("all", flagText all), ("size", "false"), ("filters", "\x7b\x7d")]⟩
    (.list Daemon.summaryShape) Daemon.containersOf).map fun r => r.mapError (errorOf none)

def askDetails (e : DockerEngine) (id : String) : Talk (Except EngineError Details) :=
  (e.daemon.askFor ⟨containerPath id "json", []⟩ Daemon.detailsShape Daemon.detailsOf).map
    fun r => r.mapError (errorOf (some id))

/-- A bound in time as seconds. What is no bound, or is not given, is zero. -/
def boundSeconds (now : Time.Instant) (bound : Option String) : Int :=
  ((bound.bind fun text => Time.resolveBound text now).getD 0)

def logRequest (e : DockerEngine) (id : String) (options : LogOptions) : DaemonRequest :=
  let notAfter := boundSeconds e.wallClock options.notAfter
  { path := containerPath id "logs"
    query :=
      [("follow", flagText options.follow), ("stdout", flagText options.showStdout),
       ("stderr", flagText options.showStderr),
       ("since", toString (boundSeconds e.wallClock options.notBefore))] ++
      (if notAfter = 0 then [] else [("until", toString notAfter)]) ++
      [("timestamps", flagText options.timestamps), ("tail", options.tail)] }

def logItems (id : String) : Except DaemonFault (List UInt8) → List (Except EngineError Frame)
  | .error fault => [.error (errorOf (some id) fault)]
  | .ok body =>
    (Daemon.frames body).map fun
      | some frame => .ok frame
      | none => .error (.connectionFailed "the log breaks off")

/-- Asks for the log of a container when it begins to be read. -/
def askLog (e : DockerEngine) (id : String) (options : LogOptions) : Talk LogFeed :=
  (e.daemon.ask (e.logRequest id options)).map fun answer =>
    Feed.ofList ((logItems id answer).map fun item => (0, item)) .closed

/-- What a report on a container comes to. -/
def usageOf (id : String) (body : List UInt8) : Except EngineError UsageSnapshot :=
  match Daemon.readReport body with
  | (.found usage, _) => .ok usage
  | (.faulty fault, _) => .error (.api (DaemonFault.unreadable fault).message)
  | (.unfinished, []) => .error (.notFound id)
  | (.unfinished, _) => .error (.connectionFailed "the report breaks off")

def askUsage (e : DockerEngine) (id : String) : Talk (Except EngineError UsageSnapshot) :=
  (e.daemon.ask ⟨containerPath id "stats", [("stream", "false"), ("one-shot", "false")]⟩).map
    fun answer => (answer.mapError (errorOf (some id))).bind (usageOf id)

def askPing (e : DockerEngine) : Talk (Except EngineError Unit) :=
  (e.daemon.ask ⟨"/_ping", []⟩).map fun answer =>
    match answer with
    | .ok _ => .ok ()
    | .error fault => .error (.connectionFailed fault.message)

/-- Work whose result is there at once. -/
def atOnce (t : Talk (Except EngineError α)) : Work α := ⟨some 0, t.result⟩

instance : ContainerEngine DockerEngine where
  kind := "docker"
  list e all := atOnce (e.askList all)
  inspect e id := atOnce (e.askDetails id)
  readLogs e id options := atOnce ((e.askDetails id).map fun details =>
    details.map fun _ => (e.askLog id options).result)
  sampleUsage e id := atOnce (e.askUsage id)
  ping e := atOnce e.askPing
  countSample e := e

end DockerEngine

end FleetBoard
