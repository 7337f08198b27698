import FleetBoard.Engine.Basic
import FleetBoard.Text.Utf8

/-!
# Engines in memory

An engine whose containers are given beforehand. It can be made slow, and it can be made to fail;
both hold for all of its answers. Waiting comes first, failing second, and a container is looked for
last.
-/

namespace FleetBoard

/-- A container that is held in memory, with its log and its usage. -/
structure MemoryContainer where
  container : Container
  logs : List Frame := []
  usage : Option UsageSnapshot := none

/-- An engine in memory. -/
structure MemoryEngine where
  /-- The containers in the order of their identifiers. -/
  containers : List MemoryContainer := []
  /-- With what every call fails, if it does. -/
  failure : Option String := none
  /-- How long every call takes, in milliseconds. -/
  latency : Nat := 0
  /-- How often a log that is followed gets a new line, in milliseconds. -/
  liveInterval : Option Nat := none
  /-- How many requests for usage have reached the engine. -/
  usageCalls : Nat := 0
  /-- The time of day that new lines are written at, shown by the clock before the first of them. -/
  wallClock : Time.Instant := ⟨0, 0⟩

namespace MemoryEngine

def find? (e : MemoryEngine) (id : String) : Option MemoryContainer :=
  e.containers.find? fun c => c.container.id = id

def insertSorted (c : MemoryContainer) : List MemoryContainer → List MemoryContainer
  | [] => [c]
  | d :: rest =>
    if c.container.id < d.container.id then c :: d :: rest
    else if c.container.id = d.container.id then c :: rest
    else d :: insertSorted c rest

/-- Adds a container in the place of one with its identifier, whose log and usage go with it. -/
def insert (e : MemoryEngine) (c : Container) : MemoryEngine :=
  { e with containers := insertSorted ⟨c, [], none⟩ e.containers }

def modify (e : MemoryEngine) (id : String) (f : MemoryContainer → MemoryContainer) :
    MemoryEngine :=
  { e with containers := e.containers.map fun c => if c.container.id = id then f c else c }

def setLogs (e : MemoryEngine) (id : String) (logs : List Frame) : MemoryEngine :=
  e.modify id fun c => { c with logs := logs }

def setUsage (e : MemoryEngine) (id : String) (usage : UsageSnapshot) : MemoryEngine :=
  e.modify id fun c => { c with usage := some usage }

def setFailure (e : MemoryEngine) (failure : Option String) : MemoryEngine :=
  { e with failure := failure }

/-- The work that every call is: it waits, fails if the engine is to fail, and else gives a
result. -/
def enter (e : MemoryEngine) (result : Except EngineError α) : Work α where
  takes := some e.latency
  result := match e.failure with
    | some text => .error (.api text)
    | none => result

def require (e : MemoryEngine) (id : String) : Except EngineError MemoryContainer :=
  match e.find? id with
  | some c => .ok c
  | none => .error (.notFound id)

def detailsOf (c : Container) : Details :=
  { id := c.id
    name := match c.names with
      | name :: _ => plainName name
      | [] => ""
    image := c.image
    state := c.state
    created := (Time.Instant.ofSeconds? c.created).map (·.rfc3339Offset)
    labels := c.labels }

/-- The time of day so many milliseconds after another, with the milliseconds written out. -/
def stampAfter (clock : Time.Instant) (millis : Nat) : String :=
  let nanos : Nat := clock.nanos + millis * 1_000_000
  let t : Time.Instant := ⟨clock.seconds + (nanos / 1_000_000_000 : Nat), 0⟩
  String.ofList (t.write ++ '.' :: Decimal.padded 3 (nanos % 1_000_000_000 / 1_000_000) ++ ['Z'])

/-- The line with this number that comes of its own. -/
def heartbeat (clock : Time.Instant) (interval n : Nat) : Frame :=
  ⟨.stdout, Text.utf8String
    (stampAfter clock ((n + 1) * interval) ++ " INFO heartbeat " ++ toString n ++ "\n")⟩

/-- The log that begins with some frames. One that is followed stays open, and gets a new line at
every interval if the engine has one. -/
def logFeed (e : MemoryEngine) (frames : List Frame) (follow : Bool) : LogFeed :=
  let recorded := frames.map fun f => (0, Except.ok f)
  match follow, e.liveInterval with
  | false, _ => Feed.ofList recorded .closed
  | true, none => Feed.ofList recorded .silent
  | true, some interval =>
    { pull := fun n => match frames[n]? with
        | some f => .item 0 (.ok f)
        | none => .item interval (.ok (heartbeat e.wallClock interval (n - frames.length)))
      within := fun time => frames.length + time / max interval 1 + 1 }

instance : ContainerEngine MemoryEngine where
  kind := "memory"
  list e all := e.enter (.ok
    ((e.containers.filter fun c => all || c.container.isRunning).map (·.container)))
  inspect e id := e.enter ((e.require id).map fun c => detailsOf c.container)
  readLogs e id options := e.enter
    ((e.require id).map fun c => e.logFeed (options.select c.logs) options.follow)
  sampleUsage e id := e.enter ((e.require id).map fun c => c.usage.getD {})
  ping e := e.enter (.ok ())
  countSample e := { e with usageCalls := e.usageCalls + 1 }

end MemoryEngine

end FleetBoard
