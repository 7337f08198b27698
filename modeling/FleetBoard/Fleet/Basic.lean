import FleetBoard.Fleet.Listing
import FleetBoard.Fleet.Pool
import FleetBoard.Usage.Cache

/-!
# The fleet

A fleet puts a question to all hosts at once, each in a task of its own, and keeps samples in a
cache. Tasks of one fan-out begin at the same moment in order; a task that has nothing to wait for
comes to its end before the next begins, the others come to theirs at their own moments.
`beginStats` and `endStats` are what a task that asks for a sample does before and after it waits.
-/

namespace FleetBoard

/-- Hosts with their engines, and the cache of samples with its own clock in nanoseconds. -/
structure Fleet (ε : Type) where
  pool : HostPool ε := {}
  cache : StatsCache := {}
  clock : Nat := 0

/-- What comes of a fan-out: the results in the order of their moments, and the moment of the
last. -/
structure Gathered (α : Type) where
  results : List α
  moment : Nat

namespace Gathered

/-- Gathers the results of tasks that began at `start`. There is nothing to gather if one of them
never ends. -/
def ofTasks (start : Nat) (tasks : List (Option (Timed α))) : Option (Gathered α) :=
  match tasks.mapM id with
  | none => none
  | some results =>
    some {
      results := (results.mergeSort fun a b => a.moment ≤ b.moment).map (·.value)
      moment := (results.map (·.moment)).foldl max start }

end Gathered

namespace Fleet

variable {ε : Type} [ContainerEngine ε]

def hosts (f : Fleet ε) : List HostConfig := f.pool.hosts

def askHosts (f : Fleet ε) (life : Lifetime) (now : Nat) (all : Bool) :
    Option (Gathered HostAnswer) :=
  Gathered.ofTasks now <| f.pool.toList.map fun (name, engine) =>
    (life.run now (ContainerEngine.list engine all)).map fun t => ⟨t.moment, (name, t.value)⟩

def list (f : Fleet ε) (life : Lifetime) (now : Nat) : Option (Timed Listing) :=
  (f.askHosts life now true).map fun g => ⟨g.moment, Listing.ofAnswers g.results⟩

/-- A request for a sample that has been begun. -/
inductive Begun where
  /-- There is nothing to wait for. -/
  | done (result : Except FleetError ContainerStats)
  /-- The engine has been asked; its answer comes at a moment, or never. -/
  | asked (answer : Option (Timed (Except EngineError UsageSnapshot)))

/-- Begins to ask for a sample: a fresh one is taken from the cache, else the engine of the host is
asked. -/
def beginStats (f : Fleet ε) (life : Lifetime) (now : Nat) (c : ContainerRef) : Fleet ε × Begun :=
  match f.cache.get f.clock c.key with
  | some stats => (f, .done (.ok stats))
  | none =>
    match f.pool.engine c.host with
    | .error e => (f, .done (.error e))
    | .ok engine =>
      let (engine, answer) := ContainerEngine.sampleUnder life now engine c.id
      ({ f with pool := f.pool.modify c.host fun _ => engine }, .asked answer)

/-- Ends a request for a sample with the answer of the engine. A sample goes into the cache. -/
def endStats (f : Fleet ε) (c : ContainerRef) (answer : Except EngineError UsageSnapshot) :
    Fleet ε × Except FleetError ContainerStats :=
  match answer with
  | .error e => (f, .error (.engine e))
  | .ok snapshot =>
    let stats : ContainerStats := ⟨c.id, c.host, snapshot.sample⟩
    ({ f with cache := f.cache.put f.clock c.key stats }, .ok stats)

def containerStats (f : Fleet ε) (life : Lifetime) (now : Nat) (c : ContainerRef) :
    Fleet ε × Option (Timed (Except FleetError ContainerStats)) :=
  match f.beginStats life now c with
  | (f, .done result) => (f, some ⟨now, result⟩)
  | (f, .asked none) => (f, none)
  | (f, .asked (some t)) =>
    let (f, result) := f.endStats c t.value
    (f, some ⟨t.moment, result⟩)

/-- How far a fan-out for samples has come: results newest first, and answers that are still to come
with the containers they are about. -/
structure Sampling (ε : Type) where
  fleet : Fleet ε
  done : List ContainerStats := []
  waiting : List (Option (Timed (ContainerRef × Except EngineError UsageSnapshot))) := []

namespace Sampling

/-- Notes the result of a task; a failed task leaves nothing. -/
def note (s : Sampling ε) (fleet : Fleet ε) (result : Except FleetError ContainerStats) :
    Sampling ε :=
  match result with
  | .ok stats => { s with fleet := fleet, done := stats :: s.done }
  | .error _ => { s with fleet := fleet }

/-- Lets the task of a container begin. It does nothing if the call has ended. -/
def start (life : Lifetime) (now : Nat) (s : Sampling ε) (c : ContainerRef) : Sampling ε :=
  if life.isEnded now then s
  else match s.fleet.beginStats life now c with
    | (fleet, .done result) => s.note fleet result
    | (fleet, .asked none) => { s with fleet := fleet, waiting := none :: s.waiting }
    | (fleet, .asked (some t)) =>
      if t.moment = now then
        let (fleet, result) := fleet.endStats c t.value
        s.note fleet result
      else { s with fleet := fleet, waiting := some ⟨t.moment, (c, t.value)⟩ :: s.waiting }

/-- Lets the task of a container end. -/
def finish (s : Sampling ε) (answer : ContainerRef × Except EngineError UsageSnapshot) :
    Sampling ε :=
  let (fleet, result) := s.fleet.endStats answer.1 answer.2
  s.note fleet result

end Sampling

/-- Gives the samples of many containers, as far as they can be had, in the order in which they
come. -/
def bulkStats (f : Fleet ε) (life : Lifetime) (now : Nat) (containers : List ContainerRef) :
    Fleet ε × Option (Timed (List ContainerStats)) :=
  let s := containers.foldl (Sampling.start life now) { fleet := f }
  match Gathered.ofTasks now s.waiting.reverse with
  | none => (s.fleet, none)
  | some g =>
    let s := g.results.foldl Sampling.finish s
    (s.fleet, some ⟨g.moment, s.done.reverse⟩)

/-- The containers that the hosts answered with, as far as they answered. -/
def containersOf (answers : List HostAnswer) : List ContainerRef :=
  answers.flatMap fun (host, answer) =>
    match answer with
    | .ok containers => containers.map fun c => ⟨host, c.id⟩
    | .error _ => []

/-- Gives the samples of all running containers. No container is sampled before every host has
answered. -/
def allRunningStats (f : Fleet ε) (life : Lifetime) (now : Nat) :
    Fleet ε × Option (Timed (List ContainerStats)) :=
  match f.askHosts life now false with
  | none => (f, none)
  | some g => f.bulkStats life g.moment (containersOf g.results)

def inspect (f : Fleet ε) (life : Lifetime) (now : Nat) (c : ContainerRef) :
    Option (Timed (Except FleetError Details)) :=
  match f.pool.engine c.host with
  | .error e => some ⟨now, .error e⟩
  | .ok engine =>
    (life.run now (ContainerEngine.inspect engine c.id)).map fun t =>
      ⟨t.moment, match t.value with
        | .ok details => .ok { details with host := c.host }
        | .error e => .error (.engine e)⟩

def openLogs (f : Fleet ε) (life : Lifetime) (now : Nat) (c : ContainerRef) (options : LogOptions) :
    Option (Timed (Except FleetError LogFeed)) :=
  match f.pool.engine c.host with
  | .error e => some ⟨now, .error e⟩
  | .ok engine =>
    (life.run now (ContainerEngine.readLogs engine c.id options)).map fun t =>
      ⟨t.moment, t.value.mapError FleetError.engine⟩

end Fleet

end FleetBoard
