import FleetBoard.Usage.Snapshot

/-!
# Samples

What a usage document says in terms of people: the share of processor time and of memory. Missing
counters count as zero, and a share that cannot be computed is zero.
-/

namespace FleetBoard

/-- The usage of a container. -/
structure Sample where
  /-- Relative to one processor, so it may exceed 100. -/
  cpuPercent : Float
  /-- Relative to the limit; zero without one. -/
  memoryPercent : Float
  /-- Bytes in use, the page cache left out. -/
  memoryUsed : UInt64
  memoryLimit : UInt64

namespace UsageSnapshot

/-- A counter as a float; zero if it is missing. -/
def counter (n : Option UInt64) : Float := (n.getD 0).toFloat

/-- The reported number of processors if it is positive, else the number of processors with counters
of their own, else one. -/
def processors (s : UsageSnapshot) : UInt64 :=
  let perCpu := match s.cpu.usage.perCpu with
    | some counters => counters.length
    | none => 0
  let counted : UInt64 := if 0 < perCpu then perCpu.toUInt64 else 1
  match s.cpu.online with
  | some n => if 0 < n then n else counted
  | none => counted

/-- Processor time since the reading before, relative to that of the host and scaled by the number
of processors. It is zero unless both have advanced. -/
def cpuPercent (s : UsageSnapshot) : Float :=
  let used := counter s.cpu.usage.total - counter s.previous.usage.total
  let host := counter s.cpu.system - counter s.previous.system
  if host <= 0 || used <= 0 then 0 else used / host * s.processors.toFloat * 100

/-- Bytes in use without the page cache. A cache that is not smaller than the usage is left in. -/
def memoryUsed (s : UsageSnapshot) : UInt64 :=
  let usage := s.memory.usage.getD 0
  match s.cacheBytes with
  | some cache => if cache < usage then usage - cache else usage
  | none => usage

def memoryLimit (s : UsageSnapshot) : UInt64 := s.memory.limit.getD 0

/-- Memory in use relative to the limit, at most 100. -/
def memoryPercent (s : UsageSnapshot) : Float :=
  if 0 < s.memoryLimit then
    let percent := s.memoryUsed.toFloat / s.memoryLimit.toFloat * 100
    if percent < 100 then percent else 100
  else 0

/-- The sample of a document. -/
def sample (s : UsageSnapshot) : Sample :=
  ⟨s.cpuPercent, s.memoryPercent, s.memoryUsed, s.memoryLimit⟩

end UsageSnapshot

/-- Names a container: its host and its identifier on that host. -/
structure ContainerRef where
  host : String
  id : String
  deriving DecidableEq, Repr

namespace ContainerRef

def shortId (c : ContainerRef) : String := String.ofList (c.id.toList.take 12)

end ContainerRef

/-- The usage of a container on a host. -/
structure ContainerStats where
  id : String
  host : String
  sample : Sample

namespace ContainerStats

def toJson (s : ContainerStats) : Json :=
  .obj
    [("id", .str s.id), ("host", .str s.host), ("cpu_percent", .float s.sample.cpuPercent),
     ("memory_percent", .float s.sample.memoryPercent),
     ("memory_used", .int s.sample.memoryUsed.toNat),
     ("memory_limit", .int s.sample.memoryLimit.toNat)]

end ContainerStats

end FleetBoard
