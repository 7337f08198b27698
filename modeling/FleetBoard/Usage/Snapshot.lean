import FleetBoard.Decimal.Reading
import FleetBoard.Json.Value

/-!
# Usage documents

An engine reports the usage of a container as a JSON document with counters for the processors and
the memory. Counters may be missing or null. Each record of the document may also be written as the
list of its fields in order. `UsageSnapshot.ofJson?` reads a document, `UsageSnapshot.toJson` writes
it with every known field.
-/

namespace FleetBoard

/-- The fields of a record by name: of an object, in which other fields are passed over, or of a
list of their values in order, in which the last ones may be missing. -/
def Json.record? (names : List String) : Json → Option (String → Option Json)
  | .obj fields => some fun name => Json.lookup name fields
  | .arr items =>
    if items.length ≤ names.length then some fun name => (names.zip items).lookup name else none
  | _ => none

def Json.word? : Json → Option UInt64
  | .int n => if 0 ≤ n ∧ n ≤ Decimal.maxWord then some n.toNat.toUInt64 else none
  | _ => none

/-- What a field that may be missing or null holds: nothing, or what `read` makes of it. The outer
option is none when the field holds something else. -/
def Json.nullable? (read : Json → Option α) : Option Json → Option (Option α)
  | none | some .null => some none
  | some j => (read j).map some

/-- What a field that may be missing, but not null, holds. -/
def Json.default? (default : α) (read : Json → Option α) : Option Json → Option α
  | none => some default
  | some j => read j

/-- Processor time of a container. -/
structure CpuUsage where
  total : Option UInt64 := none
  /-- The time on each processor, where the engine reports it. -/
  perCpu : Option (List UInt64) := none
  deriving DecidableEq, Repr

/-- Processor counters. -/
structure CpuStats where
  usage : CpuUsage := {}
  /-- Processor time of the whole host. -/
  system : Option UInt64 := none
  /-- How many processors the container can use. -/
  online : Option UInt64 := none
  deriving DecidableEq, Repr

/-- Memory counters. -/
structure MemoryStats where
  usage : Option UInt64 := none
  limit : Option UInt64 := none
  /-- The engine's breakdown of the usage, by names of its own. -/
  stats : Option (List (String × Json)) := none

/-- The usage of a container at one reading, and the processor counters of the reading before. -/
structure UsageSnapshot where
  cpu : CpuStats := {}
  previous : CpuStats := {}
  memory : MemoryStats := {}

def Json.words? : Json → Option (List UInt64)
  | .arr items => items.mapM Json.word?
  | _ => none

def Json.object? : Json → Option (List (String × Json))
  | .obj fields => some fields
  | _ => none

namespace CpuUsage

def names : List String := ["total_usage", "percpu_usage"]

def ofJson? (j : Json) : Option CpuUsage := do
  let field ← j.record? names
  return {
    total := ← Json.nullable? Json.word? (field "total_usage")
    perCpu := ← Json.nullable? Json.words? (field "percpu_usage") }

end CpuUsage

namespace CpuStats

def names : List String := ["cpu_usage", "system_cpu_usage", "online_cpus"]

def ofJson? (j : Json) : Option CpuStats := do
  let field ← j.record? names
  return {
    usage := ← Json.default? {} CpuUsage.ofJson? (field "cpu_usage")
    system := ← Json.nullable? Json.word? (field "system_cpu_usage")
    online := ← Json.nullable? Json.word? (field "online_cpus") }

end CpuStats

namespace MemoryStats

def names : List String := ["usage", "limit", "stats"]

def ofJson? (j : Json) : Option MemoryStats := do
  let field ← j.record? names
  return {
    usage := ← Json.nullable? Json.word? (field "usage")
    limit := ← Json.nullable? Json.word? (field "limit")
    stats := ← Json.nullable? Json.object? (field "stats") }

end MemoryStats

def Json.ofWord : Option UInt64 → Json
  | some n => .int n.toNat
  | none => .null

namespace CpuUsage

def toJson (u : CpuUsage) : Json :=
  .obj
    [("total_usage", .ofWord u.total),
     ("percpu_usage", match u.perCpu with
      | some counters => .arr (counters.map fun n => .int n.toNat)
      | none => .null)]

end CpuUsage

namespace CpuStats

def toJson (s : CpuStats) : Json :=
  .obj
    [("cpu_usage", s.usage.toJson), ("system_cpu_usage", .ofWord s.system),
     ("online_cpus", .ofWord s.online)]

end CpuStats

namespace MemoryStats

def toJson (m : MemoryStats) : Json :=
  .obj
    [("usage", .ofWord m.usage), ("limit", .ofWord m.limit),
     ("stats", match m.stats with
      | some fields => .obj fields
      | none => .null)]

end MemoryStats

namespace UsageSnapshot

def names : List String := ["cpu_stats", "precpu_stats", "memory_stats"]

/-- Reads a document. There is no snapshot when a field holds something of another kind. -/
def ofJson? (j : Json) : Option UsageSnapshot := do
  let field ← j.record? names
  return {
    cpu := ← Json.default? {} CpuStats.ofJson? (field "cpu_stats")
    previous := ← Json.default? {} CpuStats.ofJson? (field "precpu_stats")
    memory := ← Json.default? {} MemoryStats.ofJson? (field "memory_stats") }

/-- Writes every field, with null for what is not known. -/
def toJson (s : UsageSnapshot) : Json :=
  .obj
    [("cpu_stats", s.cpu.toJson), ("precpu_stats", s.previous.toJson),
     ("memory_stats", s.memory.toJson)]

/-- The bytes of the page cache, where the engine reports them. -/
def cacheBytes (s : UsageSnapshot) : Option UInt64 :=
  match s.memory.stats with
  | some fields => (Json.lookup "cache" fields).bind Json.word?
  | none => none

end UsageSnapshot

end FleetBoard
