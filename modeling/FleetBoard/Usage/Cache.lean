import FleetBoard.Time.Span
import FleetBoard.Usage.Sample

/-!
# The cache of samples

A sample is served again while it is fresh, that is for `ttl` nanoseconds. A write to a cache that
holds more entries than its threshold removes those past `retention`. The time of each operation is
given by the caller.
-/

namespace FleetBoard

/-- The settings of a cache; times are in nanoseconds. -/
structure CacheConfig where
  /-- How long an entry is served. -/
  ttl : Nat := 3_000_000_000
  /-- How long an entry is kept at least. -/
  retention : Nat := 10_000_000_000
  /-- A write that leaves more entries than this removes old ones. -/
  threshold : Nat := 100
  deriving DecidableEq, Repr

/-- What is wrong with the settings of a cache. -/
inductive CacheFault where
  | zeroTtl
  /-- Entries might go while they are fresh. -/
  | shortRetention (retention ttl : Nat)
  deriving DecidableEq, Repr

namespace CacheFault

def message : CacheFault → String
  | .zeroTtl => "invalid cache config: ttl must be positive"
  | .shortRetention retention ttl =>
    "invalid cache config: retention (" ++ Time.Span.write retention ++
      ") must not be shorter than ttl (" ++ Time.Span.write ttl ++ ")"

end CacheFault

namespace CacheConfig

def validate (c : CacheConfig) : Except CacheFault Unit :=
  if c.ttl = 0 then .error .zeroTtl
  else if c.retention < c.ttl then .error (.shortRetention c.retention c.ttl)
  else .ok ()

end CacheConfig

/-- The text under which the sample of a container is kept. -/
abbrev CacheKey := String

/-- Host and identifier with a colon between them. -/
def ContainerRef.key (c : ContainerRef) : CacheKey := c.host ++ ":" ++ c.id

/-- A sample and the time at which it was put. -/
structure CacheEntry where
  stats : ContainerStats
  capturedAt : Nat

/-- The samples that are held, each under its own key. -/
structure StatsCache where
  config : CacheConfig := {}
  entries : List (CacheKey × CacheEntry) := []

namespace StatsCache

def find? (c : StatsCache) (key : CacheKey) : Option CacheEntry := c.entries.lookup key

def get (c : StatsCache) (now : Nat) (key : CacheKey) : Option ContainerStats :=
  match c.find? key with
  | some e => if now - e.capturedAt < c.config.ttl then some e.stats else none
  | none => none

def insert (c : StatsCache) (now : Nat) (key : CacheKey) (stats : ContainerStats) : StatsCache :=
  { c with entries := (key, ⟨stats, now⟩) :: c.entries.filter fun e => e.1 ≠ key }

/-- Removes the entries past retention if there are more than the threshold. -/
def prune (c : StatsCache) (now : Nat) : StatsCache :=
  if c.config.threshold < c.entries.length then
    { c with entries := c.entries.filter fun e => now - e.2.capturedAt ≤ c.config.retention }
  else c

/-- Puts a sample under a key, and removes old entries if the cache has grown large. -/
def put (c : StatsCache) (now : Nat) (key : CacheKey) (stats : ContainerStats) : StatsCache :=
  (c.insert now key stats).prune now

def size (c : StatsCache) : Nat := c.entries.length

end StatsCache

end FleetBoard
