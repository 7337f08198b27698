import FleetBoard.Daemon.Basic
import FleetBoard.Usage.Snapshot

/-!
# Usage as a daemon reports it

A daemon reports usage as a line with one document. The document is read as soon as a line is there,
and once more when the report has ended; what is not a whole document then never becomes one.
-/

namespace FleetBoard.Daemon

open Json (Shape)

/-- The breakdown of memory by the first version of control groups. -/
def memoryNamesV1 : List String :=
  ["cache", "dirty", "mapped_file", "total_inactive_file", "pgpgout", "rss", "total_mapped_file",
   "writeback", "unevictable", "pgpgin", "total_unevictable", "pgmajfault", "total_rss",
   "total_rss_huge", "total_writeback", "total_inactive_anon", "rss_huge",
   "hierarchical_memory_limit", "total_pgfault", "total_active_file", "active_anon",
   "total_active_anon", "total_pgpgout", "total_cache", "total_dirty", "inactive_anon",
   "active_file", "pgfault", "inactive_file", "total_pgmajfault", "total_pgpgin"]

/-- The breakdown of memory by the second version of control groups. -/
def memoryNamesV2 : List String :=
  ["anon", "file", "kernel_stack", "slab", "sock", "shmem", "file_mapped", "file_dirty",
   "file_writeback", "anon_thp", "inactive_anon", "active_anon", "inactive_file", "active_file",
   "unevictable", "slab_reclaimable", "slab_unreclaimable", "pgfault", "pgmajfault",
   "workingset_refault", "workingset_activate", "workingset_nodereclaim", "pgrefill", "pgscan",
   "pgsteal", "pgactivate", "pgdeactivate", "pglazyfree", "pglazyfreed", "thp_fault_alloc",
   "thp_collapse_alloc"]

/-- Counters that have to be there. -/
def requiredWords (names : List String) : List (String × Json.Presence × Shape) :=
  names.map fun name => (name, .required, .word)

/-- Counters that may be missing or null. -/
def optionalWords (names : List String) : List (String × Json.Presence × Shape) :=
  names.map fun name => (name, .nullable, .word)

def networkShape : Shape :=
  .record (requiredWords ["rx_dropped", "rx_bytes", "rx_errors", "tx_packets", "tx_dropped",
    "rx_packets", "tx_errors", "tx_bytes"])

def memoryShape : Shape :=
  .record (("stats", .nullable, .counters [memoryNamesV1, memoryNamesV2]) ::
    optionalWords ["max_usage", "usage", "failcnt", "limit", "commit", "commit_peak", "commitbytes",
      "commitpeakbytes", "privateworkingset"])

def deviceShape : Shape :=
  .record
    [("major", .required, .word), ("minor", .required, .word), ("op", .required, .text),
     ("value", .required, .word)]

def blockShape : Shape :=
  .optionalFields
    (["io_service_bytes_recursive", "io_serviced_recursive", "io_queue_recursive",
      "io_service_time_recursive", "io_wait_time_recursive", "io_merged_recursive",
      "io_time_recursive", "sectors_recursive"].map fun name => (name, .list deviceShape))

def cpuShape : Shape :=
  .record
    [("cpu_usage", .required, .record
      (("percpu_usage", .nullable, .list .word) ::
        requiredWords ["usage_in_usermode", "total_usage", "usage_in_kernelmode"])),
     ("system_cpu_usage", .nullable, .word), ("online_cpus", .nullable, .word),
     ("throttling_data", .required,
      .record (requiredWords ["periods", "throttled_periods", "throttled_time"]))]

def usageShape : Shape :=
  .record
    [("read", .required, .text), ("preread", .required, .text),
     ("num_procs", .required, .whole 0 (UInt32.size - 1)),
     ("pids_stats", .required, .record (optionalWords ["current", "limit"])),
     ("network", .nullable, networkShape), ("networks", .nullable, .map networkShape),
     ("memory_stats", .required, memoryShape), ("blkio_stats", .required, blockShape),
     ("cpu_stats", .required, cpuShape), ("precpu_stats", .required, cpuShape),
     ("storage_stats", .required,
      .record (optionalWords ["read_count_normalized", "read_size_bytes", "write_count_normalized",
        "write_size_bytes"])),
     ("name", .defaulted, .text), ("id", .defaulted, .text)]

/-- What comes of reading a report. -/
inductive Report where
  | found (usage : UsageSnapshot)
  /-- The report is not what it should be. -/
  | faulty (fault : Json.Fault)
  /-- The report may still become a document. -/
  | unfinished

/-- Reads a line as a document. Null is no document, but no fault either. -/
def readLine (line : List UInt8) : Report :=
  let read (d : Json.Doc) : Except Json.Fault Json :=
    if d.isNull then .ok .null else usageShape.read d
  match Json.readWhole read line with
  | .ok .null | .error .cutOff => .unfinished
  | .error f => .faulty f
  | .ok fields =>
    match UsageSnapshot.ofJson? fields with
    | some usage => .found usage
    | none => .faulty .unexpected

/-- Reads the first line, and gives what is left if it is no document yet: its end is then taken to
lie within the document. -/
def readFirstLine (body : List UInt8) : Report × List UInt8 :=
  match Text.splitFirst (· == 0x0a) body with
  | some (line, rest) => (readLine line, line ++ rest)
  | none => (readLine body, body)

/-- Reads a report when its bytes have come, and again at its end. An unfinished report comes with
the bytes that are left of it. -/
def readReport (body : List UInt8) : Report × List UInt8 :=
  match readFirstLine body with
  | (.unfinished, rest) => readFirstLine rest
  | r => r

end FleetBoard.Daemon
