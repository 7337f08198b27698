import FleetBoard.Engine.Memory
import FleetBoard.Fleet.Pool

/-!
# Hosts for a demonstration

Two hosts in memory with a handful of containers, whose followed logs go on by themselves.
-/

namespace FleetBoard.Demo

def hosts : List HostConfig := [⟨"local", "local"⟩, ⟨"staging", "tcp://staging.internal:2375"⟩]

def liveInterval : Nat := 2000

def mebibytes (n : UInt64) : UInt64 := n * 1048576

def container (id name image state status : String) (labels : List (String × String)) : Container :=
  { id := id, names := ["/" ++ name], image := image, state := state, status := status
    created := 1705300000, labels := Labels.ofPairs labels }

def cpuStats (used host cpus : UInt64) : CpuStats :=
  { usage := { total := some (1000000 + used) }, system := some (10000000 + host),
    online := some cpus }

/-- A reading since which the container has used the processors for `used` while the host used them
for `host`. -/
def usage (used host cpus memory limit : UInt64) : UsageSnapshot :=
  { cpu := cpuStats used host cpus
    previous := cpuStats 0 0 cpus
    memory := { usage := some memory, limit := some limit } }

def line (channel : Channel) (text : String) : Frame := ⟨channel, Text.utf8String (text ++ "\n")⟩

def localEngine : MemoryEngine :=
  let e : MemoryEngine := { liveInterval := some liveInterval }
  let e := e.insert (container "3f4e1a9b2c7d" "web" "nginx:1.25" "running" "Up 3 hours"
    [("com.docker.compose.project", "shop"), ("tier", "frontend")])
  let e := e.insert (container "8a21c0d4e5f6" "api" "shop/api:2.4.1" "running" "Up 3 hours"
    [("com.docker.compose.project", "shop"), ("tier", "backend")])
  let e := e.insert (container "c9d8e7f6a5b4" "migrate" "shop/api:2.4.1" "exited"
    "Exited (0) 3 hours ago" [("com.docker.compose.project", "shop")])
  let e := e.setLogs "3f4e1a9b2c7d"
    [line .stdout "10.0.0.12 - - [15/Jan/2024:10:30:00 +0000] \"GET / HTTP/1.1\" 200 612",
     line .stderr "2024/01/15 10:30:02 [warn] 29#29: *1 upstream server temporarily disabled",
     line .stderr
      "2024/01/15 10:30:05 [error] 29#29: *3 connect() failed (111: Connection refused)"]
  let e := e.setUsage "3f4e1a9b2c7d" (usage 1200 60000 2 (mebibytes 48) (mebibytes 512))
  let e := e.setLogs "8a21c0d4e5f6"
    [line .stdout "2024-01-15T10:29:58.120Z INFO starting api on :8000",
     line .stdout "2024-01-15T10:30:01.004Z WARN \x1b[1mslow query\x1b[0m took 1.8s",
     line .stdout "2024-01-15 10:30:03,551 DEBUG cache warm: 312 keys",
     line .stderr "Traceback (most recent call last):",
     line .stderr "  ValueError: invalid literal for int()"]
  let e := e.setUsage "8a21c0d4e5f6" (usage 9000 50000 4 (mebibytes 310) (mebibytes 1024))
  e.setLogs "c9d8e7f6a5b4" [line .stdout "Mon Jan 15 10:25:00 2024 applied 14 migrations"]

def stagingEngine : MemoryEngine :=
  let e : MemoryEngine := { liveInterval := some liveInterval }
  let e := e.insert (container "0b1c2d3e4f5a" "postgres" "postgres:16" "running" "Up 2 days"
    [("tier", "data")])
  let e := e.setLogs "0b1c2d3e4f5a"
    [line .stdout
      "2024-01-15 10:20:00.000 UTC [1] LOG:  database system is ready to accept connections",
     line .stderr
     "2024-01-15 10:31:12.310 UTC [88] FATAL:  password authentication failed for user \"shop\""]
  e.setUsage "0b1c2d3e4f5a" (usage 700 80000 2 (mebibytes 900) (mebibytes 2048))

def pool : Except FleetError (HostPool MemoryEngine) :=
  (hosts.zip [localEngine, stagingEngine]).foldlM
    (fun pool (host, engine) => pool.insert host engine) {}

end FleetBoard.Demo
