import FleetBoard.CommandLine.Arguments
import FleetBoard.Fleet.Connection
import FleetBoard.Fleet.Demo
import FleetBoard.Server.Config

/-!
# Launching the program

What the program does before it serves: it reads its arguments and the host list, looks at its
settings, and connects to the hosts. The first of these that fails ends it.
-/

namespace FleetBoard.CommandLine

/-- Why the program does not come to serve. -/
inductive LaunchFault where
  /-- The host list cannot be read. -/
  | hosts (error : EngineError)
  | config (error : ServerError)
  /-- A host cannot be connected to. -/
  | connection (error : FleetError)
  deriving DecidableEq, Repr

def LaunchFault.message : LaunchFault → String
  | .hosts e => e.message
  | .config e => e.message
  | .connection e => e.message

/-- What the program is to serve. -/
inductive Service where
  | demo (pool : HostPool MemoryEngine)
  | hosts (pool : HostPool DockerEngine)

/-- What comes of launching the program. -/
inductive Launch where
  | help
  | version
  | misused (fault : UsageFault)
  | failed (fault : LaunchFault)
  | ready (config : ServerConfig) (service : Service)

/-- What the program leaves behind when it ends. -/
structure Exit where
  code : Nat
  stdout : String := ""
  stderr : String := ""
  deriving DecidableEq, Repr

def about : String := "Container log and resource dashboard backend"

def versionText : String := "logdeck 0.1.0"

/-- The address that the program listens at if it is told none. -/
def usualBind : SocketAddress := ⟨.v4 0 0 0 0, 8080⟩

/-- The host list that the program has if it is told none. -/
def usualHosts : String := "local=local"

/-- The time in seconds that the program gives a request, or an engine, if it is told none. -/
def usualTimeout : Nat := 10

def hostsOf (a : Arguments) : Except EngineError (List HostConfig) :=
  if a.demo then .ok Demo.hosts else HostConfig.parseList (a.hosts.getD usualHosts)

def configOf (a : Arguments) (hosts : List HostConfig) : ServerConfig where
  bind := a.bind.getD usualBind
  hosts := hosts
  requestTimeout := a.requestTimeout.getD usualTimeout * 1000
  engineTimeout := a.engineTimeout.getD usualTimeout * 1000
  origins := a.origins

/-- The hosts of a demonstration are there, others have to be connected to. -/
def serviceOf (exists? : String → Bool) (a : Arguments) (hosts : List HostConfig) :
    Except FleetError Service :=
  if a.demo then Demo.pool.map .demo else (HostPool.connect exists? hosts).map .hosts

/-- Gets ready to serve, given which sockets there are. -/
def prepare (exists? : String → Bool) (a : Arguments) :
    Except LaunchFault (ServerConfig × Service) := do
  let hosts ← (hostsOf a).mapError .hosts
  let config := configOf a hosts
  config.validate.mapError .config
  let service ← (serviceOf exists? a hosts).mapError .connection
  return (config, service)

/-- Launches the program, given which sockets there are. -/
def launch (exists? : String → Bool) (arguments : List String)
    (environment : List (String × String)) : Launch :=
  match read arguments environment with
  | .help => .help
  | .version => .version
  | .failed fault => .misused fault
  | .told a =>
    match prepare exists? a with
    | .error fault => .failed fault
    | .ok (config, service) => .ready config service

/-- How the program ends, unless it serves. -/
def exitOf : Launch → Option Exit
  | .help => some { code := 0, stdout := about }
  | .version => some { code := 0, stdout := versionText }
  | .misused fault => some { code := 2, stderr := "error: " ++ fault.message }
  | .failed fault => some { code := 1, stderr := "Error: " ++ fault.message }
  | .ready _ _ => none

/-- The sockets that the hosts in the arguments need. -/
def socketsOf (arguments : List String) (environment : List (String × String)) : List String :=
  match read arguments environment with
  | .told a =>
    match hostsOf a with
    | .ok hosts => hosts.filterMap fun h =>
      match Endpoint.parse h.url with
      | .ok endpoint => DockerEngine.socketOf endpoint
      | .error _ => none
    | .error _ => []
  | _ => []

end FleetBoard.CommandLine
