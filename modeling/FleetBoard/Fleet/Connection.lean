import FleetBoard.Daemon.Engine
import FleetBoard.Fleet.Pool

/-!
# Connecting to hosts

The pool of a list of hosts whose engines are daemons. The first host that cannot be connected to,
or whose name is taken, is the end of it.
-/

namespace FleetBoard.HostPool

/-- Adds a host, given which sockets there are. -/
def connectHost (exists? : String → Bool) (pool : HostPool DockerEngine) (host : HostConfig) :
    Except FleetError (HostPool DockerEngine) :=
  match DockerEngine.connect exists? host with
  | .ok engine => pool.insert host engine
  | .error e => .error (.engine e)

/-- The pool of some hosts, in their order. -/
def connect (exists? : String → Bool) (hosts : List HostConfig) :
    Except FleetError (HostPool DockerEngine) :=
  hosts.foldlM (connectHost exists?) {}

end FleetBoard.HostPool
