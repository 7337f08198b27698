import FleetBoard.Host.Address
import FleetBoard.Host.Config
import FleetBoard.Server.Error

/-!
# Settings of the server
-/

namespace FleetBoard

/-- The settings of a server. Times are in milliseconds. -/
structure ServerConfig where
  /-- Where it listens. -/
  bind : SocketAddress := ⟨.v4 0 0 0 0, 8080⟩
  hosts : List HostConfig := [HostConfig.localHost]
  /-- How long a request may take. -/
  requestTimeout : Nat := 10000
  /-- How long an engine may take. -/
  engineTimeout : Nat := 10000
  /-- The pages that may use the server from a browser; all of them if there are none. -/
  origins : List String := []
  deriving DecidableEq, Repr

namespace ServerConfig

/-- There has to be a host, names must not repeat, and times must be positive; the first of these
that fails is told. -/
def validate (c : ServerConfig) : Except ServerError Unit :=
  if c.hosts.isEmpty then .error (.config "at least one host is required")
  else match HostConfig.ensureUnique c.hosts with
    | .error e => .error (.config e.message)
    | .ok () =>
      if c.requestTimeout = 0 ∨ c.engineTimeout = 0
      then .error (.config "timeouts must be positive")
      else .ok ()

end ServerConfig

end FleetBoard
