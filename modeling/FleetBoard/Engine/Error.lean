import FleetBoard.Text.Quoted

/-!
# Errors of container engines
-/

namespace FleetBoard

/-- What is wrong with an entry of the host list. -/
inductive HostFault where
  /-- The entry has no equals sign. -/
  | noSeparator
  | emptyName
  /-- The name has a colon, which separates names from container identifiers elsewhere. -/
  | colonInName
  | emptyUrl
  /-- An earlier entry has the same name. -/
  | duplicate (name : String)
  /-- Any other reason, in words. -/
  | because (reason : String)
  deriving DecidableEq, Repr

/-- Why an endpoint cannot be used. -/
inductive EndpointFault where
  | ssh
  | tls
  | unknownScheme (scheme : String)
  /-- The text has no scheme. -/
  | noScheme
  /-- Any other reason, in words. -/
  | because (reason : String)
  deriving DecidableEq, Repr

/-- Why an engine does not give an answer. -/
inductive EngineError where
  | connectionFailed (text : String)
  | invalidHost (entry : String) (fault : HostFault)
  | unsupportedHost (endpoint : String) (fault : EndpointFault)
  | notFound (id : String)
  /-- The caller cancelled the call. -/
  | cancelled
  /-- The caller's deadline passed. -/
  | deadlineExceeded
  /-- The engine's answer makes no sense. -/
  | decode (text : String)
  /-- Any other failure of the engine. -/
  | api (text : String)
  deriving DecidableEq, Repr

namespace HostFault

def message : HostFault → String
  | .noSeparator => "expected name=url"
  | .emptyName => "host name is empty"
  | .colonInName => "host name must not contain ':'"
  | .emptyUrl => "host url is empty"
  | .duplicate name => "duplicate host name " ++ Text.quoted name
  | .because reason => reason

end HostFault

namespace EndpointFault

def message : EndpointFault → String
  | .ssh => "ssh transport is not available"
  | .tls => "TLS endpoints are not available"
  | .unknownScheme scheme => "unknown scheme " ++ Text.quoted scheme
  | .noScheme => "expected unix://, tcp:// or http://"
  | .because reason => reason

end EndpointFault

namespace EngineError

def message : EngineError → String
  | .connectionFailed text => "failed to connect to container engine: " ++ text
  | .invalidHost entry fault => "invalid host entry " ++ Text.quoted entry ++ ": " ++ fault.message
  | .unsupportedHost endpoint fault =>
    "unsupported engine endpoint " ++ endpoint ++ ": " ++ fault.message
  | .notFound id => "container not found: " ++ id
  | .cancelled => "operation cancelled"
  | .deadlineExceeded => "operation timed out"
  | .decode text => "invalid engine response: " ++ text
  | .api text => "engine error: " ++ text

def isNotFound : EngineError → Bool
  | .notFound _ => true
  | _ => false

def isCancellation : EngineError → Bool
  | .cancelled | .deadlineExceeded => true
  | _ => false

end EngineError

end FleetBoard
