import FleetBoard.Fleet.Error
import FleetBoard.Json.Value
import FleetBoard.Log.Error

/-!
# Errors of the server

Whatever goes wrong behind a request, the client gets a status, a word for the kind of error, and
the error in words.
-/

namespace FleetBoard

/-- Why the server does not do what it is asked to. -/
inductive ServerError where
  /-- It cannot listen at its address. -/
  | bindFailed (address text : String)
  | config (text : String)
  /-- A request lacks a parameter. -/
  | missingParameter (name : String)
  | invalidRequest (text : String)
  | notFound (text : String)
  | timeout (text : String)
  /-- An engine fails. -/
  | badGateway (text : String)
  | internal (text : String)
  deriving DecidableEq, Repr

namespace ServerError

def message : ServerError → String
  | .bindFailed address text => "failed to bind to " ++ address ++ ": " ++ text
  | .config text => "invalid configuration: " ++ text
  | .missingParameter name => name ++ " parameter is required"
  | .invalidRequest text => "invalid request: " ++ text
  | .notFound text | .timeout text | .badGateway text => text
  | .internal text => "internal error: " ++ text

def status : ServerError → Nat
  | .missingParameter _ | .invalidRequest _ => 400
  | .notFound _ => 404
  | .timeout _ => 504
  | .badGateway _ => 502
  | .bindFailed _ _ | .config _ | .internal _ => 500

def word : ServerError → String
  | .missingParameter _ | .invalidRequest _ => "invalid_request"
  | .notFound _ => "not_found"
  | .timeout _ => "timeout"
  | .badGateway _ => "engine_error"
  | .bindFailed _ _ | .config _ | .internal _ => "internal_error"

def toJson (e : ServerError) : Json := .obj [("error", .str e.word), ("message", .str e.message)]

def ofEngine (e : EngineError) : ServerError :=
  match e with
  | .notFound _ => .notFound e.message
  | .deadlineExceeded => .timeout e.message
  | .invalidHost _ _ | .unsupportedHost _ _ => .config e.message
  | .connectionFailed _ | .cancelled | .decode _ | .api _ => .badGateway e.message

def ofFleet (e : FleetError) : ServerError :=
  match e with
  | .unknownHost _ => .notFound e.message
  | .engine inner => ofEngine inner
  | .duplicateHost _ => .config e.message
  | .taskFailed _ => .internal e.message

def ofLog (e : LogError) : ServerError :=
  match e with
  | .invalidOption _ _ => .invalidRequest e.message
  | .source _ => .badGateway e.message
  | .streamClosed => .internal e.message

end ServerError

end FleetBoard
