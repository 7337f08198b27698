import FleetBoard.Engine.Error

/-!
# Errors of a fleet
-/

namespace FleetBoard

/-- Why a question to the fleet has no answer. -/
inductive FleetError where
  | unknownHost (name : String)
  | duplicateHost (name : String)
  /-- A task of a fan-out broke down. -/
  | taskFailed (text : String)
  /-- The engine of the host gives no answer. -/
  | engine (error : EngineError)
  deriving DecidableEq, Repr

namespace FleetError

def message : FleetError → String
  | .unknownHost name => "host " ++ name ++ " not found"
  | .duplicateHost name => "host " ++ name ++ " is already registered"
  | .taskFailed text => "fan-out task failed: " ++ text
  | .engine e => e.message

def isNotFound : FleetError → Bool
  | .unknownHost _ => true
  | .engine e => e.isNotFound
  | _ => false

end FleetError

end FleetBoard
