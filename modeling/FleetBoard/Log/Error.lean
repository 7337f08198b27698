import FleetBoard.Text.Quoted

/-!
# Errors of reading logs
-/

namespace FleetBoard

/-- What is wrong with the value of an option. -/
inductive OptionFault where
  /-- The text names no level. -/
  | unknownLevel (text : String)
  /-- The text is neither `all` nor a number of lines. -/
  | notATail (text : String)
  /-- Any other reason, in words. -/
  | because (reason : String)
  deriving DecidableEq, Repr

/-- Why logs cannot be read. -/
inductive LogError where
  | invalidOption (name : String) (fault : OptionFault)
  /-- The source failed before anything was passed on. -/
  | source (text : String)
  /-- The consumer of a live stream went away. -/
  | streamClosed
  deriving DecidableEq, Repr

namespace OptionFault

def message : OptionFault → String
  | .unknownLevel text => "unknown level " ++ Text.quoted text
  | .notATail text => "expected a number or \"all\", got " ++ Text.quoted text
  | .because reason => reason

end OptionFault

namespace LogError

def message : LogError → String
  | .invalidOption name fault => "invalid log option " ++ name ++ ": " ++ fault.message
  | .source text => "log source failed: " ++ text
  | .streamClosed => "log stream closed"

end LogError

end FleetBoard
