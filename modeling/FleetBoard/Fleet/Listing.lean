import FleetBoard.Engine.Container
import FleetBoard.Engine.Error

/-!
# Lists of containers over all hosts

Every host either lists its containers or fails. The answers are put together one at a time as they
come in; what comes of them does not hang on the order.
-/

namespace FleetBoard

/-- A host that could not be asked, and why. -/
structure HostError where
  host : String
  message : String
  deriving DecidableEq, Repr

/-- The containers of each host that listed them, and the hosts that failed. -/
structure Listing where
  /-- The lists of the hosts, in the order of the hosts' names. -/
  byHost : List (String × List Container) := []
  errors : List HostError := []
  deriving DecidableEq, Repr

/-- What a host answered. -/
abbrev HostAnswer := String × Except EngineError (List Container)

namespace Listing

/-- Puts the list of a host in its place. -/
def insertHost (host : String) (containers : List Container) :
    List (String × List Container) → List (String × List Container)
  | [] => [(host, containers)]
  | (h, cs) :: rest =>
    if host < h then (host, containers) :: (h, cs) :: rest
    else if host = h then (host, containers) :: rest
    else (h, cs) :: insertHost host containers rest

/-- Adds the answer of a host. Its containers are marked with its name. -/
def add (l : Listing) (answer : HostAnswer) : Listing :=
  match answer with
  | (host, .ok containers) =>
    { l with byHost := insertHost host (containers.map fun c => { c with host := host }) l.byHost }
  | (host, .error e) => { l with errors := l.errors ++ [⟨host, e.message⟩] }

/-- Puts the failed hosts into the order of their names. -/
def sortErrors (l : Listing) : Listing :=
  { l with errors := l.errors.mergeSort fun a b => a.host ≤ b.host }

/-- Puts the answers together. -/
def ofAnswers (answers : List HostAnswer) : Listing := (answers.foldl add {}).sortErrors

def containers (l : Listing) : List Container := l.byHost.flatMap (·.2)

end Listing

end FleetBoard
