import FleetBoard.Json.Value
import FleetBoard.Text.Blank

/-!
# Records of containers
-/

namespace FleetBoard

/-- Names and values, in the order of the names. -/
abbrev Labels := List (String × String)

/-- Puts a label in its place; one of the same name is replaced. -/
def Labels.insert (labels : Labels) (name value : String) : Labels :=
  match labels with
  | [] => [(name, value)]
  | (n, v) :: rest =>
    if name < n then (name, value) :: (n, v) :: rest
    else if name = n then (name, value) :: rest
    else (n, v) :: Labels.insert rest name value

/-- Labels out of pairs in any order, where of two with one name the later counts. -/
def Labels.ofPairs (pairs : List (String × String)) : Labels :=
  pairs.foldl (fun labels p => Labels.insert labels p.1 p.2) []

def Labels.toJson (labels : Labels) : Json := .obj (labels.map fun (n, v) => (n, .str v))

/-- A container in a list. -/
structure Container where
  id : String := ""
  /-- Names, each with a leading slash. -/
  names : List String := []
  image : String := ""
  imageId : String := ""
  command : String := ""
  /-- Seconds since the start of 1970. -/
  created : Int := 0
  /-- One word, such as `running`. -/
  state : String := ""
  /-- The state as it is told to people. -/
  status : String := ""
  labels : Labels := []
  /-- The name of the host that listed it. -/
  host : String := ""
  deriving DecidableEq, Repr

namespace Container

def isRunning (c : Container) : Bool := c.state = "running"

/-- All fields; labels only if there are any. -/
def toJson (c : Container) : Json :=
  .obj (
    [("id", .str c.id), ("names", .arr (c.names.map Json.str)), ("image", .str c.image),
     ("image_id", .str c.imageId), ("command", .str c.command), ("created", .int c.created),
     ("state", .str c.state), ("status", .str c.status)] ++
    (if c.labels.isEmpty then [] else [("labels", Labels.toJson c.labels)]) ++
    [("host", .str c.host)])

end Container

/-- A container looked at by itself. -/
structure Details where
  id : String := ""
  /-- The first name, without leading slashes. -/
  name : String := ""
  image : String := ""
  state : String := ""
  /-- The time of creation as the engine writes it. -/
  created : Option String := none
  restartCount : Int := 0
  labels : Labels := []
  /-- The name of the host it lives on. -/
  host : String := ""
  deriving DecidableEq, Repr

namespace Details

def toJson (d : Details) : Json :=
  .obj
    [("id", .str d.id), ("name", .str d.name), ("image", .str d.image), ("state", .str d.state),
     ("created", match d.created with
      | some t => .str t
      | none => .null),
     ("restart_count", .int d.restartCount), ("labels", Labels.toJson d.labels),
     ("host", .str d.host)]

end Details

def plainName (name : String) : String := String.ofList (name.toList.dropWhile (· == '/'))

end FleetBoard
