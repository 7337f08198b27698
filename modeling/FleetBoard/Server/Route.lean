import FleetBoard.Server.Message

/-!
# Routes

Which paths the server knows, and which methods they have. Paths match as they are written, escapes
and letter case included; only the identifier of a container is read.
-/

namespace FleetBoard

/-- What a path leads to. The identifier of a container still has its escapes. -/
inductive Route where
  | health
  /-- The containers of all hosts. -/
  | containers
  /-- The usage of many containers. -/
  | stats
  | container (id : List Char)
  | containerStats (id : List Char)
  | containerLogs (id : List Char)
  deriving DecidableEq, Repr

namespace Route

/-- The route of the segments of a path. An identifier at the end of a path is not empty. -/
def ofSegments : List String → Option Route
  | ["", "api", "v1", "health"] => some .health
  | ["", "api", "v1", "containers"] => some .containers
  | ["", "api", "v1", "containers", "stats"] => some .stats
  | ["", "api", "v1", "containers", id] => if id = "" then none else some (.container id.toList)
  | ["", "api", "v1", "containers", id, "stats"] => some (.containerStats id.toList)
  | ["", "api", "v1", "containers", id, "logs", "parsed"] => some (.containerLogs id.toList)
  | _ => none

def ofPath (path : List Char) : Option Route :=
  ofSegments ((Text.splitAll (· == '/') path).map String.ofList)

def methods : Route → List String
  | .stats => ["GET", "HEAD", "POST"]
  | _ => ["GET", "HEAD"]

def allow (r : Route) : String × String := ("allow", ",".intercalate r.methods)

def decodeId? (id : List Char) : Option String :=
  Text.strictString? (Text.unescapeBytes (Text.utf8 id))

end Route

end FleetBoard
