import FleetBoard.Engine.Basic
import FleetBoard.Log.Relay
import FleetBoard.Server.Error
import FleetBoard.Text.Form

/-!
# Requests and responses

A response has a status, headers, and a content that is either there at once or, for a live log,
comes as the log does. A live log goes on until the server stops.
-/

namespace FleetBoard

/-- A request as it comes in. Of headers with one name the first counts. -/
structure Request where
  method : String := "GET"
  /-- The path, and the query after a question mark. -/
  target : String
  headers : List (String × String) := []
  body : List UInt8 := []
  deriving DecidableEq, Repr

namespace Request

def address (r : Request) : List Char := r.target.toList.takeWhile (· ≠ '#')

def path (r : Request) : List Char := r.address.takeWhile (· ≠ '?')

def query (r : Request) : List Char := (r.address.dropWhile (· ≠ '?')).drop 1

def params (r : Request) : List (String × String) := Text.Form.decode (Text.utf8 r.query)

/-- Two names of headers differ in letter case only. -/
def sameName (a b : String) : Bool := a.toList.map Char.toLower == b.toList.map Char.toLower

def header? (r : Request) (name : String) : Option String :=
  (r.headers.find? fun h => sameName h.1 name).map (·.2)

end Request

/-- A live log that has been opened. -/
structure LiveLog where
  feed : LogFeed
  /-- When it was opened. -/
  opened : Nat

namespace LiveLog

/-- Items with the waits between them, out of items with their moments. -/
def waits (now : Nat) : List (Timed α) → List (Nat × α)
  | [] => []
  | t :: items => (t.moment - now, t.value) :: waits t.moment items

/-- The log as text, until the server stops. -/
def source (log : LiveLog) (stopsAt : Option Nat) : Source :=
  let read := log.feed.readAll { cancelledAt := stopsAt } log.opened
  let last : SourceEnd := match read.ending with
    | .closed => .closed
    | .more | .silent => .silent
  Ndjson.source last ((waits log.opened read.items).map fun (wait, item) =>
    (wait, item.mapError EngineError.message))

/-- The passing on of the log to a client that takes all of it. -/
def relay (log : LiveLog) (stopsAt : Option Nat) : Relay.Report :=
  Relay.run (log.source stopsAt) {} stopsAt log.opened

def bytes (log : LiveLog) (stopsAt : Option Nat) : List UInt8 :=
  (log.relay stopsAt).progress.taken.reverse.flatten

end LiveLog

/-- The content of a response. -/
inductive Content where
  | empty
  | json (value : Json)
  | plain (text : String)
  | live (log : LiveLog)

/-- What the server answers. -/
structure Response where
  status : Nat
  headers : List (String × String) := []
  content : Content := .empty

namespace Response

def ofJson (status : Nat) (value : Json) : Response :=
  ⟨status, [("content-type", "application/json")], .json value⟩

def ok (value : Json) : Response := ofJson 200 value

def ofError (e : ServerError) : Response := ofJson e.status e.toJson

def ofText (status : Nat) (text : String) : Response :=
  ⟨status, [("content-type", "text/plain; charset=utf-8")], .plain text⟩

/-- A response with a live log, which must neither be stored nor taken for anything else. -/
def ofLive (log : LiveLog) : Response :=
  { status := 200
    headers := [("content-type", "application/x-ndjson"), ("cache-control", "no-cache"),
      ("x-content-type-options", "nosniff")]
    content := .live log }

def withHeaders (r : Response) (headers : List (String × String)) : Response :=
  { r with headers := r.headers ++ headers }

def withoutContent (r : Response) : Response := { r with content := .empty }

end Response

end FleetBoard
