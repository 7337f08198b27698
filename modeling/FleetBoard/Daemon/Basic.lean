import FleetBoard.Json.Shape
import FleetBoard.Text.Form

/-!
# Daemons

A Docker daemon is asked for what is under a path, and answers with a status and a body. A `Talk` is
what comes of asking one or more times, with the requests that reached the daemon on the way.
-/

namespace FleetBoard

/-- A request for what is under a path. -/
structure DaemonRequest where
  path : String
  query : List (String × String) := []
  deriving DecidableEq, Repr

namespace DaemonRequest

def line (r : DaemonRequest) : String :=
  "GET " ++ r.path ++ if r.query.isEmpty then "" else "?" ++ Text.Form.encode r.query

end DaemonRequest

/-- An answer of a daemon. -/
structure DaemonReply where
  status : Nat
  body : List UInt8
  deriving DecidableEq, Repr

namespace DaemonReply

def isSuccess (r : DaemonReply) : Bool := 200 ≤ r.status && r.status < 300

end DaemonReply

/-- A daemon by its answers. Where nobody listens there is none. -/
abbrev Daemon := DaemonRequest → Option DaemonReply

/-- Why a daemon gives no result. -/
inductive DaemonFault where
  /-- Nobody listens. -/
  | unreachable
  /-- The daemon refuses, and says why. -/
  | refused (status : Nat) (message : String)
  /-- The answer cannot be read. -/
  | unreadable (fault : Json.Fault)
  deriving DecidableEq, Repr

namespace DaemonFault

def message : DaemonFault → String
  | .unreachable => "nobody is listening"
  | .refused status message =>
    "Docker responded with status code " ++ toString status ++ ": " ++ message
  | .unreadable .malformed => "the answer is no JSON"
  | .unreadable .cutOff => "the answer is cut off"
  | .unreadable .unexpected => "the answer is not of the expected form"

end DaemonFault

/-- What comes of talking to a daemon, and the requests that it got. -/
structure Talk (α : Type) where
  requests : List DaemonRequest
  result : α

namespace Talk

def map (f : α → β) (t : Talk α) : Talk β := ⟨t.requests, f t.result⟩

end Talk

namespace Daemon

def absent : Daemon := fun _ => none

/-- The document in which a daemon says why it refuses. -/
def refusalShape : Json.Shape := .record [("message", .required, .text)]

/-- What a refusal says: the message of its document, or its whole text if that is no such document.
A text that is cut off cannot be told from either. -/
def refusal (r : DaemonReply) : DaemonFault :=
  let text := Text.lossyString r.body
  if text.isEmpty then .refused r.status ""
  else match Json.readWhole refusalShape.read (Text.utf8String text) with
    | .ok fields => .refused r.status (Json.textAt "message" fields)
    | .error .cutOff => .unreadable .cutOff
    | .error _ => .refused r.status text

/-- Asks for the body under a path. -/
def ask (d : Daemon) (request : DaemonRequest) : Talk (Except DaemonFault (List UInt8)) :=
  match d request with
  | none => ⟨[], .error .unreachable⟩
  | some reply => ⟨[request], if reply.isSuccess then .ok reply.body else .error (refusal reply)⟩

def readBody (shape : Json.Shape) (read : Json → α) (body : List UInt8) : Except DaemonFault α :=
  match Json.readWhole shape.read body with
  | .ok fields => .ok (read fields)
  | .error f => .error (.unreadable f)

def askFor (d : Daemon) (request : DaemonRequest) (shape : Json.Shape) (read : Json → α) :
    Talk (Except DaemonFault α) :=
  (d.ask request).map fun body => body.bind (readBody shape read)

end Daemon

end FleetBoard
