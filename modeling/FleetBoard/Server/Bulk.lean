import FleetBoard.Json.Shape
import FleetBoard.Server.MediaType
import FleetBoard.Server.Message
import FleetBoard.Usage.Sample

/-!
# Requests for many samples

The body of such a request is a JSON document that names containers by their hosts and identifiers.
-/

namespace FleetBoard.Bulk

open Json (Shape)

def bodyLimit : Nat := 2 * 1024 * 1024

/-- What is wrong with a body. -/
inductive BodyFault where
  /-- The request does not say that its body is JSON. -/
  | notJson
  | tooLarge
  /-- The body is no JSON. -/
  | malformed
  /-- The body has another shape. -/
  | unexpected
  deriving DecidableEq, Repr

def BodyFault.message : BodyFault → String
  | .notJson => "Expected request with `Content-Type: application/json`"
  | .tooLarge => "Failed to buffer the request body"
  | .malformed => "Failed to parse the request body as JSON"
  | .unexpected => "Failed to deserialize the JSON body into the target type"

def shape : Shape :=
  .record [("containers", .required,
    .list (.record [("id", .required, .text), ("host", .required, .text)]))]

def containersOf (fields : Json) : List ContainerRef :=
  (Json.listAt "containers" fields).map fun item => ⟨Json.textAt "host" item, Json.textAt "id" item⟩

def saysJson (r : Request) : Bool :=
  match (r.header? "content-type").bind fun text => MediaType.parse? text.toList with
  | some m => m.isJson
  | none => false

/-- The containers that a request names. -/
def read (r : Request) : Except BodyFault (List ContainerRef) :=
  if !saysJson r then .error .notJson
  else if bodyLimit < r.body.length then .error .tooLarge
  else match Json.readWhole shape.read r.body with
    | .ok fields => .ok (containersOf fields)
    | .error .unexpected => .error .unexpected
    | .error _ => .error .malformed

end FleetBoard.Bulk
