import FleetBoard.Server.Config
import FleetBoard.Server.Message

/-!
# Pages of other origins

A browser lets a page use a server of another origin only if the server says so, in a header of
every response and in the answer to a preflight.
-/

namespace FleetBoard

namespace ServerConfig

def isHeaderValue (text : String) : Bool :=
  text.toList.all fun c => c = '\t' || (0x20 ≤ c.toNat && c.toNat ≠ 0x7f)

/-- The origin that may use the answer to a request: any, or that of the request if it is one of
those in the settings. -/
def allowedOrigin (c : ServerConfig) (r : Request) : Option String :=
  if c.origins.isEmpty then some "*"
  else match r.header? "origin" with
    | some origin => if (c.origins.filter isHeaderValue).contains origin then some origin else none
    | none => none

/-- The header that says which origin may use the answer. -/
def originHeaders (c : ServerConfig) (r : Request) : List (String × String) :=
  match c.allowedOrigin r with
  | some origin => [("access-control-allow-origin", origin)]
  | none => []

/-- The answer to a preflight, which is the same on all paths. -/
def preflight : Response where
  status := 200
  headers := [("access-control-allow-methods", "*"), ("access-control-allow-headers", "*")]

end ServerConfig

end FleetBoard
