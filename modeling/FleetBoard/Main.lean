import FleetBoard.CommandLine.Launch

/-!
# The program

Reads the arguments and the environment, looks which sockets there are, and launches.
-/

namespace FleetBoard.Program

def isThere (path : String) : IO Bool := do
  try
    discard <| IO.FS.realPath path
    return true
  catch _ => return false

def environment : IO (List (String × String)) := do
  let names := CommandLine.Setting.all.filterMap CommandLine.Setting.variableName?
  names.filterMapM fun name => do
    return (← IO.getEnv name).map fun value => (name, value)

def run (arguments : List String) : IO UInt32 := do
  let environment ← environment
  let there ← (CommandLine.socketsOf arguments environment).filterM isThere
  let launch := CommandLine.launch there.contains arguments environment
  match CommandLine.exitOf launch with
  | some exit =>
    unless exit.stdout.isEmpty do IO.println exit.stdout
    unless exit.stderr.isEmpty do IO.eprintln exit.stderr
    return exit.code.toUInt32
  | none =>
    IO.println "ready to serve"
    return 0

end FleetBoard.Program

def main (arguments : List String) : IO UInt32 := FleetBoard.Program.run arguments
