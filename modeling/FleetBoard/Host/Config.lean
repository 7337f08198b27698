import FleetBoard.Engine.Error
import FleetBoard.Text.Blank

/-!
# Hosts and the host list

A host is a name and the address of its engine. The host list is written as entries `name=url` with
commas between them.
-/

namespace FleetBoard

/-- A host by its name, and where its engine is reached. -/
structure HostConfig where
  name : String
  /-- The address, or `local` for the engine of this machine. -/
  url : String
  deriving DecidableEq, Repr

namespace HostConfig

def localHost : HostConfig := ⟨"local", "local"⟩

def display (h : HostConfig) : String := h.name ++ "=" ++ h.url

/-- The parts of an entry, blanks around them dropped. -/
def parse? (entry : List Char) : Except HostFault HostConfig :=
  match Text.splitFirst (· == '=') entry with
  | none => .error .noSeparator
  | some (name, url) =>
    let name := Text.trim name
    let url := Text.trim url
    if name.isEmpty then .error .emptyName
    else if name.contains ':' then .error .colonInName
    else if url.isEmpty then .error .emptyUrl
    else .ok ⟨String.ofList name, String.ofList url⟩

def parse (entry : String) : Except EngineError HostConfig :=
  match parse? entry.toList with
  | .ok h => .ok h
  | .error fault => .error (.invalidHost entry fault)

/-- The first host whose name one before it has, given the names before. -/
def firstRepeated (names : List String) : List HostConfig → Option HostConfig
  | [] => none
  | h :: hosts =>
    if names.contains h.name then some h else firstRepeated (h.name :: names) hosts

/-- Names must not repeat. -/
def ensureUnique (hosts : List HostConfig) : Except EngineError Unit :=
  match firstRepeated [] hosts with
  | some h => .error (.invalidHost h.display (.duplicate h.name))
  | none => .ok ()

/-- The entries of a host list, without blanks around them; blank ones are passed over. -/
def entries (list : String) : List String :=
  (((Text.splitAll (· == ',') list.toList).map Text.trim).filter fun e => !e.isEmpty).map
    String.ofList

def parseList (list : String) : Except EngineError (List HostConfig) :=
  match (entries list).mapM parse with
  | .error e => .error e
  | .ok hosts =>
    match ensureUnique hosts with
    | .error e => .error e
    | .ok () => .ok hosts

end HostConfig

/-- How an engine is reached. -/
inductive Endpoint where
  /-- By the usual socket of this machine. -/
  | here
  /-- By the socket at a path. -/
  | unix (path : String)
  /-- By plain HTTP. -/
  | http (url : String)
  deriving DecidableEq, Repr

namespace Endpoint

/-- The text before and after the first `://`. -/
def splitScheme : List Char → Option (List Char × List Char)
  | [] => none
  | c :: s =>
    match c, s with
    | ':', '/' :: '/' :: rest => some ([], rest)
    | _, _ => (splitScheme s).map fun (scheme, rest) => (c :: scheme, rest)

def parse (url : String) : Except EngineError Endpoint :=
  if url = "" ∨ url = "local" then .ok .here
  else
    let scheme := splitScheme url.toList
    match scheme.map fun (s, rest) => (String.ofList s, rest) with
    | some ("unix", path) => .ok (.unix (String.ofList path))
    | some ("tcp", _) | some ("http", _) => .ok (.http url)
    | some ("ssh", _) => .error (.unsupportedHost url .ssh)
    | some ("https", _) => .error (.unsupportedHost url .tls)
    | some (s, _) => .error (.unsupportedHost url (.unknownScheme s))
    | none => .error (.unsupportedHost url .noScheme)

end Endpoint

end FleetBoard
