import FleetBoard.Daemon.Basic
import FleetBoard.Engine.Container

/-!
# Containers as a daemon describes them

A daemon describes containers in two documents: a list of short records, and a long record of a
single one. Their shapes name more than is read, since a daemon that breaks its own rules anywhere
is not believed.
-/

namespace FleetBoard.Daemon

open Json (Shape)

/-- An object that nobody looks into. -/
def sealedRecord : Shape := .record []

def texts : Shape := .list .text

def stateNames : List String :=
  ["", "created", "running", "paused", "restarting", "removing", "exited", "dead"]

def portShape : Shape :=
  .record
    [("IP", .nullable, .text), ("PrivatePort", .required, .whole 0 65535),
     ("PublicPort", .nullable, .whole 0 65535),
     ("Type", .nullable, .oneOf ["", "tcp", "udp", "sctp"])]

def summaryShape : Shape :=
  .optionalFields
    [("Id", .text), ("Names", texts), ("Image", .text), ("ImageID", .text), ("Command", .text),
     ("Created", .signed), ("Ports", .list portShape), ("SizeRw", .signed), ("SizeRootFs", .signed),
     ("Labels", .map .text), ("State", .text), ("Status", .text), ("HostConfig", sealedRecord),
     ("NetworkSettings", sealedRecord), ("Mounts", .list sealedRecord)]

/-- The container of a short record. What is missing is empty. -/
def containerOf (fields : Json) : Container where
  id := Json.textAt "Id" fields
  names := Json.textsAt "Names" fields
  image := Json.textAt "Image" fields
  imageId := Json.textAt "ImageID" fields
  command := Json.textAt "Command" fields
  created := Json.intAt "Created" fields
  state := Json.textAt "State" fields
  status := Json.textAt "Status" fields
  labels := Labels.ofPairs (Json.pairsAt "Labels" fields)

/-- The containers of a list of short records. -/
def containersOf : Json → List Container
  | .arr items => items.map containerOf
  | _ => []

def stateShape : Shape :=
  .optionalFields
    [("Status", .oneOf stateNames), ("Running", .flag), ("Paused", .flag), ("Restarting", .flag),
     ("OOMKilled", .flag), ("Dead", .flag), ("Pid", .signed), ("ExitCode", .signed),
     ("Error", .text), ("StartedAt", .text), ("FinishedAt", .text), ("Health", sealedRecord)]

def configShape : Shape :=
  .optionalFields
    [("Hostname", .text), ("Domainname", .text), ("User", .text), ("AttachStdin", .flag),
     ("AttachStdout", .flag), ("AttachStderr", .flag), ("ExposedPorts", .map .anything),
     ("Tty", .flag), ("OpenStdin", .flag), ("StdinOnce", .flag), ("Env", texts), ("Cmd", texts),
     ("Healthcheck", sealedRecord), ("ArgsEscaped", .flag), ("Image", .text),
     ("Volumes", .map .anything), ("WorkingDir", .text), ("Entrypoint", texts),
     ("NetworkDisabled", .flag), ("MacAddress", .text), ("OnBuild", texts), ("Labels", .map .text),
     ("StopSignal", .text), ("StopTimeout", .signed), ("Shell", texts)]

def detailsShape : Shape :=
  .optionalFields
    [("Id", .text), ("Created", .text), ("Path", .text), ("Args", texts), ("State", stateShape),
     ("Image", .text), ("ResolvConfPath", .text), ("HostnamePath", .text), ("HostsPath", .text),
     ("LogPath", .text), ("Name", .text), ("RestartCount", .signed), ("Driver", .text),
     ("Platform", .text), ("MountLabel", .text), ("ProcessLabel", .text),
     ("AppArmorProfile", .text), ("ExecIDs", texts), ("HostConfig", sealedRecord),
     ("GraphDriver", sealedRecord), ("SizeRw", .signed), ("SizeRootFs", .signed),
     ("Mounts", .list sealedRecord), ("Config", configShape), ("NetworkSettings", sealedRecord)]

/-- The record under a name; an absent one and null have no fields. -/
def recordAt (name : String) (fields : Json) : Json := (fields.field? name).getD .null

/-- The details of a long record. What is missing is empty. -/
def detailsOf (fields : Json) : Details :=
  let config := recordAt "Config" fields
  { id := Json.textAt "Id" fields
    name := plainName (Json.textAt "Name" fields)
    image := Json.textAt "Image" config
    state := Json.textAt "Status" (recordAt "State" fields)
    created := match fields.field? "Created" with
      | some (.str t) => some t
      | _ => none
    restartCount := Json.intAt "RestartCount" fields
    labels := Labels.ofPairs (Json.pairsAt "Labels" config) }

end FleetBoard.Daemon
