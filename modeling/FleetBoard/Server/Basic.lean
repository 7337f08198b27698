import FleetBoard.Fleet.Basic
import FleetBoard.Log.Snapshot
import FleetBoard.Server.Bulk
import FleetBoard.Server.Origin
import FleetBoard.Server.Route

/-!
# The server

The server answers requests about its fleet. A request lives for the time that the settings give it,
a live log as long as the server runs; when the server has stopped, both have ended before they
begin.
-/

namespace FleetBoard

/-- A server. -/
structure Server (ε : Type) where
  config : ServerConfig := {}
  fleet : Fleet ε := {}
  /-- Has it been told to stop? -/
  stopped : Bool := false
  /-- How long it has been running, in seconds. -/
  uptime : Nat := 0

namespace Server

variable {ε : Type} [ContainerEngine ε]

def streamLifetime (s : Server ε) (now : Nat) : Lifetime :=
  { cancelledAt := if s.stopped then some now else none }

def requestLifetime (s : Server ε) (now : Nat) : Lifetime :=
  { s.streamLifetime now with deadline := some (now + s.config.requestTimeout) }

def hostJson (h : HostConfig) : Json := .obj [("name", .str h.name), ("host", .str h.url)]

def hostErrorJson (e : HostError) : Json :=
  .obj [("host", .str e.host), ("message", .str e.message)]

def statsJson (stats : List ContainerStats) : Json :=
  .obj [("stats", .arr (stats.map ContainerStats.toJson))]

/-- A listing as it is shown, with the hosts in the order of registration. -/
def listingJson (hosts : List HostConfig) (l : Listing) : Json :=
  .obj
    [("containers", .arr (l.containers.map Container.toJson)), ("hosts", .arr (hosts.map hostJson)),
     ("hostErrors", .arr (l.errors.map hostErrorJson))]

def respondWith (show? : α → Json) (t : Timed (Except FleetError α)) : Timed Response :=
  ⟨t.moment, match t.value with
    | .ok a => .ok (show? a)
    | .error e => .ofError (.ofFleet e)⟩

def healthResponse (s : Server ε) : Response :=
  .ok (.obj [("status", .str "ok"), ("uptime_secs", .int s.uptime),
    ("hosts", .int s.fleet.hosts.length)])

def listResponse (s : Server ε) (now : Nat) : Option (Timed Response) :=
  (s.fleet.list (s.requestLifetime now) now).map fun t =>
    ⟨t.moment, .ok (listingJson s.fleet.hosts t.value)⟩

/-- The server after its fleet has answered. -/
def afterFleet (s : Server ε) (r : Fleet ε × Option (Timed α))
    (respond : Timed α → Timed Response) :
    Server ε × Option (Timed Response) :=
  ({ s with fleet := r.1 }, r.2.map respond)

def statsResponse (t : Timed (List ContainerStats)) : Timed Response :=
  ⟨t.moment, .ok (statsJson t.value)⟩

def bulkResponse (s : Server ε) (now : Nat) (r : Request) : Server ε × Option (Timed Response) :=
  match Bulk.read r with
  | .error fault => (s, some ⟨now, .ofError (.invalidRequest fault.message)⟩)
  | .ok containers =>
    s.afterFleet (s.fleet.bulkStats (s.requestLifetime now) now containers) statsResponse

/-- The host that pairs of a query name first. An empty name is none. -/
def hostOf (params : List (String × String)) : Except ServerError String :=
  match params.lookup "host" with
  | none | some "" => .error (.missingParameter "host")
  | some host => .ok host

/-- Does the query name a host more than once? -/
def repeatsHost (params : List (String × String)) : Bool :=
  1 < (params.filter fun p => p.1 = "host").length

def repeatedHost : String := "Failed to deserialize query string: duplicate field `host`"

/-- Asks about one container on one host. -/
def withHost (s : Server ε) (now : Nat) (r : Request)
    (ask : String → Server ε × Option (Timed Response)) : Server ε × Option (Timed Response) :=
  if repeatsHost r.params then (s, some ⟨now, .ofText 400 repeatedHost⟩)
  else match hostOf r.params with
    | .error e => (s, some ⟨now, .ofError e⟩)
    | .ok host => ask host

def detailsResponse (s : Server ε) (now : Nat) (c : ContainerRef) : Option (Timed Response) :=
  (s.fleet.inspect (s.requestLifetime now) now c).map
    (respondWith fun d => .obj [("container", d.toJson)])

def snapshotResponse (s : Server ε) (now : Nat) (c : ContainerRef) (options : LogOptions) :
    Option (Timed Response) :=
  let life := s.requestLifetime now
  (s.fleet.openLogs life now c options).map fun t =>
    match t.value with
    | .error e => ⟨t.moment, .ofError (.ofFleet e)⟩
    | .ok feed =>
      let read := feed.readAll life t.moment
      ⟨read.moment, match Snapshot.collect (read.items.map (·.value)) with
        | .ok entries => .ok (Snapshot.toJson entries)
        | .error e => .ofError (.ofEngine e)⟩

def liveResponse (s : Server ε) (now : Nat) (c : ContainerRef) (options : LogOptions) :
    Option (Timed Response) :=
  (s.fleet.openLogs (s.streamLifetime now) now c options).map fun t =>
    ⟨t.moment, match t.value with
      | .error e => .ofError (.ofFleet e)
      | .ok feed => .ofLive ⟨feed, t.moment⟩⟩

/-- The log of a container. The host is looked for first, then the options are read, and only then
is anything asked. -/
def logsResponse (s : Server ε) (now : Nat) (r : Request) (id : String) : Option (Timed Response) :=
  match hostOf r.params with
  | .error e => some ⟨now, .ofError e⟩
  | .ok host =>
    match LogOptions.ofParams (r.params.filter fun p => p.1 ≠ "host") with
    | .error e => some ⟨now, .ofError (.ofLog e)⟩
    | .ok options =>
      if options.follow then s.liveResponse now ⟨host, id⟩ options
      else s.snapshotResponse now ⟨host, id⟩ options

def withId (s : Server ε) (now : Nat) (id : List Char)
    (ask : String → Server ε × Option (Timed Response)) : Server ε × Option (Timed Response) :=
  match Route.decodeId? id with
  | some id => ask id
  | none => (s, some ⟨now, .ofText 400 "Invalid URL: Invalid UTF-8 in `id`"⟩)

def get (s : Server ε) (now : Nat) (r : Request) : Route → Server ε × Option (Timed Response)
  | .health => (s, some ⟨now, s.healthResponse⟩)
  | .containers => (s, s.listResponse now)
  | .stats => s.afterFleet (s.fleet.allRunningStats (s.requestLifetime now) now) statsResponse
  | .container id => s.withId now id fun id => s.withHost now r fun host =>
    (s, s.detailsResponse now ⟨host, id⟩)
  | .containerStats id => s.withId now id fun id => s.withHost now r fun host =>
    s.afterFleet (s.fleet.containerStats (s.requestLifetime now) now ⟨host, id⟩)
      (respondWith fun stats => statsJson [stats])
  | .containerLogs id => s.withId now id fun id => (s, s.logsResponse now r id)

/-- The answer on a known path. A method that the route does not have is answered with those it
has. -/
def onRoute (s : Server ε) (now : Nat) (r : Request) (route : Route) :
    Server ε × Option (Timed Response) :=
  match r.method, route with
  | "GET", route => s.get now r route
  | "HEAD", route =>
    match s.get now r route with
    | (s, t) => (s, t.map fun t => ⟨t.moment, t.value.withoutContent⟩)
  | "POST", .stats => s.bulkResponse now r
  | "OPTIONS", route => (s, some ⟨now, ServerConfig.preflight.withHeaders [route.allow]⟩)
  | _, route => (s, some ⟨now, { status := 405, headers := [route.allow] }⟩)

/-- The answer on any path, without the header for other origins. -/
def onPath (s : Server ε) (now : Nat) (r : Request) : Server ε × Option (Timed Response) :=
  match Route.ofPath r.path with
  | some route => s.onRoute now r route
  | none =>
      (s, some ⟨now, if r.method = "OPTIONS" then ServerConfig.preflight else { status := 404 }⟩)

/-- Answers a request. There is no answer if an engine never gives one and nothing ends the call. -/
def respond (s : Server ε) (now : Nat) (r : Request) : Server ε × Option (Timed Response) :=
  match s.onPath now r with
  | (s', t) => (s', t.map fun t => ⟨t.moment, t.value.withHeaders (s.config.originHeaders r)⟩)

def stop (s : Server ε) : Server ε := { s with stopped := true }

end Server

end FleetBoard
