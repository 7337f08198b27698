import FleetBoard.Engine.Memory
import FleetBoard.Proofs.Json.Reading
import FleetBoard.Server.Basic

/-!
# Refused requests

A request can be refused in many places: where its body or its parameters are read, by the fleet, by
an engine, and by the log. What is refused there is told as a JSON error. Before any of these comes
what takes the path and the query apart. An identifier that is no text, or a query that names a host
more than once where one host is asked for, is turned away there, and then the answer is a line of
text.

Each handler is shown to explain whatever it refuses; the server explains it as the handler does.
-/

namespace FleetBoard

namespace Response

/-! ### JSON errors -/

/-- The media types that the headers of a response name. -/
def contentTypes (r : Response) : List String :=
  (r.headers.filter fun h => Request.sameName h.1 "content-type").map (·.2)

/-- A response that says that it is JSON, and nothing else, and whose bytes are read back as an
object with two fields, both of them texts. -/
structure IsJsonError (r : Response) : Prop where
  typed : r.contentTypes = ["application/json"]
  body : ∃ value word message, r.content = .json value ∧
    Json.readWhole Json.Doc.toJson (Text.utf8 value.render) =
      .ok (.obj [("error", .str word), ("message", .str message)])

/-- A response that is a JSON error if it refuses the request. -/
def Explained (r : Response) : Prop := 400 ≤ r.status → r.IsJsonError

theorem isJsonError_ofError (e : ServerError) : (ofError e).IsJsonError where
  typed := rfl
  body := by
    have texts : e.toJson = Json.ofTexts [("error", some e.word), ("message", some e.message)] :=
      rfl
    have order : ¬ "message" < "error" := by decide
    refine ⟨e.toJson, e.word, e.message, rfl, ?_⟩
    rw [texts, Json.readWhole_ofTexts]
    simp only [Json.sortFields, List.map_cons, List.map_nil, List.foldl_cons, List.foldl_nil,
      Json.insertSorted, if_neg order]
    rfl

theorem explained_ofError (e : ServerError) : (ofError e).Explained :=
  fun _ => isJsonError_ofError e

theorem explained_of_granted {r : Response} (granted : r.status < 400) : r.Explained := by
  intro refused
  exact absurd granted (Nat.not_lt.mpr refused)

theorem explained_ok (value : Json) : (ok value).Explained :=
  explained_of_granted (show 200 < 400 by decide)

theorem explained_ofLive (log : LiveLog) : (ofLive log).Explained :=
  explained_of_granted (show 200 < 400 by decide)

theorem not_isJsonError_ofText (status : Nat) (text : String) :
    ¬ (ofText status text).IsJsonError := by
  intro error
  have plain : (ofText status text).contentTypes = ["text/plain; charset=utf-8"] := rfl
  rw [error.typed] at plain
  exact absurd plain (by decide)

/-- Headers that name no media type make no difference. -/
theorem isJsonError_withHeaders {headers : List (String × String)} (r : Response)
    (untyped : ∀ h ∈ headers, Request.sameName h.1 "content-type" = false) :
    (r.withHeaders headers).IsJsonError ↔ r.IsJsonError := by
  have none : headers.filter (fun h => Request.sameName h.1 "content-type") = [] := by
    rw [List.filter_eq_nil_iff]
    intro h inside
    rw [untyped h inside]
    decide
  have types : (r.withHeaders headers).contentTypes = r.contentTypes := by
    rw [contentTypes, withHeaders, List.filter_append, none, List.append_nil, contentTypes]
  exact ⟨fun ⟨typed, body⟩ => ⟨types ▸ typed, body⟩, fun ⟨typed, body⟩ => ⟨types ▸ typed, body⟩⟩

end Response

theorem ServerConfig.untyped_originHeaders (c : ServerConfig) (r : Request) :
    ∀ h ∈ c.originHeaders r, Request.sameName h.1 "content-type" = false := by
  intro h inside
  rw [originHeaders] at inside
  split at inside
  · obtain rfl := List.mem_singleton.mp inside
    exact (by decide : Request.sameName "access-control-allow-origin" "content-type" = false)
  · cases inside

/-- Is a request turned away before it is read, since the identifier in its path is no text, or
since its query names a host more than once? The log takes the first host that is named. -/
def Route.turnsAway (r : Request) : Route → Bool
  | .health | .containers | .stats => false
  | .container id | .containerStats id => (decodeId? id).isNone || Server.repeatsHost r.params
  | .containerLogs id => (decodeId? id).isNone

/-- A request gets from, or posts to, a known path that has this method. -/
structure Request.IsFor (r : Request) (route : Route) : Prop where
  known : Route.ofPath r.path = some route
  method : r.method = "GET" ∨ r.method = "POST"
  served : r.method ∈ route.methods

namespace Server

section Parts

variable {ε : Type} {s : Server ε} {now : Nat} {r : Request}

/-! ### Parts of handlers -/

/-- The answer, if there is one, is explained. -/
def Explains (a : Server ε × Option (Timed Response)) : Prop :=
  ∀ t, a.2 = some t → t.value.Explained

theorem explains_some {response : Response} (explained : response.Explained) :
    Explains (s, some ⟨now, response⟩) := by
  intro t answered
  obtain rfl := Option.some.inj answered
  exact explained

theorem explains_map {respond : α → Timed Response} (explained : ∀ a, (respond a).value.Explained)
    (asked : Option α) : Explains (s, asked.map respond) := by
  intro t answered
  obtain ⟨a, -, rfl⟩ := Option.map_eq_some_iff.mp answered
  exact explained a

theorem explains_afterFleet {respond : Timed α → Timed Response}
    (explained : ∀ a, (respond a).value.Explained) (asked : Fleet ε × Option (Timed α)) :
    Explains (s.afterFleet asked respond) := explains_map explained asked.2

theorem explained_respondWith (show? : α → Json) (t : Timed (Except FleetError α)) :
    (respondWith show? t).value.Explained := by
  rw [respondWith]
  dsimp only
  split
  · apply Response.explained_ok
  · apply Response.explained_ofError

variable {ask : String → Server ε × Option (Timed Response)} {id : List Char}

theorem explains_withHost (once : repeatsHost r.params = false)
    (explained : ∀ host, Explains (ask host)) :
    Explains (s.withHost now r ask) := by
  rw [withHost, once]
  simp only [Bool.false_eq_true, if_false]
  split
  · exact explains_some (Response.explained_ofError _)
  · apply explained

theorem explains_withId (read : (Route.decodeId? id).isNone = false)
    (explained : ∀ id, Explains (ask id)) :
    Explains (s.withId now id ask) := by
  rw [withId]
  split
  · apply explained
  · next unread =>
    rw [unread] at read
    cases read

theorem withId_of_isNone (unread : (Route.decodeId? id).isNone)
    (ask : String → Server ε × Option (Timed Response)) :
    s.withId now id ask = (s, some ⟨now, .ofText 400 "Invalid URL: Invalid UTF-8 in `id`"⟩) := by
  rw [withId, Option.isNone_iff_eq_none.mp unread]

theorem withId_withHost (away : (Route.decodeId? id).isNone || repeatsHost r.params)
    (ask : String → String → Server ε × Option (Timed Response)) :
    ∃ text, s.withId now id (fun id => s.withHost now r (ask id)) =
      (s, some ⟨now, .ofText 400 text⟩) := by
  cases found : Route.decodeId? id with
  | none => exact ⟨_, withId_of_isNone (by rw [found]; rfl) _⟩
  | some name =>
      have again : repeatsHost r.params := by simpa [found] using away
      refine ⟨repeatedHost, ?_⟩
      rw [withId, found]
      dsimp only
      rw [withHost, if_pos again]

end Parts

variable {ε : Type} [ContainerEngine ε] {s : Server ε} {now : Nat} {r : Request}

/-! ### Handlers -/

theorem explains_bulkResponse : Explains (s.bulkResponse now r) := by
  rw [bulkResponse]
  split
  · exact explains_some (Response.explained_ofError _)
  · exact explains_afterFleet (fun t => Response.explained_ok _) _

theorem explains_snapshotResponse (c : ContainerRef) (options : LogOptions) :
    Explains (s, s.snapshotResponse now c options) := by
  apply explains_map
  intro t
  split
  · apply Response.explained_ofError
  · dsimp only
    split
    · apply Response.explained_ok
    · apply Response.explained_ofError

theorem explains_liveResponse (c : ContainerRef) (options : LogOptions) :
    Explains (s, s.liveResponse now c options) := by
  apply explains_map
  intro t
  dsimp only
  split
  · apply Response.explained_ofError
  · apply Response.explained_ofLive

theorem explains_logsResponse (id : String) : Explains (s, s.logsResponse now r id) := by
  rw [logsResponse]
  split
  · exact explains_some (Response.explained_ofError _)
  · split
    · exact explains_some (Response.explained_ofError _)
    · split
      · apply explains_liveResponse
      · apply explains_snapshotResponse

theorem explains_get {route : Route} (read : route.turnsAway r = false) :
    Explains (s.get now r route) := by
  cases route with
  | health => exact explains_some (Response.explained_ok _)
  | containers =>
      apply explains_map
      intro t
      apply Response.explained_ok
  | stats =>
      apply explains_afterFleet
      intro t
      apply Response.explained_ok
  | container id =>
      obtain ⟨isText, once⟩ := Bool.or_eq_false_iff.mp read
      apply explains_withId isText
      intro id
      apply explains_withHost once
      intro host
      exact explains_map (explained_respondWith _) _
  | containerStats id =>
      obtain ⟨isText, once⟩ := Bool.or_eq_false_iff.mp read
      apply explains_withId isText
      intro id
      apply explains_withHost once
      intro host
      exact explains_afterFleet (explained_respondWith _) _
  | containerLogs id =>
      apply explains_withId read
      intro id
      apply explains_logsResponse

theorem get_of_turnsAway {route : Route} (away : route.turnsAway r) :
    ∃ text, s.get now r route = (s, some ⟨now, .ofText 400 text⟩) := by
  cases route with
  | health | containers | stats => cases away
  | container id | containerStats id => exact withId_withHost away _
  | containerLogs id => exact ⟨_, withId_of_isNone away _⟩

/-! ### The server -/

theorem onPath_of_isFor {route : Route} (s : Server ε) (now : Nat) (asks : r.IsFor route) :
    s.onPath now r = s.get now r route ∨ route = .stats ∧
    s.onPath now r = s.bulkResponse now r := by
  obtain ⟨known, method, served⟩ := asks
  rw [onPath, known]
  dsimp only [onRoute]
  rcases method with get | post
  · left
    simp only [get]
  · right
    rw [post] at served
    have stats : route = .stats := by
      cases route with
      | stats => rfl
      | _ => simp [Route.methods] at served
    subst stats
    simp only [post, and_self]

theorem isJsonError_respond {answer : Timed Response}
    (answered : (s.respond now r).2 = some answer) :
    ∃ t, (s.onPath now r).2 = some t ∧ answer.value.status = t.value.status ∧
      (answer.value.IsJsonError ↔ t.value.IsJsonError) := by
  obtain ⟨t, found, rfl⟩ := Option.map_eq_some_iff.mp answered
  exact ⟨t, found, rfl, t.value.isJsonError_withHeaders (s.config.untyped_originHeaders r)⟩

theorem onPath_of_turnsAway {route : Route} (s : Server ε) (now : Nat) (asks : r.IsFor route)
    (away : route.turnsAway r) : ∃ text, s.onPath now r = (s, some ⟨now, .ofText 400 text⟩) := by
  obtain get | ⟨rfl, -⟩ := onPath_of_isFor s now asks
  · rw [get]
    exact get_of_turnsAway away
  · cases away

theorem explains_onPath {route : Route} (s : Server ε) (now : Nat) (asks : r.IsFor route)
    (read : route.turnsAway r = false) : Explains (s.onPath now r) := by
  obtain get | ⟨-, bulk⟩ := onPath_of_isFor s now asks
  · rw [get]
    exact explains_get read
  · rw [bulk]
    exact explains_bulkResponse

/-- On known paths, whatever the query and the body are, a refused request is answered with a JSON
error, unless it is turned away before it is read. A request that is turned away is refused at once,
and the server stays as it is. -/
theorem refusal_isJsonError_iff (s : Server ε) (now : Nat) {route : Route} (asks : r.IsFor route) :
    (∀ answer, (s.respond now r).2 = some answer → 400 ≤ answer.value.status →
      (answer.value.IsJsonError ↔ route.turnsAway r = false)) ∧
    (route.turnsAway r → ∃ response, s.respond now r = (s, some ⟨now, response⟩) ∧
      response.status = 400) := by
  refine ⟨?_, ?_⟩
  · intro answer answered refused
    obtain ⟨t, found, status, same⟩ := isJsonError_respond answered
    rw [same]
    refine ⟨?_, ?_⟩
    · intro error
      rw [Bool.eq_false_iff]
      intro away
      obtain ⟨text, plain⟩ := onPath_of_turnsAway s now asks away
      rw [plain] at found
      obtain rfl := Option.some.inj found
      exact Response.not_isJsonError_ofText 400 text error
    · intro read
      exact explains_onPath s now asks read t found (status ▸ refused)
  · intro away
    obtain ⟨text, plain⟩ := onPath_of_turnsAway s now asks away
    exact ⟨_, by rw [respond, plain]; rfl, rfl⟩

def oneHost : Server MemoryEngine :=
  { fleet := { pool := {
      hosts := [⟨"local", "local"⟩]
      engines := [("local", { containers := [⟨{ id := "web" }, [], none⟩] })] } } }

/-- Asks for samples of the container, and forgets its host. -/
def hostForgotten : Request := { target := "/api/v1/containers/web/stats?tail=5" }

theorem refusal_isJsonError_iff_hostForgotten :
    hostForgotten.IsFor (.containerStats "web".toList) ∧
      ∃ answer, (oneHost.respond 0 hostForgotten).2 = some answer ∧ answer.value.status = 400 ∧
        answer.value.IsJsonError := by
  have asks : hostForgotten.IsFor (.containerStats "web".toList) := ⟨by decide, .inl rfl, by decide⟩
  have read : (Route.containerStats "web".toList).turnsAway hostForgotten = false := by decide
  have answered : (oneHost.respond 0 hostForgotten).2 = some ⟨0,
      (Response.ofError (.missingParameter "host")).withHeaders
        [("access-control-allow-origin", "*")]⟩ := rfl
  have refusal := (refusal_isJsonError_iff oneHost 0 asks).1
  exact ⟨asks, _, answered, rfl, (refusal _ answered (Nat.le_refl 400)).mpr read⟩

/-- Asks for the details of the container, and names its host twice. -/
def hostTwice : Request := { target := "/api/v1/containers/web?host=local&host=local" }

/-- A request of a known path and method whose refusal is a line of text. -/
theorem hostTwice_not_isJsonError :
    hostTwice.IsFor (.container "web".toList) ∧
      ∃ answer, (oneHost.respond 0 hostTwice).2 = some answer ∧ answer.value.status = 400 ∧
        ¬ answer.value.IsJsonError := by
  have asks : hostTwice.IsFor (.container "web".toList) := ⟨by decide, .inl rfl, by decide⟩
  have answered : (oneHost.respond 0 hostTwice).2 = some ⟨0,
      (Response.ofText 400 repeatedHost).withHeaders [("access-control-allow-origin", "*")]⟩ := rfl
  refine ⟨asks, _, answered, rfl, ?_⟩
  intro error
  exact absurd error.typed (by decide)

end Server

end FleetBoard
