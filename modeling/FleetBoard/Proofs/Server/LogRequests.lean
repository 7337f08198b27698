import FleetBoard.Engine.Memory
import FleetBoard.Proofs.Call.Guarded
import FleetBoard.Proofs.Fleet.Pool
import FleetBoard.Proofs.Log.LivePath
import FleetBoard.Proofs.Log.Overriding
import FleetBoard.Server.Basic

/-!
# Requests for the log of a container

Much can be wrong with such a request at once, and the answer tells of one thing: the first that
stands in its way. The query is looked at before the fleet is (`AnswersAlone`), the host before its
engine, the opening of the log before its content (`AnswersOpened`). A log that is read at once is
answered only when its end is reached, so a failure in it leaves nothing of what was read before;
one that is followed has been answered by then.
-/

namespace FleetBoard

/-! ### The content of a live log -/

namespace LiveLog

variable {log : LiveLog}

theorem map_snd_waits {α : Type} (now : Nat) (items : List (Timed α)) :
    (waits now items).map (·.2) = items.map (·.value) := by
  induction items generalizing now with
  | nil => rfl
  | cons t items ih => rw [waits, List.map_cons, List.map_cons, ih]

/-- Items without a failure are frames that arrive. -/
theorem exists_arriving {items : List (Nat × Except EngineError Frame)} {frames : List Frame}
    (good : items.map (·.2) = frames.map .ok) :
    ∃ timed, (items.map fun t => (t.1, t.2.mapError EngineError.message)) = Ndjson.arriving timed ∧
      timed.map (·.2) = frames := by
  induction items generalizing frames with
  | nil =>
      obtain rfl : frames = [] := List.map_eq_nil_iff.mp good.symm
      exact ⟨[], rfl, rfl⟩
  | cons t items ih =>
      obtain ⟨f, others, rfl, same, rest⟩ := List.map_eq_cons_iff.mp good.symm
      obtain ⟨timed, arrive, map⟩ := ih rest.symm
      obtain ⟨wait, item⟩ := t
      cases same
      refine ⟨(wait, f) :: timed, ?_, ?_⟩
      · rw [List.map_cons, arrive]
        rfl
      · rw [List.map_cons, map]

theorem bytes_of_source {source : Source} (same : log.source none = source)
    (answers : source.ending ≠ .silent) :
    log.bytes none = source.bytes := by
  subst same
  exact (Relay.run_of_steady Relay.Sink.steady_default _ log.opened answers).2

/-- What is brought by a log that is followed for as long as the server runs: all entries if it
closes, and those that were complete before if it fails. -/
structure Brings (log : LiveLog) : Prop where
  whole : ∀ frames : List Frame, (log.feed.readAll {} log.opened).items.map (·.value) =
    frames.map .ok →
    (log.feed.readAll {} log.opened).ending = .closed →
    log.bytes none = Ndjson.encode (LineDecoder.decode frames)
  broken : ∀ (frames : List Frame) e after,
    (log.feed.readAll {} log.opened).items.map (·.value) = frames.map .ok ++ .error e :: after →
    log.bytes none = Ndjson.encode (LineDecoder.completed frames)

theorem brings (log : LiveLog) : log.Brings := by
  refine ⟨?_, ?_⟩
  · intro frames good closed
    rw [← map_snd_waits log.opened] at good
    obtain ⟨timed, arrive, rfl⟩ := exists_arriving good
    have source : log.source none = Ndjson.source .closed (Ndjson.arriving timed) := by
      rw [LiveLog.source]
      dsimp only
      rw [closed, arrive]
    obtain ⟨bytes, ending⟩ := Ndjson.sourceFrom_arriving {} 0 timed
    rw [bytes_of_source source fun silent => nomatch ending.symm.trans silent]
    exact bytes
  · intro frames e after fails
    rw [← map_snd_waits log.opened, List.map_eq_append_iff] at fails
    obtain ⟨before, rest, whole, good, bad⟩ := fails
    obtain ⟨⟨wait, item⟩, others, rfl, same, -⟩ := List.map_eq_cons_iff.mp bad
    cases same
    obtain ⟨timed, arrive, rfl⟩ := exists_arriving good
    obtain ⟨last, later, source⟩ : ∃ last later, log.source none =
        Ndjson.source last (Ndjson.arriving timed ++ (wait, .error e.message) :: later) := by
      rw [LiveLog.source]
      dsimp only
      rw [whole, List.map_append, arrive]
      exact ⟨_, _, rfl⟩
    obtain ⟨bytes, ending⟩ := Ndjson.sourceFrom_failing {} 0 last timed wait e.message later
    rw [bytes_of_source source fun silent => nomatch ending.symm.trans silent]
    exact bytes

end LiveLog

/-! ### Responses -/

namespace Response

variable {r : Response} {status : Nat} {type : String} {content : Content}

/-- A response with a status and a content of a media type. -/
structure Holds (r : Response) (status : Nat) (type : String) (content : Content) : Prop where
  status : r.status = status
  typed : ("content-type", type) ∈ r.headers
  content : r.content = content

/-- A response that refuses a request with a status: it holds why, and nothing else. -/
def Refuses (r : Response) (status : Nat) (why : ServerError) : Prop :=
  r.Holds status "application/json" (.json why.toJson)

theorem Holds.withHeaders (holds : r.Holds status type content) (headers : List (String × String)) :
    (r.withHeaders headers).Holds status type content :=
  ⟨holds.status, List.mem_append_left headers holds.typed, holds.content⟩

theorem refuses_ofError (e : ServerError) : (ofError e).Refuses e.status e :=
  ⟨rfl, List.mem_singleton_self _, rfl⟩

theorem holds_ok (value : Json) : (ok value).Holds 200 "application/json" (.json value) :=
  ⟨rfl, List.mem_singleton_self _, rfl⟩

theorem holds_ofLive (log : LiveLog) : (ofLive log).Holds 200 "application/x-ndjson" (.live log) :=
  ⟨rfl, List.mem_cons_self, rfl⟩

end Response

/-- The status that is answered when an engine fails. -/
def EngineError.status : EngineError → Nat
  | .notFound _ => 404
  | .deadlineExceeded => 504
  | .connectionFailed _ | .cancelled | .decode _ | .api _ => 502
  | .invalidHost _ _ | .unsupportedHost _ _ => 500

theorem EngineError.status_ofEngine (e : EngineError) :
    (ServerError.ofEngine e).status = e.status := by
  cases e <;> rfl

/-- Options that cannot be read are the fault of the request. -/
theorem ServerError.status_of_ofParams {params : List (String × String)} {e : LogError}
    (misread : LogOptions.ofParams params = .error e) : (ServerError.ofLog e).status = 400 := by
  by_cases good : LogOptions.IsTail (LogOptions.overlay {} (LogOptions.lastGiven params)).tail
  · cases (LogOptions.ofParams_of_isTail good).symm.trans misread
  · cases (LogOptions.ofParams_of_not_isTail good).symm.trans misread
    rfl

/-! ### Queries -/

namespace Request

/-- A request for the log of a container. -/
structure GetsLog (r : Request) (id : String) : Prop where
  method : r.method = "GET"
  path : ∃ segment, Route.ofPath r.path = some (.containerLogs segment) ∧
    Route.decodeId? segment = some id

/-- The value of the first pair of a query that names a host. -/
def namedHost? (r : Request) : Option String := (r.params.find? fun p => p.1 = "host").map (·.2)

/-- The pairs of a query that do not name a host. -/
def logParams (r : Request) : List (String × String) := r.params.filter fun p => p.1 ≠ "host"

/-- A query that names a host and has options that can be read. -/
structure Reads (r : Request) (host : String) (options : LogOptions) : Prop where
  named : r.namedHost? = some host
  filled : host ≠ ""
  read : LogOptions.ofParams r.logParams = .ok options

variable {r : Request} {host : String}

theorem namedHost?_eq_lookup (r : Request) : r.namedHost? = r.params.lookup "host" := by
  rw [namedHost?]
  induction r.params with
  | nil => rfl
  | cons p params ih =>
      obtain ⟨name, value⟩ := p
      rw [List.find?_cons, List.lookup_cons, ← ih]
      by_cases same : name = "host"
      · simp [same]
      · simp [same, beq_false_of_ne (Ne.symm same)]

theorem hostOf_of_hostless (hostless : r.namedHost? = none ∨ r.namedHost? = some "") :
    Server.hostOf r.params = .error (.missingParameter "host") := by
  rw [namedHost?_eq_lookup] at hostless
  rw [Server.hostOf]
  obtain missing | empty := hostless
  · rw [missing]
  · rw [empty]
    rfl

theorem hostOf_of_named (named : r.namedHost? = some host) (filled : host ≠ "") :
    Server.hostOf r.params = .ok host := by
  rw [namedHost?_eq_lookup] at named
  rw [Server.hostOf, named]
  split
  · next missing => cases missing
  · next empty => exact absurd (Option.some.inj empty) filled
  · next other _ same => rw [Option.some.inj same]

end Request

/-! ### Answers -/

namespace Server

variable {ε : Type} {s : Server ε} {now m : Nat} {r : Request} {id host : String}
    {options : LogOptions}

/-- A request that is not for a live log ends. -/
theorem exists_endsAt_requestLifetime (s : Server ε) (now : Nat) :
    ∃ ending, (s.requestLifetime now).endsAt = some ending := by
  rw [requestLifetime, streamLifetime, Lifetime.endsAt]
  dsimp only
  split
  · exact ⟨_, rfl⟩
  · exact ⟨_, rfl⟩

/-- The lifetime of a log that is opened. -/
def logLifetime (s : Server ε) (now : Nat) (options : LogOptions) : Lifetime :=
  if options.follow then s.streamLifetime now else s.requestLifetime now

theorem logLifetime_of_follow (follows : options.follow = true) :
    s.logLifetime now options = s.streamLifetime now := if_pos follows

theorem logLifetime_of_left (left : options.follow = false) :
    s.logLifetime now options = s.requestLifetime now := by
  apply if_neg
  rw [left]
  exact Bool.false_ne_true

/-- The same server with another fleet, whose engines may be of another kind. -/
def withFleet (s : Server ε) {ε' : Type} (fleet : Fleet ε') : Server ε' :=
  ⟨s.config, fleet, s.stopped, s.uptime⟩

/-- A request is answered with such a response by the server alone: at once, and in the same way
whatever its fleet is, none of whose engines is asked. -/
def AnswersAlone (s : Server ε) (now : Nat) (r : Request) (such : Response → Prop) : Prop :=
  ∃ response, (∀ (ε' : Type) [ContainerEngine ε'] (fleet : Fleet ε'),
    (s.withFleet fleet).respond now r = (s.withFleet fleet, some ⟨now, response⟩)) ∧ such response

variable [ContainerEngine ε]

/-- A request is answered at a moment with such a response, and the server stays as it was. -/
def AnswersAt (s : Server ε) (now : Nat) (r : Request) (m : Nat) (such : Response → Prop) : Prop :=
  ∃ response, s.respond now r = (s, some ⟨m, response⟩) ∧ such response

/-- What comes of a log that is read at once: all its entries if there is no failure in it, and the
first of its failures if there is one. -/
structure AnswersRead (s : Server ε) (now : Nat) (r : Request)
    (read : Reading (Except EngineError Frame)) :
    Prop where
  whole : ∀ frames : List Frame, read.items.map (·.value) = frames.map .ok →
    s.AnswersAt now r read.moment
    (·.Holds 200 "application/json" (.json (Snapshot.toJson (LineDecoder.decode frames))))
  broken : ∀ (frames : List Frame) e after, read.items.map (·.value) =
    frames.map .ok ++ .error e :: after →
    s.AnswersAt now r read.moment (·.Refuses e.status (.ofEngine e))

/-- What comes of a request once the host has been asked to open the log. A log that is followed is
answered when it is opened, whatever it brings later. -/
structure AnswersOpened (s : Server ε) (now : Nat) (r : Request) (options : LogOptions)
    (opening : Option (Timed (Except EngineError LogFeed))) : Prop where
  unopened : ∀ m e, opening = some ⟨m, .error e⟩ →
    s.AnswersAt now r m (·.Refuses e.status (.ofEngine e))
  followed : options.follow = true → ∀ m feed, opening = some ⟨m, .ok feed⟩ →
    s.AnswersAt now r m (·.Holds 200 "application/x-ndjson" (.live ⟨feed, m⟩)) ∧
    LiveLog.Brings ⟨feed, m⟩
  collected : options.follow = false → ∀ m feed, opening = some ⟨m, .ok feed⟩ →
    let read := feed.readAll (s.requestLifetime now) m
    s.AnswersRead now r read ∧ (feed.Bounded → read.ending = .closed)
  endless : opening = none → options.follow = true ∧ s.respond now r = (s, none)

/-- What comes of a request for a log, by what stands in its way first: that it names no host, that
its options cannot be read, that there is no such host, and what comes of the opening of the log. -/
structure AnswersLog (s : Server ε) (now : Nat) (r : Request) (id : String) : Prop where
  hostless : r.namedHost? = none ∨ r.namedHost? = some "" →
    s.AnswersAlone now r (·.Refuses 400 (.missingParameter "host"))
  misread : ∀ host e, r.namedHost? = some host → host ≠ "" →
    LogOptions.ofParams r.logParams = .error e →
    s.AnswersAlone now r (·.Refuses 400 (.ofLog e))
  unregistered : ∀ host options, r.Reads host options → s.fleet.pool.find? host = none →
    s.AnswersAt now r now (·.Refuses 404 (.ofFleet (.unknownHost host)))
  registered : ∀ host options engine, r.Reads host options → s.fleet.pool.find? host = some engine →
    s.AnswersOpened now r options
      ((s.logLifetime now options).run now (ContainerEngine.readLogs engine id options))

/-! ### The handler -/

theorem respond_of_getsLog (s : Server ε) (now : Nat) (asks : r.GetsLog id) :
    s.respond now r =
      (s, (s.logsResponse now r id).map fun t =>
        ⟨t.moment, t.value.withHeaders (s.config.originHeaders r)⟩) := by
  obtain ⟨method, segment, path, read⟩ := asks
  have handled : s.onPath now r = (s, s.logsResponse now r id) := by
    rw [onPath, path]
    simp only [onRoute, method, get, withId, read]
  rw [respond, handled]

theorem answersAt_of_logsResponse {response : Response} {status : Nat} {type : String}
    {content : Content} (asks : r.GetsLog id) (made : s.logsResponse now r id = some ⟨m, response⟩)
    (holds : response.Holds status type content) :
    s.AnswersAt now r m (·.Holds status type content) := by
  refine ⟨_, ?_, holds.withHeaders (s.config.originHeaders r)⟩
  rw [respond_of_getsLog s now asks, made]
  rfl

omit [ContainerEngine ε] in
/-- An error that the handler tells before it asks its fleet is told by the server alone. -/
theorem answersAlone_of_logsResponse {e : ServerError} {status : Nat} (asks : r.GetsLog id)
    (made : ∀ (ε' : Type) [ContainerEngine ε'] (other : Server ε'),
      other.logsResponse now r id = some ⟨now, .ofError e⟩) (same : e.status = status) :
    s.AnswersAlone now r (·.Refuses status e) := by
  subst same
  refine ⟨_, ?_, (Response.refuses_ofError e).withHeaders (s.config.originHeaders r)⟩
  intro ε' _ fleet
  rw [respond_of_getsLog _ now asks, made]
  rfl

theorem openLogs_of_known {f : Fleet ε} {engine : ε} (known : f.pool.find? host = some engine)
    (life : Lifetime) (now : Nat) (id : String) (options : LogOptions) :
    f.openLogs life now ⟨host, id⟩ options =
      (life.run now (ContainerEngine.readLogs engine id options)).map fun t =>
        ⟨t.moment, t.value.mapError FleetError.engine⟩ := by
  rw [Fleet.openLogs]
  dsimp only
  rw [HostPool.engine_eq_ok.mpr known]

theorem openLogs_of_unknown {f : Fleet ε} (unknown : f.pool.find? host = none) (life : Lifetime)
    (now : Nat) (id : String) (options : LogOptions) :
    f.openLogs life now ⟨host, id⟩ options = some ⟨now, .error (.unknownHost host)⟩ := by
  rw [Fleet.openLogs]
  dsimp only
  rw [HostPool.engine_eq_error unknown]

theorem logsResponse_of_reads (s : Server ε) (now : Nat) (reads : r.Reads host options)
    (id : String) :
    s.logsResponse now r id =
      if options.follow then s.liveResponse now ⟨host, id⟩ options
      else s.snapshotResponse now ⟨host, id⟩ options := by
  have params : LogOptions.ofParams (r.params.filter fun p => p.1 ≠ "host") = .ok options :=
    reads.read
  rw [logsResponse, Request.hostOf_of_named reads.named reads.filled]
  dsimp only
  rw [params]

/-- What the handler answers if the log is not opened is the same for both kinds of logs. -/
theorem logsResponse_of_error {e : FleetError} (reads : r.Reads host options)
    (fails : s.fleet.openLogs (s.logLifetime now options) now ⟨host, id⟩ options =
      some ⟨m, .error e⟩) :
    s.logsResponse now r id = some ⟨m, .ofError (.ofFleet e)⟩ := by
  rw [logsResponse_of_reads s now reads]
  cases follows : options.follow with
  | true =>
      rw [logLifetime_of_follow follows] at fails
      rw [if_pos rfl, liveResponse, fails]
      rfl
  | false =>
      rw [logLifetime_of_left follows] at fails
      rw [if_neg Bool.false_ne_true, snapshotResponse, fails]
      rfl

theorem answersAt_of_ofError {e : ServerError} {status : Nat} (asks : r.GetsLog id)
    (made : s.logsResponse now r id = some ⟨m, .ofError e⟩) (same : e.status = status) :
    s.AnswersAt now r m (·.Refuses status e) :=
  answersAt_of_logsResponse asks made (same ▸ Response.refuses_ofError e)

/-- A log that is read at once is answered when its end is reached. -/
theorem answersRead_of_opened {feed : LogFeed} (asks : r.GetsLog id) (reads : r.Reads host options)
    (left : options.follow = false)
    (opened : s.fleet.openLogs (s.requestLifetime now) now ⟨host, id⟩ options =
      some ⟨m, .ok feed⟩) :
    s.AnswersRead now r (feed.readAll (s.requestLifetime now) m) := by
  have handled := logsResponse_of_reads s now reads id
  rw [left, if_neg Bool.false_ne_true, snapshotResponse, opened] at handled
  refine ⟨?_, ?_⟩
  · intro frames good
    simp only [Option.map_some, good, Snapshot.collect_ok] at handled
    exact answersAt_of_logsResponse asks handled (Response.holds_ok _)
  · intro frames e after fails
    simp only [Option.map_some, fails, Snapshot.collect_error] at handled
    exact answersAt_of_ofError asks handled e.status_ofEngine

/-- A request that asks an engine is answered as the opening of the log goes. -/
theorem answersOpened_of_known {engine : ε} (asks : r.GetsLog id) (reads : r.Reads host options)
    (known : s.fleet.pool.find? host = some engine) :
    s.AnswersOpened now r options
      ((s.logLifetime now options).run now (ContainerEngine.readLogs engine id options)) := by
  have opens := openLogs_of_known known (s.logLifetime now options) now id options
  refine ⟨?_, ?_, ?_, ?_⟩
  · intro m e fails
    rw [fails] at opens
    exact answersAt_of_ofError asks (logsResponse_of_error reads opens) e.status_ofEngine
  · intro follows m feed opened
    refine ⟨?_, LiveLog.brings _⟩
    rw [opened, logLifetime_of_follow follows] at opens
    have made : s.logsResponse now r id = some ⟨m, .ofLive ⟨feed, m⟩⟩ := by
      rw [logsResponse_of_reads s now reads, if_pos follows, liveResponse, opens]
      rfl
    exact answersAt_of_logsResponse asks made (Response.holds_ofLive _)
  · intro left m feed opened
    rw [opened, logLifetime_of_left left] at opens
    refine ⟨answersRead_of_opened asks reads left opens, ?_⟩
    intro bounded
    obtain ⟨ending, ends⟩ := s.exists_endsAt_requestLifetime now
    exact bounded.ending_readAll ends m
  · intro endless
    rw [endless] at opens
    obtain ⟨-, unending⟩ := Lifetime.run_eq_none_iff.mp endless
    cases follows : options.follow with
    | false =>
        obtain ⟨ending, ends⟩ := s.exists_endsAt_requestLifetime now
        rw [logLifetime_of_left follows, ends] at unending
        cases unending
    | true =>
        refine ⟨rfl, ?_⟩
        rw [logLifetime_of_follow follows] at opens
        rw [respond_of_getsLog s now asks, logsResponse_of_reads s now reads, if_pos follows,
          liveResponse, opens]
        rfl

/-- Whatever a request for the log of a container asks and names, and whatever engines there are,
the answer tells of the first thing that stands in its way. Without a host, or with options that
cannot be read, the host known or not, the server refuses it alone. After that come an unknown host,
and the failure of its engine to open the log in time or at all. A log that is followed is granted
as soon as it is open, and brings what is complete before it fails, if it does; one that is read at
once is granted if it has no failure, and else its first failure is all that is told. -/
theorem logs_answered_in_order (s : Server ε) (now : Nat) (asks : r.GetsLog id) :
    s.AnswersLog now r id := by
  refine ⟨?_, ?_, ?_, ?_⟩
  · intro hostless
    refine answersAlone_of_logsResponse asks ?_ rfl
    intro _ _ other
    rw [logsResponse, Request.hostOf_of_hostless hostless]
  · rintro host e named filled misread
    have params : LogOptions.ofParams (r.params.filter fun p => p.1 ≠ "host") = .error e := misread
    refine answersAlone_of_logsResponse asks ?_ (ServerError.status_of_ofParams misread)
    intro _ _ other
    rw [logsResponse, Request.hostOf_of_named named filled]
    dsimp only
    rw [params]
  · intro host options reads unknown
    have nowhere := openLogs_of_unknown unknown (s.logLifetime now options) now id options
    exact answersAt_of_ofError asks (logsResponse_of_error reads nowhere) rfl
  · intro host options engine reads known
    exact answersOpened_of_known asks reads known

def oneLine : Server MemoryEngine :=
  { fleet := { pool := {
      hosts := [⟨"edge", "local"⟩]
      engines :=
        [("edge", { containers := [⟨{ id := "web" }, [⟨.stdout, [0x61, 0x0a]⟩], none⟩] })] } } }

/-- Names a host that is not there first, and then one that is, and asks for no number of lines. -/
def ghostFirst : Request :=
  { target := "/api/v1/containers/web/logs/parsed?host=ghost&tail=abc&host=edge" }

/-- Names the host first that is there. -/
def edgeFirst : Request :=
  { target := "/api/v1/containers/web/logs/parsed?tail=1&host=edge&colour=&host=ghost" }

/-- The tail is refused before the host is looked for, and only the first host counts. Its log is
read to the end. -/
theorem logs_answered_in_order_hostTwice :
    ghostFirst.GetsLog "web" ∧ edgeFirst.GetsLog "web" ∧
      oneLine.AnswersAlone 0 ghostFirst
        (·.Refuses 400 (.ofLog (.invalidOption "tail" (.notATail "abc")))) ∧
      ∃ read : Reading (Except EngineError Frame), read.ending = .closed ∧ read.moment = 0 ∧
        oneLine.AnswersAt 0 edgeFirst read.moment
          (·.Holds 200 "application/json"
            (.json (Snapshot.toJson [LogEntry.classify .stdout "a"]))) := by
  have first : ghostFirst.GetsLog "web" := ⟨rfl, "web".toList, by decide, by decide⟩
  have second : edgeFirst.GetsLog "web" := ⟨rfl, "web".toList, by decide, by decide⟩
  have reads : edgeFirst.Reads "edge" { tail := "1" } := ⟨by decide, by decide, by decide⟩
  refine ⟨first, second, ?_, ?_⟩
  · exact (logs_answered_in_order oneLine 0 first).misread "ghost" _ (by decide) (by decide)
      (by decide)
  · have opened := (logs_answered_in_order oneLine 0 second).registered "edge" _ _ reads rfl
    obtain ⟨read, closes⟩ := opened.collected rfl 0 _ rfl
    exact ⟨_, closes (Feed.bounded_ofList nofun), rfl, read.whole [⟨.stdout, [0x61, 0x0a]⟩] rfl⟩

end Server

end FleetBoard
