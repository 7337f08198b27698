import FleetBoard.Proofs.Fleet.Provenance
import FleetBoard.Proofs.Fleet.Schedules
import FleetBoard.Server.Basic

/-!
# Hosts that are not registered

A fleet looks into its cache before it looks for the host. So a request for a host that nobody has
registered fails if nothing is found under its key, and what could be found there is a matter of how
keys are written: the key of a stranger is that of a registered container if its host is the name of
a registered host with a colon and more behind it. Names that do not begin in this way, and among
them all names without a colon, are never answered, whatever calls there have been before.
-/

namespace FleetBoard

/-- Containers with the same key whose hosts differ: the colon after the one name is within the
other. -/
theorem ContainerRef.host_of_key_eq {c owner : ContainerRef} (plain : ':' ∉ owner.host.toList)
    (same : c.key = owner.key) (different : c.host ≠ owner.host) :
    ∃ more, c.host = owner.host ++ ":" ++ more ∧ owner.id = more ++ ":" ++ c.id := by
  have letters : c.host.toList ++ ':' :: c.id.toList =
      owner.host.toList ++ ':' :: owner.id.toList := by
    have written := congrArg String.toList same
    simpa [key, String.toList_append] using written
  rcases List.append_eq_append_iff.mp letters with ⟨rest, longer, left⟩ | ⟨rest, longer, left⟩
  · exfalso
    cases rest with
    | nil => exact different (String.toList_inj.mp (by simpa using longer.symm))
    | cons x rest =>
        obtain ⟨rfl, -⟩ := List.cons.inj left
        exact plain (longer ▸ List.mem_append_right _ List.mem_cons_self)
  · cases rest with
    | nil => exact absurd (String.toList_inj.mp (by simpa using longer)) different
    | cons x rest =>
        obtain ⟨rfl, behind⟩ := List.cons.inj left
        refine ⟨String.ofList rest, ?_, ?_⟩
        · rw [← String.toList_inj, longer]
          simp [String.toList_append]
        · rw [← String.toList_inj, behind]
          simp [String.toList_append]

namespace Fleet

variable {ε : Type} [ContainerEngine ε] {f g : Fleet ε} {life : Lifetime} {now : Nat}
    {c : ContainerRef}

/-- What a fleet has become by being used, and at what time. Calls may overlap, as they do in
traffic, or follow one another while time goes on and engines change. -/
inductive Used (f : Fleet ε) : Nat → Fleet ε → Prop
  | traffic {start : Nat} {s : Traffic ε} (run : Traffic.Run ⟨f, start, [], []⟩ s) :
      Used f s.now s.fleet
  | containerStats {now : Nat} {g g' : Fleet ε} {life : Lifetime} {c : ContainerRef}
      {answer : Timed (Except FleetError ContainerStats)} (used : Used f now g)
      (called : g.containerStats life now c = (g', some answer)) : Used f answer.moment g'
  | bulkStats {now : Nat} {g g' : Fleet ε} {life : Lifetime} {containers : List ContainerRef}
      {answer : Timed (List ContainerStats)} (used : Used f now g)
      (called : g.bulkStats life now containers = (g', some answer)) : Used f answer.moment g'
  | allRunningStats {now : Nat} {g g' : Fleet ε} {life : Lifetime}
      {answer : Timed (List ContainerStats)} (used : Used f now g)
      (called : g.allRunningStats life now = (g', some answer)) :
    Used f answer.moment g'
  | wait {now : Nat} {g : Fleet ε} (used : Used f now g) (time : Nat) : Used f (now + time) g
  | tick {now : Nat} {g : Fleet ε} (used : Used f now g) (time : Nat) :
    Used f now { g with clock := g.clock + time }
  | change {now : Nat} {g : Fleet ε} (used : Used f now g) (name : String) (h : ε → ε) :
    Used f now { g with pool := g.pool.modify name h }

namespace Used

/-- All use is traffic. -/
theorem run (used : f.Used now g) :
    ∃ start s, Traffic.Run ⟨f, start, [], []⟩ s ∧ s.now = now ∧ s.fleet = g := by
  -- A fan-out at some time after the traffic so far.
  have bulk : ∀ {start : Nat} {s : Traffic ε} {now : Nat} {g : Fleet ε} {life : Lifetime}
      {containers : List ContainerRef} {answer : Timed (List ContainerStats)},
      Traffic.Run ⟨f, start, [], []⟩ s → s.now ≤ now →
      s.fleet.bulkStats life now containers = (g, some answer) →
      ∃ s', Traffic.Run ⟨f, start, [], []⟩ s' ∧ s'.now = answer.moment ∧ s'.fleet = g := by
    intro start s now g life containers answer run waits called
    have waited := run.tail (.work (.wait (now - s.now)))
    rw [Nat.add_sub_cancel' waits] at waited
    obtain ⟨s', working, fleet, -, answered⟩ :=
      Traffic.bulkStats_schedule s.fleet life now containers s.tasks s.history
    rw [called] at fleet answered
    exact ⟨s', (waited.tail (.bulk life containers)).trans working.run, (answered answer rfl).1,
      fleet⟩
  induction used with
  | traffic run => exact ⟨_, _, run, rfl, rfl⟩
  | @containerStats _ _ _ life c answer _ called ih =>
      obtain ⟨start, s, run, rfl, rfl⟩ := ih
      obtain ⟨s', working, fleet, answered⟩ :=
        Traffic.containerStats_schedule s.fleet life s.now c s.tasks s.history
      rw [called] at fleet answered
      exact ⟨start, s', (run.tail (.call life c)).trans working.run, (answered answer rfl).1, fleet⟩
  | bulkStats _ called ih =>
      obtain ⟨start, s, run, rfl, rfl⟩ := ih
      exact ⟨start, bulk run (Nat.le_refl s.now) called⟩
  | @allRunningStats _ _ _ life _ _ called ih =>
      obtain ⟨start, s, run, rfl, rfl⟩ := ih
      rw [Fleet.allRunningStats] at called
      split at called
      · cases called
      · next hosts asked =>
          obtain ⟨timed, -, moment, -⟩ := Gathered.exists_of_ofTasks asked
          exact ⟨start, bulk run (Gathered.foldl_max_le_iff.mp (Nat.le_of_eq moment.symm)).1 called⟩
  | wait _ time ih =>
      obtain ⟨start, s, run, rfl, rfl⟩ := ih
      exact ⟨start, _, run.tail (.work (.wait time)), rfl, rfl⟩
  | tick _ time ih =>
      obtain ⟨start, s, run, rfl, rfl⟩ := ih
      exact ⟨start, _, run.tail (.tick time), rfl, rfl⟩
  | change _ name h ih =>
      obtain ⟨start, s, run, rfl, rfl⟩ := ih
      exact ⟨start, _, run.tail (.change name h), rfl, rfl⟩

/-- A fan-out that has begun is use. -/
theorem starts (used : f.Used now g) (life : Lifetime) (containers : List ContainerRef) :
    f.Used now (containers.foldl (Sampling.start life now) { fleet := g }).fleet := by
  obtain ⟨start, s, run, rfl, rfl⟩ := used.run
  obtain ⟨mine, history, -, working, -⟩ :=
    Traffic.starts_schedule life s.now { fleet := s.fleet } containers s.tasks s.history
  exact .traffic ((run.tail (.bulk life containers)).trans working.run)

/-- Fleets are used in clean traffic. -/
theorem clean (used : f.Used now g) (built : f.pool.Built)
    (plain : ∀ h ∈ f.hosts, ':' ∉ h.name.toList) (empty : f.cache.entries = []) :
    ∃ start s, Traffic.Clean ⟨f, start, [], []⟩ s ∧ s.fleet = g := by
  obtain ⟨start, s, run, -, rfl⟩ := used.run
  exact ⟨start, s, (Traffic.Clean.of_empty built empty start).run plain run, rfl⟩

end Used

section Unregistered

variable {host id : String}

omit [ContainerEngine ε] in
/-- A host that is not registered has no engine. -/
theorem engine_of_unregistered (built : g.pool.Built)
    (unregistered : ∀ h ∈ g.hosts, h.name ≠ host) :
    g.pool.engine host = .error (.unknownHost host) := by
  cases known : g.pool.engine host with
  | ok engine =>
      obtain ⟨h, registered, name⟩ := built.paired.exists_host known
      exact absurd name (unregistered h registered)
  | error e =>
      rw [HostPool.engine] at known
      split at known
      · cases known
      · exact known.symm

/-- A host that is not registered is unknown, unless there is a fresh sample in the cache of a
container that has the same key. -/
theorem beginStats_of_unregistered (built : f.pool.Built)
    (plain : ∀ h ∈ f.hosts, ':' ∉ h.name.toList) (empty : f.cache.entries = [])
    (used : f.Used now g) (unregistered : ∀ h ∈ f.hosts, h.name ≠ host) :
    (∀ life moment, g.beginStats life moment ⟨host, id⟩ = (g, .done (.error (.unknownHost host)))) ∨
      ∃ owner more stats, f.Registers owner ∧ host = owner.host ++ ":" ++ more ∧
        owner.id = more ++ ":" ++ id ∧ stats.host = owner.host ∧ stats.id = owner.id ∧
        ∀ life moment, g.beginStats life moment ⟨host, id⟩ = (g, .done (.ok stats)) := by
  obtain ⟨start, s, clean, rfl⟩ := used.clean built plain empty
  cases found : s.fleet.cache.get s.fleet.clock (ContainerRef.key ⟨host, id⟩) with
  | none =>
      have unknown := engine_of_unregistered clean.built (clean.hosts ▸ unregistered)
      exact .inl fun life moment => beginStats_of_unknown found unknown
  | some stats =>
      obtain ⟨e, inside, rfl, -⟩ := StatsCache.exists_of_get s.fleet.clock found
      obtain ⟨owner, _, ⟨h, registered, name⟩, key, ⟨_, _, -, made, -⟩, -⟩ := clean.owned _ inside
      obtain ⟨more, longer, behind⟩ := ContainerRef.host_of_key_eq (name ▸ plain h registered) key
        (name ▸ (unregistered h registered).symm)
      exact .inr ⟨owner, more, e.stats, ⟨h, registered, name⟩, longer, behind,
        by rw [made], by rw [made], fun life moment => beginStats_of_hit found⟩

theorem start_of_unknown {s : Sampling ε} {error : FleetError}
    (unknown : s.fleet.beginStats life now c = (s.fleet, .done (.error error))) :
    s.start life now c = s := by
  rw [Sampling.start, unknown]
  split <;> rfl

/-- A request for the sample of a container goes to the fleet. -/
theorem respond_containerStats {s : Server ε} {r : Request} {raw : List Char}
    (method : r.method = "GET") (route : Route.ofPath r.path = some (.containerStats raw))
    (decoded : Route.decodeId? raw = some id) (once : Server.repeatsHost r.params = false)
    (named : Server.hostOf r.params = .ok host) {error : FleetError}
    (asked : s.fleet.containerStats (s.requestLifetime now) now ⟨host, id⟩ =
      (s.fleet, some ⟨now, .error error⟩)) :
    ∃ response, s.respond now r = (s, some ⟨now, response⟩) ∧
      response.status = (ServerError.ofFleet error).status := by
  have found : s.onPath now r = (s, some ⟨now, .ofError (.ofFleet error)⟩) := by
    have routed : s.onRoute now r (.containerStats raw) = s.get now r (.containerStats raw) := by
      rw [Server.onRoute]
      exact method
    rw [Server.onPath, route]
    dsimp only
    rw [routed, Server.get, Server.withId, decoded]
    dsimp only
    rw [Server.withHost, once, named]
    dsimp only
    rw [asked]
    rfl
  refine ⟨_, by rw [Server.respond, found]; rfl, rfl⟩

/-- The name does not begin with that of a host and a colon. -/
def Foreign (f : Fleet ε) (host : String) : Prop :=
  ∀ h ∈ f.hosts, ∀ more, host ≠ h.name ++ ":" ++ more

/-- What comes of asking a fleet that began as `f` about a host that is not registered. -/
structure Unanswered (f g : Fleet ε) (now : Nat) (host id : String) : Prop where
  /-- The host is unknown, or it is served the sample of a container of another host. -/
  asked : (∀ life, g.containerStats life now ⟨host, id⟩ =
      (g, some ⟨now, .error (.unknownHost host)⟩)) ∨
    ∃ owner more stats, f.Registers owner ∧ host = owner.host ++ ":" ++ more ∧
      owner.id = more ++ ":" ++ id ∧ stats.host = owner.host ∧ stats.id = owner.id ∧
      ∀ life, g.containerStats life now ⟨host, id⟩ = (g, some ⟨now, .ok stats⟩)
  unknown : f.Foreign host → ∀ life,
    g.containerStats life now ⟨host, id⟩ = (g, some ⟨now, .error (.unknownHost host)⟩)
  passedOver : f.Foreign host → ∀ life before after,
    g.bulkStats life now (before ++ ⟨host, id⟩ :: after) = g.bulkStats life now (before ++ after)
  notFound : f.Foreign host → ∀ (s : Server ε) (r : Request) (raw : List Char), s.fleet = g →
    r.method = "GET" → Route.ofPath r.path = some (.containerStats raw) →
    Route.decodeId? raw = some id → Server.repeatsHost r.params = false →
    Server.hostOf r.params = .ok host →
    ∃ response, s.respond now r = (s, some ⟨now, response⟩) ∧ response.status = 404

/-- An unregistered host is never answered with samples of its own. Whatever calls a fleet has been
used for, either the host is unknown to it, or its name begins with that of a registered host and a
colon, and it is served the sample of a container of that host with the same key. If its name does
not begin like this, a call for one sample fails, a call for many goes on as if its containers had
not been named, and the server answers that it has not been found. -/
theorem strangers_unanswered (built : f.pool.Built) (plain : ∀ h ∈ f.hosts, ':' ∉ h.name.toList)
    (empty : f.cache.entries = []) (used : f.Used now g)
    (unregistered : ∀ h ∈ f.hosts, h.name ≠ host) (id : String) : Unanswered f g now host id := by
  have begins : f.Foreign host → ∀ {g : Fleet ε}, f.Used now g → ∀ life moment,
      g.beginStats life moment ⟨host, id⟩ = (g, .done (.error (.unknownHost host))) := by
    intro foreign g used
    rcases beginStats_of_unregistered built plain empty used unregistered with unknown | served
    · exact unknown
    · obtain ⟨owner, more, -, ⟨h, registered, name⟩, longer, -⟩ := served
      exact absurd (name ▸ longer) (foreign h registered more)
  have fails : f.Foreign host → ∀ life, g.containerStats life now ⟨host, id⟩ =
      (g, some ⟨now, .error (.unknownHost host)⟩) := by
    intro foreign life
    rw [Fleet.containerStats, begins foreign used]
  refine { asked := ?_, unknown := fails, passedOver := ?_, notFound := ?_ }
  · rcases beginStats_of_unregistered built plain empty used unregistered with unknown | served
    · refine .inl fun life => ?_
      rw [Fleet.containerStats, unknown]
    · obtain ⟨owner, more, stats, registered, longer, behind, about, same, served⟩ := served
      refine .inr ⟨owner, more, stats, registered, longer, behind, about, same, fun life => ?_⟩
      rw [Fleet.containerStats, served]
  · intro foreign life before after
    rw [Fleet.bulkStats, Fleet.bulkStats, List.foldl_append, List.foldl_append, List.foldl_cons,
      start_of_unknown (begins foreign (used.starts life before) life now)]
  · rintro foreign s r raw rfl method route decoded once named
    exact respond_containerStats method route decoded once named (fails foreign _)

end Unregistered

def sampledOnce : Fleet MemoryEngine := (Traffic.oneContainer.containerStats {} 0 ⟨"a", "b:c"⟩).1

theorem used_sampledOnce : Traffic.oneContainer.Used 0 sampledOnce := by
  have called : Traffic.oneContainer.containerStats {} 0 ⟨"a", "b:c"⟩ =
      (sampledOnce, some ⟨0, .ok ⟨"b:c", "a", ({} : UsageSnapshot).sample⟩⟩) := rfl
  exact .containerStats (@Used.traffic _ _ Traffic.oneContainer 0 _ .refl) called

/-- A name without a colon is unknown. -/
theorem strangers_unanswered_other :
    Traffic.oneContainer.Used 0 sampledOnce ∧
      sampledOnce.containerStats {} 0 ⟨"b", "c"⟩ =
        (sampledOnce, some ⟨0, .error (.unknownHost "b")⟩) := by
  have foreign : Traffic.oneContainer.Foreign "b" := by
    intro h inside more same
    obtain rfl := List.mem_singleton.mp inside
    have letters := congrArg String.toList same
    simp [String.toList_append] at letters
  have unregistered : ∀ h ∈ Traffic.oneContainer.hosts, h.name ≠ "b" := by decide
  have unanswered :=
    strangers_unanswered Traffic.built_oneContainer (by decide) rfl used_sampledOnce
    unregistered "c"
  exact ⟨used_sampledOnce, unanswered.unknown foreign {}⟩

/-- Once the container `b:c` of the host `a` has been sampled, its sample is served for the
container `c` of a host `a:b` that nobody has registered. -/
theorem stranger_served :
    Traffic.oneContainer.pool.Built ∧ (∀ h ∈ Traffic.oneContainer.hosts, ':' ∉ h.name.toList) ∧
      Traffic.oneContainer.cache.entries = [] ∧ Traffic.oneContainer.Used 0 sampledOnce ∧
      (∀ h ∈ Traffic.oneContainer.hosts, h.name ≠ "a:b") ∧
      ∃ stats, sampledOnce.containerStats {} 0 ⟨"a:b", "c"⟩ = (sampledOnce, some ⟨0, .ok stats⟩) ∧
        stats.host = "a" ∧ stats.id = "b:c" :=
  ⟨Traffic.built_oneContainer, by decide, rfl, used_sampledOnce, by decide, _, rfl, rfl, rfl⟩

end Fleet

end FleetBoard
