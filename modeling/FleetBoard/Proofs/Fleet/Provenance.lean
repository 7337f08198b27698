import FleetBoard.Engine.Memory
import FleetBoard.Proofs.Call.Endings
import FleetBoard.Proofs.Fleet.Traffic

/-!
# Where samples come from

Tasks of many calls share one cache, whose keys are texts made of a host and an identifier. What is
held under a key was put there by some task, maybe one for another container with the same key.
Every entry is therefore held together with its owner: a container of a registered host, whose own
engine has been asked and has returned the snapshot that the sample is made of. Whose engine was
asked is not left to the events: it is the one that the pool had for the host in a state that the
traffic went through (`AskedOwn`). Keys of different owners differ, since names of hosts have no
colon, and so a task is only ever served what is its own. Identifiers may have any characters.
-/

namespace FleetBoard

variable {ε : Type} [ContainerEngine ε]

def Fleet.Registers (f : Fleet ε) (c : ContainerRef) : Prop := ∃ host ∈ f.hosts, host.name = c.host

namespace Traffic

variable {c : ContainerRef} {stats : ContainerStats} {moment : Nat}

/-- In traffic from `begun` to `s`, an engine was asked about a container at a time of the clock of
the cache. The traffic went through the state in which that came next, and the engine is the one
that the pool had in this state for the host of the container. -/
def AskedOwn (begun s : Traffic ε) (c : ContainerRef) (engine : ε) (asked : Nat) : Prop :=
  ∃ u : Traffic ε, begun.Run u ∧ u.Run s ∧ u.fleet.pool.engine c.host = .ok engine ∧
    u.fleet.clock = asked ∧ (⟨asked, .asked c engine⟩ :: u.history) <:+ s.history

/-- Events, newest first: the engine of the host of a container has returned a snapshot for the
container, for which it had been asked. -/
def Heard (begun s : Traffic ε) (c : ContainerRef) (snapshot : UsageSnapshot)
    (events : List (Timed (StatsEvent ε))) : Prop :=
  ∃ engine returned asked, AskedOwn begun s c engine asked ∧
    (ContainerEngine.sampleUsage engine c.id).result = .ok snapshot ∧
    events = [⟨returned, .returned c (.ok snapshot)⟩, ⟨asked, .asked c engine⟩]

/-- Events, newest first: the sample of a snapshot that the engine of the host of a container has
returned for the container was stored, at a time of the clock of the cache. -/
def Sourced (begun s : Traffic ε) (c : ContainerRef) (stored : Nat) (stats : ContainerStats)
    (events : List (Timed (StatsEvent ε))) : Prop :=
  ∃ snapshot heard, Heard begun s c snapshot heard ∧ stats = ⟨c.id, c.host, snapshot.sample⟩ ∧
    events = ⟨stored, .stored c stats⟩ :: heard

/-- What is held under a key belongs to a container of a registered host and comes from its
engine. -/
def Owned (begun s : Traffic ε) (e : CacheKey × CacheEntry) : Prop :=
  ∃ owner events, begun.fleet.Registers owner ∧ e.1 = owner.key ∧
    Sourced begun s owner e.2.capturedAt e.2.stats events ∧ events.Sublist s.history

/-- The sample that a task was served is its own, and was stored less than the time to live
before. -/
def ServedOwn (begun s : Traffic ε) (c : ContainerRef) (moment : Nat) (stats : ContainerStats) :
    Prop :=
  ∃ stored events, Sourced begun s c stored stats events ∧
    (⟨moment, .served c stats⟩ :: events).Sublist s.history ∧ stored ≤ moment ∧
    moment - stored < begun.fleet.cache.config.ttl

/-- What a task has in hand comes from where it should. -/
def Backed (begun s : Traffic ε) (t : StatsTask) : Prop :=
  match t.stage with
  | .asked (some answer) =>
    begun.fleet.Registers t.container ∧ ∀ snapshot, answer.value = .ok snapshot →
      ∃ engine asked, AskedOwn begun s t.container engine asked ∧
        (ContainerEngine.sampleUsage engine t.container.id).result = .ok snapshot ∧
        ⟨asked, .asked t.container engine⟩ ∈ s.history
  | .returned answer =>
    begun.fleet.Registers t.container ∧ ∀ snapshot, answer = .ok snapshot →
      ∃ events, Heard begun s t.container snapshot events ∧ events.Sublist s.history
  | .ended ⟨moment, .ok stats⟩ =>
    ∃ events, Sourced begun s t.container moment stats events ∧ events.Sublist s.history
  | .served ⟨moment, stats⟩ =>
    begun.fleet.Registers t.container → ServedOwn begun s t.container moment stats
  | _ => True

/-- What is kept in all traffic that began with an empty cache. -/
structure Clean (begun s : Traffic ε) : Prop where
  reached : begun.Run s
  built : s.fleet.pool.Built
  hosts : s.fleet.hosts = begun.fleet.hosts
  config : s.fleet.cache.config = begun.fleet.cache.config
  captured : ∀ e ∈ s.fleet.cache.entries, e.2.capturedAt ≤ s.fleet.clock
  owned : ∀ e ∈ s.fleet.cache.entries, Owned begun s e
  backed : ∀ t ∈ s.tasks, Backed begun s t

variable {f g : Fleet ε} {begun s s' : Traffic ε} {t : StatsTask}

/-! ### Later steps take nothing away -/

/-- Events are only ever added. -/
theorem Step.history_suffix (step : s.Step s') : s.history <:+ s'.history := by
  cases step with
  | work works =>
      cases works with
      | task goes => exact List.suffix_cons _ _
      | wait time => exact List.suffix_rfl
  | call | bulk | tick | change => exact List.suffix_rfl

section Later

variable {engine : ε} {asked : Nat} {snapshot : UsageSnapshot}
    {events : List (Timed (StatsEvent ε))}

theorem AskedOwn.later (own : AskedOwn begun s c engine asked) (step : s.Step s') :
    AskedOwn begun s' c engine asked := by
  obtain ⟨u, before, after, known, time, within⟩ := own
  exact ⟨u, before, after.tail step, known, time, within.trans step.history_suffix⟩

theorem Heard.later (heard : Heard begun s c snapshot events) (step : s.Step s') :
    Heard begun s' c snapshot events := by
  obtain ⟨engine, returned, asked, own, result, same⟩ := heard
  exact ⟨engine, returned, asked, own.later step, result, same⟩

theorem Sourced.later {stored : Nat} (sourced : Sourced begun s c stored stats events)
    (step : s.Step s') : Sourced begun s' c stored stats events := by
  obtain ⟨snapshot, heard, isHeard, made, same⟩ := sourced
  exact ⟨snapshot, heard, isHeard.later step, made, same⟩

theorem Owned.later {entry : CacheKey × CacheEntry} (owned : Owned begun s entry)
    (step : s.Step s') : Owned begun s' entry := by
  obtain ⟨owner, events, registered, key, sourced, within⟩ := owned
  exact ⟨owner, events, registered, key, sourced.later step,
    within.trans step.history_suffix.sublist⟩

theorem ServedOwn.later (own : ServedOwn begun s c moment stats) (step : s.Step s') :
    ServedOwn begun s' c moment stats := by
  obtain ⟨stored, events, sourced, within, fresh⟩ := own
  exact ⟨stored, events, sourced.later step, within.trans step.history_suffix.sublist, fresh⟩

theorem Backed.later (backed : Backed begun s t) (step : s.Step s') : Backed begun s' t := by
  have kept := step.history_suffix
  obtain ⟨c, life, fanned, stage⟩ := t
  match stage, backed with
  | .asked (some answer), ⟨registered, given⟩ =>
      refine ⟨registered, ?_⟩
      intro snapshot same
      obtain ⟨engine, asked, own, result, inside⟩ := given snapshot same
      exact ⟨engine, asked, own.later step, result, kept.subset inside⟩
  | .returned answer, ⟨registered, given⟩ =>
      refine ⟨registered, ?_⟩
      intro snapshot same
      obtain ⟨events, heard, within⟩ := given snapshot same
      exact ⟨events, heard.later step, within.trans kept.sublist⟩
  | .ended ⟨moment, .ok stats⟩, ⟨events, sourced, within⟩ =>
      exact ⟨events, sourced.later step, within.trans kept.sublist⟩
  | .served ⟨moment, stats⟩, own => exact fun registered => (own registered).later step
  | .ready, _ | .missed, _ | .asked none, _ | .ended ⟨_, .error _⟩, _ | .skipped, _ => trivial

end Later

/-! ### What one step keeps -/

omit [ContainerEngine ε] in
/-- A host that has an engine is registered. -/
theorem registers_of_engine {engine : ε} (built : g.pool.Built) (hosts : g.hosts = f.hosts)
    (known : g.pool.engine c.host = .ok engine) : f.Registers c := by
  obtain ⟨host, registered, name⟩ := built.paired.exists_host known
  refine ⟨host, ?_, name⟩
  rw [← hosts]
  exact registered

namespace Clean

/-- Traffic begins clean. -/
theorem of_empty (built : f.pool.Built) (empty : f.cache.entries = []) (now : Nat) :
    Clean ⟨f, now, [], []⟩ ⟨f, now, [], []⟩ where
  reached := .refl
  built := built
  hosts := rfl
  config := rfl
  captured := by simp [empty]
  owned := by simp [empty]
  backed := List.forall_mem_nil _

/-- What a container of a registered host is served belongs to it. -/
theorem servedOwn (clean : Clean begun s)
    (plain : ∀ host ∈ begun.fleet.hosts, ':' ∉ host.name.toList) (step : s.Step s')
    (noted : s'.history = ⟨s.fleet.clock, .served c stats⟩ :: s.history)
    (found : s.fleet.cache.get s.fleet.clock c.key = some stats)
    (registered : begun.fleet.Registers c) : ServedOwn begun s' c s.fleet.clock stats := by
  obtain ⟨e, inside, rfl, fresh⟩ := StatsCache.exists_of_get s.fleet.clock found
  obtain ⟨owner, events, ownerRegistered, key, sourced, within⟩ := clean.owned _ inside
  have colonFree : ∀ d : ContainerRef, begun.fleet.Registers d → ':' ∉ d.host.toList := by
    rintro d ⟨host, there, name⟩
    rw [← name]
    exact plain host there
  obtain rfl : c = owner :=
    ContainerRef.key_injective (colonFree c registered) (colonFree owner ownerRegistered) key
  rw [clean.config] at fresh
  refine ⟨e.capturedAt, events, sourced.later step, ?_, clean.captured _ inside, fresh⟩
  rw [noted]
  exact within.cons_cons _

/-- A step of a task keeps the cache owned and the task backed. -/
theorem goes {t' : StatsTask} {e : StatsEvent ε} (clean : Clean begun s)
    (plain : ∀ host ∈ begun.fleet.hosts, ':' ∉ host.name.toList) (backed : Backed begun s t)
    (goes : t.Goes s.fleet s.now e g t') (step : s.Step s')
    (noted : s'.history = ⟨s.fleet.clock, e⟩ :: s.history) :
    (∀ entry ∈ g.cache.entries, entry.2.capturedAt ≤ g.clock ∧ Owned begun s' entry) ∧
      Backed begun s' t' := by
  have before : ∀ entry ∈ s.fleet.cache.entries,
      entry.2.capturedAt ≤ s.fleet.clock ∧ Owned begun s' entry :=
    fun entry inside => ⟨clean.captured entry inside, (clean.owned entry inside).later step⟩
  cases goes with
  | skip _ | miss _ _ | refuse _ | fail => exact ⟨before, trivial⟩
  | hit _ found => exact ⟨before, clean.servedOwn plain step noted found⟩
  | @ask c life _ engine known =>
      refine ⟨before, ?_⟩
      cases answered : (ContainerEngine.sampleUnder life s.now engine c.id).2 with
      | none => trivial
      | some answer =>
          refine ⟨registers_of_engine clean.built clean.hosts known, ?_⟩
          intro snapshot given
          have own : AskedOwn begun s' c engine s.fleet.clock :=
            ⟨s, clean.reached, .single step, known, rfl, [], noted.symm⟩
          refine ⟨engine, s.fleet.clock, own, Lifetime.result_of_run answered given, ?_⟩
          rw [noted]
          exact List.mem_cons_self
  | @hear c _ _ answer _ =>
      obtain ⟨registered, given⟩ := backed
      refine ⟨before, registered, ?_⟩
      intro snapshot same
      obtain ⟨engine, asked, own, result, inside⟩ := given snapshot same
      rw [same] at noted
      refine ⟨_, ⟨engine, s.fleet.clock, asked, own.later step, result, rfl⟩, ?_⟩
      rw [noted]
      exact (List.singleton_sublist.mpr inside).cons_cons _
  | @store c _ _ snapshot =>
      obtain ⟨registered, given⟩ := backed
      obtain ⟨heard, isHeard, within⟩ := given snapshot rfl
      have sourced : Sourced begun s' c s.fleet.clock ⟨c.id, c.host, snapshot.sample⟩
          (⟨s.fleet.clock, .stored c ⟨c.id, c.host, snapshot.sample⟩⟩ :: heard) :=
        ⟨snapshot, heard, isHeard.later step, rfl, rfl⟩
      have stored : (⟨s.fleet.clock, .stored c ⟨c.id, c.host, snapshot.sample⟩⟩ :: heard).Sublist
          s'.history := by
        rw [noted]
        exact within.cons_cons _
      refine ⟨?_, _, sourced, stored⟩
      intro entry inside
      rcases StatsCache.mem_put _ _ _ inside with rfl | earlier
      · exact ⟨Nat.le_refl s.fleet.clock, c, _, registered, rfl, sourced, stored⟩
      · exact before entry earlier

/-- A step that leaves the cache as it is and adds tasks that have not begun. -/
theorem arrive (clean : Clean begun s) (step : s.Step s') {new : List StatsTask}
    (fresh : ∀ t ∈ new, t.stage = .ready) (tasks : s'.tasks = s.tasks ++ new)
    (fleet : s'.fleet = s.fleet) : Clean begun s' where
  reached := clean.reached.tail step
  built := fleet ▸ clean.built
  hosts := fleet ▸ clean.hosts
  config := fleet ▸ clean.config
  captured := fleet ▸ clean.captured
  owned e inside := (clean.owned e (fleet ▸ inside)).later step
  backed := by
    intro t inside
    rw [tasks] at inside
    rcases List.mem_append.mp inside with earlier | inside
    · exact (clean.backed t earlier).later step
    · rw [Backed, fresh t inside]
      trivial

/-- Every step keeps traffic clean. -/
theorem step (clean : Clean begun s) (plain : ∀ host ∈ begun.fleet.hosts, ':' ∉ host.name.toList)
    (step : s.Step s') : Clean begun s' := by
  have owned : ∀ e ∈ s.fleet.cache.entries, Owned begun s' e :=
    fun e inside => (clean.owned e inside).later step
  have backed : ∀ t ∈ s.tasks, Backed begun s' t :=
    fun t inside => (clean.backed t inside).later step
  have reached := clean.reached.tail step
  cases step with
  | work works =>
      cases works with
      | @task seen g now before after t t' e history moves =>
          have here := clean.backed t (List.mem_append_right before List.mem_cons_self)
          obtain ⟨entries, next⟩ := clean.goes plain here moves (.work (.task moves)) rfl
          exact {
            reached := reached
            built := moves.built clean.built
            hosts := moves.hosts.trans clean.hosts
            config := moves.config.trans clean.config
            captured := fun entry inside => (entries entry inside).1
            owned := fun entry inside => (entries entry inside).2
            backed := StatsTask.forall_moved backed next }
      | wait time => exact { clean with reached := reached, owned := owned, backed := backed }
  | call life c =>
      refine clean.arrive (.call life c) ?_ rfl rfl
      intro t inside
      rw [List.mem_singleton.mp inside]
  | bulk life containers =>
      refine clean.arrive (.bulk life containers) ?_ rfl rfl
      intro t inside
      obtain ⟨c, -, rfl⟩ := List.mem_map.mp inside
      rfl
  | tick time =>
      exact { clean with
        reached := reached
        owned := owned
        backed := backed
        captured := fun e inside =>
          Nat.le_trans (clean.captured e inside) (Nat.le_add_right _ time) }
  | change name h =>
      exact { clean with
        reached := reached
        owned := owned
        backed := backed
        built := clean.built.modify }

theorem run (clean : Clean begun s) (plain : ∀ host ∈ begun.fleet.hosts, ':' ∉ host.name.toList)
    (run : s.Run s') : Clean begun s' := by
  induction run with
  | refl => exact clean
  | tail _ next ih => exact ih.step plain next

end Clean

/-- In all traffic of a fleet whose names of hosts have no colon and whose cache was empty, an
answer about a container of a registered host is made of a snapshot that the engine of this host, as
the pool had it when it was asked, has returned for this identifier. It was put into the cache when
the task ended; or it was served from the cache, and then it had been put there less than the time
to live before. -/
theorem answers_are_own {now : Nat} (built : f.pool.Built)
    (plain : ∀ host ∈ f.hosts, ':' ∉ host.name.toList) (empty : f.cache.entries = [])
    (run : Run ⟨f, now, [], []⟩ s) (inside : t ∈ s.tasks) (registered : f.Registers t.container) :
    (∀ moment stats, t.stage = .ended ⟨moment, .ok stats⟩ →
      ∃ events, Sourced ⟨f, now, [], []⟩ s t.container moment stats events ∧
        events.Sublist s.history) ∧
      ∀ moment stats, t.stage = .served ⟨moment, stats⟩ →
        ServedOwn ⟨f, now, [], []⟩ s t.container moment stats := by
  have backed := ((Clean.of_empty built empty now).run plain run).backed t inside
  refine ⟨?_, ?_⟩
  · intro moment stats ended
    rw [Backed, ended] at backed
    exact backed
  · intro moment stats served
    rw [Backed, served] at backed
    exact backed registered

/-- A fleet of one host with one container, whose identifier has a colon. -/
def oneContainer : Fleet MemoryEngine :=
  { pool := {
      hosts := [⟨"a", "local"⟩]
      engines := [("a", { containers := [⟨{ id := "b:c" }, [], none⟩] })] } }

theorem built_oneContainer : oneContainer.pool.Built :=
  @HostPool.Built.insert _ _ _ ⟨"a", "local"⟩ _ .empty rfl

/-- The container is sampled, and a nanosecond later it is served what was sampled. -/
theorem answers_are_own_servedTwice :
    ∃ (s : Traffic MemoryEngine) (t : StatsTask) (stats : ContainerStats),
      Run ⟨oneContainer, 0, [], []⟩ s ∧ t ∈ s.tasks ∧ t.stage = .served ⟨1, stats⟩ ∧
        ServedOwn ⟨oneContainer, 0, [], []⟩ s ⟨"a", "b:c"⟩ 1 stats := by
  have called : Run ⟨oneContainer, 0, [], []⟩
      ⟨oneContainer, 0, [⟨⟨"a", "b:c"⟩, {}, false, .ready⟩], []⟩ :=
    .single (.call {} ⟨"a", "b:c"⟩)
  have missed := called.tail (.work (@Works.task _ _ _ _ _ [] [] _ _ _ _ (.miss rfl rfl)))
  have asked := missed.tail (.work (@Works.task _ _ _ _ _ [] [] _ _ _ _ (.ask rfl)))
  have heard := asked.tail (.work (@Works.task _ _ _ _ _ [] [] _ _ _ _ (.hear (Nat.le_refl 0))))
  have stored := heard.tail (.work (@Works.task _ _ _ _ _ [] [] _ _ _ _ .store))
  have again := (stored.tail (.tick 1)).tail (.call {} ⟨"a", "b:c"⟩)
  have served := again.tail (.work (@Works.task _ _ _ _ _ [_] [] _ _ _ _ (.hit rfl rfl)))
  have own := (answers_are_own built_oneContainer (by decide) rfl served
    (List.mem_cons_of_mem _ List.mem_cons_self) ⟨⟨"a", "local"⟩, List.mem_cons_self, rfl⟩).2 1 _ rfl
  exact ⟨_, _, _, served, List.mem_cons_of_mem _ List.mem_cons_self, rfl, own⟩

end Traffic

end FleetBoard
